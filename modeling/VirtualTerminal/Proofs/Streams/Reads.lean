import VirtualTerminal.Backend.Chunks

/-!
# Reads — what a stream delivers

A stream is read into a buffer of a fixed size, so its bytes come in blocks.  The blocks are not
empty and fit the buffer, and put together they are the bytes (`flatten_blocks`, `mem_blocks`).

A stream delivers bytes until a read has none or fails (`ReadResult.delivered`).  An interrupted
read delivers nothing and ends nothing.
-/

namespace VirtualTerminal

/-! ### Blocks -/

section Blocks
variable {size : Nat} {bytes block : List UInt8}

/-- Fuel for all bytes is enough, and more does no more. -/
theorem blocks_go_congr (h : 0 < size) {fuel fuel' : Nat} (hfuel : bytes.length ≤ fuel)
    (hfuel' : bytes.length ≤ fuel') : blocks.go size fuel bytes = blocks.go size fuel' bytes := by
  induction fuel generalizing fuel' bytes with
  | zero =>
    obtain rfl := List.eq_nil_of_length_eq_zero (Nat.le_zero.mp hfuel)
    cases fuel' <;> rfl
  | succ fuel ih =>
    cases fuel' with
    | zero =>
      obtain rfl := List.eq_nil_of_length_eq_zero (Nat.le_zero.mp hfuel')
      rfl
    | succ fuel' =>
      have hdrop : (bytes.drop size).length ≤ fuel ∧ (bytes.drop size).length ≤ fuel' := by
        rw [List.length_drop]
        omega
      rw [blocks.go, blocks.go, ih hdrop.1 hdrop.2]

theorem blocks_nil : blocks size [] = [] := rfl

/-- The first block, and those of the bytes behind it. -/
theorem blocks_of_ne_nil (h : 0 < size) (hne : bytes ≠ []) :
    blocks size bytes = bytes.take size :: blocks size (bytes.drop size) := by
  have hlength := List.length_pos_iff.mpr hne
  have hdrop : (bytes.drop size).length ≤ bytes.length - 1 := by
    rw [List.length_drop]
    omega
  have hempty : ¬ bytes.isEmpty = true := fun hnil => hne (List.isEmpty_iff.mp hnil)
  rw [blocks, ← Nat.sub_add_cancel hlength, blocks.go, if_neg hempty, blocks,
    blocks_go_congr h hdrop (Nat.le_refl _)]

/-- Bytes that fit are one block. -/
theorem blocks_of_length_le (h : 0 < size) (hne : bytes ≠ []) (hfits : bytes.length ≤ size) :
    blocks size bytes = [bytes] := by
  rw [blocks_of_ne_nil h hne, List.take_of_length_le hfits, List.drop_eq_nil_iff.mpr hfits,
    blocks_nil]

/-- What holds of no bytes, and of bytes where it holds behind their first block, holds of all. -/
theorem blocks_induction {motive : List UInt8 → Prop} (h : 0 < size) (nil : motive [])
    (block : ∀ bytes, bytes ≠ [] → motive (bytes.drop size) → motive bytes) (bytes : List UInt8) :
    motive bytes := by
  generalize hlength : bytes.length = n
  induction n using Nat.strongRecOn generalizing bytes with
  | ind n ih =>
    by_cases hne : bytes = []
    · exact hne ▸ nil
    · have hpos := List.length_pos_iff.mpr hne
      refine block bytes hne (ih _ ?_ _ rfl)
      rw [List.length_drop]
      omega

/-- **The blocks are the bytes.** -/
theorem flatten_blocks (h : 0 < size) (bytes : List UInt8) :
    (blocks size bytes).flatten = bytes := by
  induction bytes using blocks_induction h with
  | nil => rfl
  | block bytes hne ih =>
    rw [blocks_of_ne_nil h hne, List.flatten_cons, ih, List.take_append_drop]

/-- A block is not empty and fits. -/
theorem mem_blocks (h : 0 < size) (hblock : block ∈ blocks size bytes) :
    block ≠ [] ∧ block.length ≤ size := by
  induction bytes using blocks_induction h with
  | nil => cases hblock
  | block bytes hne ih =>
    rw [blocks_of_ne_nil h hne] at hblock
    rcases List.mem_cons.mp hblock with rfl | hrest
    · refine ⟨fun htake => ?_, List.length_take_le size bytes⟩
      rcases List.take_eq_nil_iff.mp htake with hzero | hnil
      · exact absurd hzero (Nat.ne_of_gt h)
      · exact hne hnil
    · exact ih hrest

end Blocks

/-! ### Deliveries -/

namespace ReadResult

/-- The bytes that a read brings. -/
def bytes : ReadResult → List UInt8
  | .data bytes => bytes
  | .interrupted | .hangup | .failed _ => []

/-- Whether a read brings nothing more: it has no byte, or it fails. -/
def isLast : ReadResult → Bool
  | .data bytes => bytes.isEmpty
  | .interrupted => false
  | .hangup | .failed _ => true

/-- The bytes that come before the first read that brings nothing more. -/
def delivered (reads : List ReadResult) : List UInt8 :=
  (reads.takeWhile (!·.isLast)).flatMap bytes

theorem delivered_cons {r : ReadResult} (h : r.isLast = false) (reads : List ReadResult) :
    delivered (r :: reads) = r.bytes ++ delivered reads := by
  rw [delivered, List.takeWhile_cons_of_pos (by rw [h]; rfl), List.flatMap_cons, delivered]

theorem delivered_cons_last {r : ReadResult} (h : r.isLast = true) (reads : List ReadResult) :
    delivered (r :: reads) = [] := by
  rw [delivered, List.takeWhile_cons_of_neg (by rw [h]; decide), List.flatMap_nil]

end ReadResult

end VirtualTerminal
