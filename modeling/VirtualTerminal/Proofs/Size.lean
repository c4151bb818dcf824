import VirtualTerminal.Proofs.Run

/-!
# Size — how large a screen can be

No instruction changes the size of a screen (`dims_obeyAll?`); only a resize does.  So a screen
whose size fits in sixteen bits keeps such a size, as long as it is given no other
(`Dimensions.Fits`, `Screen.fits_change?`).

The rows and columns that an instruction counts from one must not be zero (`Instruction.Counted`).
Every instruction that is read from a byte stream meets this (`Reader.counted_feed`), so the
condition bears only on changes that are made behind the emulator's back (`Change.Fits`).
-/

namespace VirtualTerminal

/-- Rows and columns are sixteen-bit numbers. -/
structure Dimensions.Fits (d : Dimensions) : Prop where
  rows_le : d.rows ≤ Word.max
  cols_le : d.cols ≤ Word.max

/-- Raising an empty side to one does not leave the range. -/
theorem Dimensions.Fits.raised {d : Dimensions} (h : d.Fits) : d.raised.Fits where
  rows_le := Nat.max_le.mpr ⟨h.rows_le, by decide⟩
  cols_le := Nat.max_le.mpr ⟨h.cols_le, by decide⟩

/-! ### Instructions keep the size -/

namespace Screen

variable {s s' : Screen}

theorem dims_indexDown (s : Screen) : s.indexDown.dims = s.dims := by
  unfold indexDown
  split
  · rfl
  · split <;> rfl

theorem dims_indexUp (s : Screen) : s.indexUp.dims = s.dims := by
  unfold indexUp
  split <;> rfl

theorem dims_wrap (s : Screen) : s.wrap.dims = s.dims := dims_indexDown _

/-- Making room for a glyph wraps or steps back, and keeps the size. -/
theorem dims_makeRoom (s : Screen) (width reach : Nat) :
    (s.makeRoom width reach).dims = s.dims := by
  unfold makeRoom
  split
  · split
    · exact dims_wrap s
    · rfl
  · rfl

/-- A wrap ends in the first column. -/
theorem col_wrap (s : Screen) : s.wrap.cursor.col = 0 := by
  unfold wrap indexDown
  split
  · rfl
  · split <;> rfl

/-- After making room the character fits into its line. -/
theorem col_makeRoom_add_le {width : Nat} (hw : width ≤ s.dims.cols) :
    (s.makeRoom width (s.cursor.col + width)).cursor.col + width ≤ s.dims.cols := by
  unfold makeRoom
  split
  · split
    · rwa [col_wrap, Nat.zero_add]
    · exact Nat.le_of_eq (Nat.sub_add_cancel hw)
  · omega

/-- Placing a glyph keeps the size. -/
theorem dims_place (s : Screen) (width : Nat) (c : Char) : (s.place width c).dims = s.dims := by
  unfold place
  dsimp only
  split <;> rfl

/-- Printing keeps the size. -/
theorem dims_write? {c : Char} (hs : s.write? c = some s') : s'.dims = s.dims := by
  obtain rfl | ⟨width, s₀, -, -, -, hs₀, rfl⟩ := write?_eq_some hs
  · rfl
  · rw [dims_place, dims_makeRoom]
    rcases hs₀ with rfl | rfl
    · rfl
    · exact dims_wrap s

/-- No instruction changes the size. -/
theorem dims_obey? (h : s.WellFormed) {i : Instruction} (hs : i.obey? s = some s') :
    s'.dims = s.dims := by
  cases i with
  | print c => exact dims_write? hs
  | tab =>
    obtain ⟨stop, rfl⟩ := tab?_eq_some hs
    rfl
  | lineFeed | index => exact Option.some.inj hs ▸ dims_indexDown _
  | reverseIndex => exact Option.some.inj hs ▸ dims_indexUp _
  | insertLines n =>
    obtain rfl := Option.some.inj hs
    unfold insertLines
    split <;> rfl
  | deleteLines n =>
    obtain rfl := Option.some.inj hs
    unfold deleteLines
    split <;> rfl
  | restoreCursor =>
    obtain rfl := Option.some.inj hs
    unfold restoreCursor
    split <;> rfl
  | reset =>
    obtain rfl := Option.some.inj hs
    exact Dimensions.raised_eq_self h.rows_pos h.cols_pos
  | _ => exact Option.some.inj hs ▸ rfl

/-- Instructions never change the size. -/
theorem dims_obeyAll? (h : s.WellFormed) {is : List Instruction} (hs : s.obeyAll? is = some s') :
    s'.dims = s.dims := by
  induction is generalizing s with
  | nil => exact Option.some.inj hs ▸ rfl
  | cons i is ih =>
    obtain ⟨s₁, h₁, h₂⟩ := Option.bind_eq_some_iff.mp hs
    exact (ih (h.obey? h₁) h₂).trans (dims_obey? h h₁)

end Screen

/-! ### Rows and columns counted from one -/

/-- What the instruction counts from one is not zero. -/
def Instruction.Counted : Instruction → Prop
  | .moveToRow row => 1 ≤ row
  | .moveToColumn col => 1 ≤ col
  | .moveCursor row col => 1 ≤ row ∧ 1 ≤ col
  | .setMargins top _ => 1 ≤ top
  | _ => True

namespace Instruction

/-- A count is at least one, also where a zero is written. -/
theorem one_le_count (groups : List (List Nat)) (i : Nat) : 1 ≤ count groups i :=
  Nat.le_max_right ..

/-- Control characters count nothing. -/
theorem counted_ofControlCharacter (b : UInt8) : ∀ i ∈ ofControlCharacter b, i.Counted := by
  unfold ofControlCharacter
  split <;> simp [Counted]

/-- Escape sequences count nothing. -/
theorem counted_ofEscape (intermediates : List UInt8) (final : UInt8) :
    ∀ i ∈ ofEscape intermediates final, i.Counted := by
  unfold ofEscape
  split
  · split <;> simp [Counted]
  · simp

/-- What a plain control sequence counts from one is read by `count`. -/
theorem counted_ofPlainControl (groups : List (List Nat)) (final : UInt8) :
    ∀ i ∈ ofPlainControl groups final, i.Counted := by
  have h := one_le_count groups
  unfold ofPlainControl
  dsimp only
  split <;> simp [Counted, h]

/-- Modes count nothing. -/
theorem counted_ofMode (on : Bool) (group : List Nat) : ∀ i ∈ ofMode on group, i.Counted := by
  unfold ofMode
  split <;> simp [Counted]

/-- **A control sequence** of any kind counts from one. -/
theorem counted_ofControl (groups : List (List Nat)) (intermediates : List UInt8)
    (final : UInt8) : ∀ i ∈ ofControl groups intermediates final, i.Counted := by
  intro i hi
  unfold ofControl at hi
  split at hi
  · exact counted_ofPlainControl groups final i hi
  · split at hi
    · obtain ⟨group, -, hi⟩ := List.mem_flatMap.mp hi
      exact counted_ofMode true group i hi
    · obtain ⟨group, -, hi⟩ := List.mem_flatMap.mp hi
      exact counted_ofMode false group i hi
    · cases hi
  · cases hi

/-- Marks count nothing. -/
theorem counted_ofMark (kind : List UInt8) : ∀ i ∈ ofMark kind, i.Counted := by
  unfold ofMark
  split <;> simp [Counted]

/-- A text command counts nothing. -/
theorem counted_ofCommand (arguments : List (List UInt8)) :
    ∀ i ∈ ofCommand arguments, i.Counted := by
  intro i hi
  unfold ofCommand at hi
  split at hi
  · cases hi
  · rename_i command arguments
    split at hi
    · simp_all [Counted]
    · split at hi
      · simp_all [Counted]
      · split at hi
        · cases arguments with
          | nil => cases hi
          | cons kind rest => exact counted_ofMark kind i hi
        · cases hi

/-- **Whatever a byte stream asks for counts from one.** -/
theorem counted_ofAction (a : Escape.Action) : ∀ i ∈ ofAction a, i.Counted := by
  cases a with
  | print c =>
    unfold ofAction
    dsimp only
    split <;> simp [Counted]
  | execute b => exact counted_ofControlCharacter b
  | escape intermediates final => exact counted_ofEscape intermediates final
  | control groups intermediates final => exact counted_ofControl groups intermediates final
  | command arguments => exact counted_ofCommand arguments

end Instruction

namespace Reader

variable (r : Reader)

/-- What a text between sequences is read as counts from one. -/
theorem counted_read (text : List UInt8) : ∀ i ∈ (r.read text).2, i.Counted := by
  intro i hi
  obtain ⟨a, -, hi⟩ := List.mem_flatMap.mp hi
  exact Instruction.counted_ofAction a i hi

/-- **Every instruction** that a reader hands on counts from one. -/
theorem counted_feed (chunk : List UInt8) : ∀ i ∈ (r.feed chunk).2, i.Counted :=
  counted_read _ _

/-- What the end of the input hands on counts from one. -/
theorem counted_finish : ∀ i ∈ r.finish.2, i.Counted := counted_read _ _

end Reader

/-! ### Changes and operations -/

/-- The change can be asked for: its size fits, and what it counts from one is not zero. -/
def Screen.Change.Fits : Screen.Change → Prop
  | .obey i => i.Counted
  | .resize d => d.Fits
  | _ => True

/-- The operation can be asked for; any bytes can be fed. -/
def Operation.Fits : Operation → Prop
  | .call (.resize d) => d.Fits
  | .call _ => True
  | .change c => c.Fits

namespace Screen

variable {s s' : Screen}

/-- A change that fits keeps the size within range. -/
theorem fits_change? (h : s.WellFormed) (hd : s.dims.Fits) {c : Change} (hc : c.Fits)
    (hs : s.change? c = some s') : s'.dims.Fits := by
  cases c with
  | obey i => exact dims_obey? h hs ▸ hd
  | setStyle style => exact Option.some.inj hs ▸ hd
  | putCell row col c =>
    obtain rfl := Option.some.inj hs
    unfold putCell?
    split
    · exact hd
    · exact hd
  | resize d =>
    obtain rfl := Option.some.inj hs
    cases hresize : s.resize? d with
    | none => exact hd
    | some s' =>
      obtain ⟨-, rfl | rfl⟩ := resize?_eq_some hresize
      · exact hd
      · exact hc

end Screen

namespace Reader

/-- An operation that fits hands on changes that fit. -/
theorem fits_operate (r : Reader) {op : Operation} (hop : op.Fits) :
    ∀ c ∈ (r.operate op).2, c.Fits := by
  intro c hc
  rcases op with ⟨chunk | _ | d⟩ | c'
  · obtain ⟨i, hi, rfl⟩ := List.mem_map.mp hc
    exact r.counted_feed chunk i hi
  · obtain ⟨i, hi, rfl⟩ := List.mem_map.mp hc
    exact r.counted_finish i hi
  · exact List.mem_singleton.mp hc ▸ hop
  · exact List.mem_singleton.mp hc ▸ hop

/-- A run of operations that can be asked for makes changes that can be asked for. -/
theorem fits_operateAll {ops : List Operation} (hops : ∀ op ∈ ops, op.Fits) (r : Reader) :
    ∀ c ∈ (r.operateAll ops).2, c.Fits := by
  induction ops generalizing r with
  | nil =>
    intro c hc
    cases hc
  | cons op ops ih =>
    intro c hc
    rcases List.mem_append.mp hc with hc | hc
    · exact r.fits_operate (hops op List.mem_cons_self) c hc
    · exact ih (fun op hmem => hops op (List.mem_cons_of_mem _ hmem)) _ c hc

end Reader

end VirtualTerminal
