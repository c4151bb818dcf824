import Mathlib.Data.List.Induction
import VirtualTerminal.OutputBuffer

/-!
# Retention — what a bounded text keeps

A buffer of text is appended to and cleared, in any order.  It holds the end of what was appended
since it was last cleared, within its bound, and drops no more pieces than it must.

* `exists_evict`: eviction drops pieces from the front, the fewest that make room.
* `longestEnd_ending`: of a text that is too large the longest end is kept that fits.
* `append_appends`: what appending does to a buffer whose size is right (`Appends`).

**A buffer keeps the end of the text** (`after_keeps_the_end`).
-/

namespace VirtualTerminal.OutputBuffer

/-! ### Ends of texts -/

/-- The longest end of a text that has at most so many bytes.  What an end leaves out is a text
itself, so an end begins with a whole character. -/
structure LongestEnd (kept text : String) (maxSize : Nat) : Prop where
  isEnd : ∃ front, front ++ kept = text
  fits : kept.utf8ByteSize ≤ maxSize
  longest : ∀ front other, front ++ other = text → other.utf8ByteSize ≤ maxSize →
    other.utf8ByteSize ≤ kept.utf8ByteSize

/-- A text that fits is its own longest end. -/
theorem LongestEnd.whole {text : String} {maxSize : Nat} (h : text.utf8ByteSize ≤ maxSize) :
    LongestEnd text text maxSize where
  isEnd := ⟨"", String.empty_append⟩
  fits := h
  longest front other heq _ := by
    rw [← heq, String.utf8ByteSize_append]
    exact Nat.le_add_left _ _

/-- The bytes of a list of characters. -/
def bytes (cs : List Char) : Nat := (String.ofList cs).utf8ByteSize

@[simp] theorem bytes_cons (c : Char) (cs : List Char) :
    bytes (c :: cs) = c.utf8Size + bytes cs := by
  rw [bytes, ← List.singleton_append, String.ofList_append, String.utf8ByteSize_append,
    ← String.singleton_eq_ofList, String.utf8ByteSize_singleton]
  rfl

theorem bytes_toList (text : String) : bytes text.toList = text.utf8ByteSize := by
  rw [bytes, String.ofList_toList]

/-- Dropping takes whole characters from the front, at least as many bytes as asked for. -/
theorem exists_dropBytes (excess : Nat) (cs : List Char) (h : excess ≤ bytes cs) :
    ∃ front, cs = front ++ dropBytes excess cs ∧ bytes (dropBytes excess cs) + excess ≤ bytes cs := by
  induction cs generalizing excess with
  | nil =>
    obtain rfl : excess = 0 := Nat.le_zero.mp h
    exact ⟨[], rfl, Nat.le_refl _⟩
  | cons c cs ih =>
    cases excess with
    | zero => exact ⟨[], rfl, Nat.le_refl _⟩
    | succ excess =>
      rw [bytes_cons] at h ⊢
      obtain ⟨front, hfront, hbytes⟩ := ih (excess + 1 - c.utf8Size) (by omega)
      refine ⟨c :: front, ?_, ?_⟩
      · rw [dropBytes, List.cons_append, ← hfront]
      · rw [dropBytes]
        omega

/-- It takes no character more than it must. -/
theorem bytes_le_dropBytes (excess : Nat) (front rest : List Char)
    (h : bytes rest + excess ≤ bytes (front ++ rest)) :
    bytes rest ≤ bytes (dropBytes excess (front ++ rest)) := by
  induction front generalizing excess with
  | nil =>
    obtain rfl : excess = 0 := by rw [List.nil_append] at h; omega
    have hnone : dropBytes 0 ([] ++ rest) = rest := by rw [List.nil_append, dropBytes]
    exact Nat.le_of_eq (congrArg bytes hnone.symm)
  | cons c front ih =>
    cases excess with
    | zero =>
      rw [dropBytes]
      omega
    | succ excess =>
      rw [List.cons_append, bytes_cons] at h
      rw [List.cons_append, dropBytes]
      refine ih _ ?_
      have hrest : bytes rest ≤ bytes (front ++ rest) := by
        rw [bytes, bytes, String.ofList_append, String.utf8ByteSize_append]
        exact Nat.le_add_left _ _
      omega

/-- **A text that is too large** is cut to its longest end that fits. -/
theorem longestEnd_ending {text : String} {maxSize : Nat} (h : maxSize < text.utf8ByteSize) :
    LongestEnd (ending text maxSize) text maxSize := by
  have hbytes := bytes_toList text
  obtain ⟨front, hfront, hsize⟩ :=
    exists_dropBytes (text.utf8ByteSize - maxSize) text.toList (by omega)
  refine ⟨⟨String.ofList front, ?_⟩, ?_, fun before other heq hother => ?_⟩
  · rw [OutputBuffer.ending, ← String.ofList_append, ← hfront, String.ofList_toList]
  · rw [OutputBuffer.ending, ← bytes]
    omega
  · subst heq
    rw [OutputBuffer.ending, ← bytes, ← bytes_toList other]
    rw [String.toList_append] at hbytes ⊢
    refine bytes_le_dropBytes _ _ _ ?_
    rw [hbytes, bytes_toList]
    omega

/-! ### Making room -/

/-- The text of the pieces has as many bytes as the pieces have. -/
theorem utf8ByteSize_join_cons (p : String) (pieces : List String) :
    (String.join (p :: pieces)).utf8ByteSize =
      p.utf8ByteSize + (String.join pieces).utf8ByteSize := by
  rw [String.join_cons, String.utf8ByteSize_append]

/-- **Eviction drops the fewest pieces that make room**, the oldest ones. -/
theorem exists_evict {maxSize extra : Nat} (hextra : extra ≤ maxSize) (pieces : List String)
    (truncated : Bool) :
    ∃ evicted rest,
      evict maxSize extra pieces (String.join pieces).utf8ByteSize truncated =
        (rest, (String.join rest).utf8ByteSize,
          truncated || decide (maxSize < (String.join pieces).utf8ByteSize + extra)) ∧
      pieces = evicted ++ rest ∧ (String.join rest).utf8ByteSize + extra ≤ maxSize ∧
      ∀ newest ∈ evicted.getLast?,
        maxSize < newest.utf8ByteSize + (String.join rest).utf8ByteSize + extra := by
  induction pieces generalizing truncated with
  | nil =>
    have hnone : (String.join []).utf8ByteSize = 0 := rfl
    refine ⟨[], [], ?_, rfl, by omega, nofun⟩
    rw [evict, hnone, Nat.zero_add, decide_eq_false (by omega), Bool.or_false]
  | cons p pieces ih =>
    have hsize := utf8ByteSize_join_cons p pieces
    by_cases hfull : maxSize < (String.join (p :: pieces)).utf8ByteSize + extra
    · obtain ⟨evicted, rest, heq, hpieces, hroom, hleast⟩ := ih true
      refine ⟨p :: evicted, rest, ?_, by rw [hpieces, List.cons_append], hroom, ?_⟩
      · rw [evict, if_pos hfull, hsize, Nat.add_sub_cancel_left, heq, Bool.true_or, ← hsize,
          decide_eq_true hfull, Bool.or_true]
      · -- the newest piece evicted is the first one only if no other is
        cases evicted with
        | nil =>
          rintro newest ⟨⟩
          rw [hsize, hpieces, List.nil_append] at hfull
          exact hfull
        | cons q evicted =>
          rw [List.getLast?_cons_cons]
          exact hleast
    · refine ⟨[], p :: pieces, ?_, rfl, by omega, nofun⟩
      rw [evict, if_neg hfull, decide_eq_false hfull, Bool.or_false]

/-! ### Appending -/

/-- The size of the buffer is that of its text, and within the bound. -/
structure Sized (b : OutputBuffer) : Prop where
  size_eq : b.size = b.contents.utf8ByteSize
  size_le : b.size ≤ b.maxSize

/-- What appending a text does to a buffer: of the text it keeps the longest end that fits, and of
what was there before it drops pieces from the front.  If the text itself fits it drops the fewest
that make room; else it drops all. -/
structure Appends (b : OutputBuffer) (text : String) (b' : OutputBuffer) (kept : String) : Prop where
  maxSize_eq : b'.maxSize = b.maxSize
  sized : Sized b'
  ending : LongestEnd kept text b.maxSize
  truncated_eq : b'.truncated = (b.truncated || decide (b.maxSize < b.size + text.utf8ByteSize))
  pieces_eq : ∃ evicted rest, b.pieces = evicted ++ rest ∧
    b'.pieces = rest ++ (if kept.isEmpty then [] else [kept]) ∧
    (text.utf8ByteSize ≤ b.maxSize → ∀ newest ∈ evicted.getLast?,
      b.maxSize < newest.utf8ByteSize + (String.join rest).utf8ByteSize + text.utf8ByteSize) ∧
    (b.maxSize < text.utf8ByteSize → rest = [])

/-- A text that fits is kept whole. -/
theorem store_appends {b : OutputBuffer} (hb : Sized b) {text : String}
    (hfits : text.utf8ByteSize ≤ b.maxSize) : Appends b text (b.store text) text := by
  obtain ⟨evicted, rest, hevict, hpieces, hroom, hleast⟩ :=
    exists_evict hfits b.pieces b.truncated
  have hsize : (String.join b.pieces).utf8ByteSize = b.size := hb.size_eq.symm
  rw [hsize] at hevict
  have hstore : b.store text =
      { b with
        pieces := rest ++ (if text.isEmpty then [] else [text])
        size := (String.join rest).utf8ByteSize + text.utf8ByteSize
        truncated := b.truncated || decide (b.maxSize < b.size + text.utf8ByteSize) } := by
    rw [store, hevict]
    by_cases hempty : text = ""
    · subst hempty
      simp
    · simp [hempty]
  rw [hstore]
  refine ⟨rfl, ⟨?_, hroom⟩, .whole hfits, rfl, evicted, rest, hpieces, rfl, fun _ => hleast,
    fun hlarge => absurd hlarge (Nat.not_lt.mpr hfits)⟩
  rw [contents, String.join_append, String.utf8ByteSize_append]
  by_cases hempty : text = ""
  · subst hempty
    rfl
  · simp [hempty, String.join_cons]

/-- **What appending does.** -/
theorem append_appends {b : OutputBuffer} (hb : Sized b) (text : String) :
    Appends b text (b.append text).1 (b.append text).2 := by
  rw [append]
  by_cases hlarge : b.maxSize < text.utf8ByteSize
  · rw [if_pos hlarge]
    have hending := longestEnd_ending hlarge
    -- the end is stored in a buffer that was emptied
    have hstored := store_appends (b := { b.clear with truncated := true })
      ⟨rfl, Nat.zero_le _⟩ hending.fits
    obtain ⟨evicted, rest, hpieces, hstored', -⟩ := hstored.pieces_eq
    obtain ⟨-, rfl⟩ := List.append_eq_nil_iff.mp hpieces.symm
    have hover : decide (b.maxSize < b.size + text.utf8ByteSize) = true :=
      decide_eq_true (by omega)
    refine ⟨hstored.maxSize_eq, hstored.sized, hending, ?_, b.pieces, [], ?_, hstored', ?_,
      fun _ => rfl⟩
    · rw [hstored.truncated_eq, hover, Bool.or_true, Bool.true_or]
    · rw [List.append_nil]
    · exact fun hfits => absurd hlarge (Nat.not_lt.mpr hfits)
  · rw [if_neg hlarge]
    exact store_appends hb (Nat.not_lt.mp hlarge)

/-! ### Runs -/

/-- What can be done to a buffer. -/
inductive Call where
  | append (text : String)
  | clear
deriving DecidableEq, Repr

/-- The buffer after a call. -/
def call (b : OutputBuffer) : Call → OutputBuffer
  | .append text => (b.append text).1
  | .clear => b.clear

/-- A new buffer after a sequence of calls. -/
def after (maxSize : Nat) (calls : List Call) : OutputBuffer := calls.foldl call (ofMaxSize maxSize)

/-- One more call is made on the buffer as it is then. -/
theorem after_concat (maxSize : Nat) (calls : List Call) (c : Call) :
    after maxSize (calls ++ [c]) = (after maxSize calls).call c := List.foldl_append ..

/-- The texts appended since the buffer was cleared last, as one. -/
def recent (calls : List Call) : String :=
  calls.foldl (fun recent c => match c with
    | .append text => recent ++ text
    | .clear => "") ""

@[simp] theorem recent_append (calls : List Call) (text : String) :
    recent (calls ++ [.append text]) = recent calls ++ text := List.foldl_append ..

@[simp] theorem recent_clear (calls : List Call) : recent (calls ++ [.clear]) = "" :=
  List.foldl_append ..

/-- At some append there was more than fits. -/
def Overran (maxSize : Nat) (calls : List Call) : Prop :=
  ∃ before text rest, calls = before ++ .append text :: rest ∧
    maxSize < (after maxSize before).size + text.utf8ByteSize

/-- There was too much before, or the last call appends too much. -/
theorem overran_concat_iff (maxSize : Nat) (calls : List Call) (c : Call) :
    Overran maxSize (calls ++ [c]) ↔ Overran maxSize calls ∨
      ∃ text, c = .append text ∧ maxSize < (after maxSize calls).size + text.utf8ByteSize := by
  constructor
  · rintro ⟨before, text, rest, heq, hover⟩
    -- the append that overran is the last call, or an earlier one
    rcases List.eq_nil_or_concat rest with rfl | ⟨rest, last, rfl⟩
    · obtain ⟨rfl, hlast⟩ := List.append_inj' heq rfl
      exact .inr ⟨text, (List.cons.inj hlast).1, hover⟩
    · rw [List.concat_eq_append, ← List.cons_append, ← List.append_assoc] at heq
      exact .inl ⟨before, text, rest, (List.append_inj' heq rfl).1, hover⟩
  · rintro (⟨before, text, rest, rfl, hover⟩ | ⟨text, rfl, hover⟩)
    · exact ⟨before, text, rest ++ [c], by simp, hover⟩
    · exact ⟨calls, text, [], rfl, hover⟩

/-- What is true of a buffer after these calls. -/
structure Holds (maxSize : Nat) (calls : List Call) (b : OutputBuffer) : Prop where
  maxSize_eq : b.maxSize = maxSize
  sized : Sized b
  isEnd : ∃ front, front ++ b.contents = recent calls
  truncated_iff : b.truncated = true ↔ Overran maxSize calls

/-- A new buffer holds all of the text that was appended, which is none. -/
theorem holds_ofMaxSize (maxSize : Nat) : Holds maxSize [] (ofMaxSize maxSize) where
  maxSize_eq := rfl
  sized := ⟨rfl, Nat.zero_le _⟩
  isEnd := ⟨"", rfl⟩
  truncated_iff := by
    refine iff_of_false Bool.false_ne_true ?_
    rintro ⟨before, text, rest, heq, -⟩
    exact List.cons_ne_nil _ _ (List.append_eq_nil_iff.mp heq.symm).2

/-- The text kept behind what is left of the text before. -/
theorem Appends.isEnd {b b' : OutputBuffer} {text kept all : String}
    (h : Appends b text b' kept) (hb : ∃ front, front ++ b.contents = all) :
    ∃ front, front ++ b'.contents = all ++ text := by
  obtain ⟨evicted, rest, hpieces, hpieces', -, hlarge⟩ := h.pieces_eq
  obtain ⟨front, rfl⟩ := hb
  obtain ⟨cut, hcut⟩ := h.ending.isEnd
  have hcontents' : b'.contents = String.join rest ++ kept := by
    rw [contents, hpieces', String.join_append]
    by_cases hempty : kept = ""
    · subst hempty
      rfl
    · simp [hempty, String.join_cons]
  rw [hcontents', contents, hpieces, String.join_append]
  by_cases hfits : text.utf8ByteSize ≤ b.maxSize
  · -- nothing is cut from a text that fits
    have hwhole := h.ending.longest "" text String.empty_append hfits
    obtain rfl : cut = "" := by
      rw [← String.utf8ByteSize_eq_zero_iff]
      rw [← hcut, String.utf8ByteSize_append] at hwhole
      omega
    rw [String.empty_append] at hcut
    subst hcut
    exact ⟨front ++ String.join evicted, by simp only [String.append_assoc]⟩
  · obtain rfl := hlarge (Nat.not_le.mp hfits)
    refine ⟨front ++ String.join evicted ++ cut, ?_⟩
    rw [← hcut]
    simp only [String.join_nil, String.empty_append, String.append_empty, String.append_assoc]

/-- **One call** keeps what is said of the buffer. -/
theorem Holds.call {maxSize : Nat} {calls : List Call}
    (h : Holds maxSize calls (after maxSize calls)) (c : Call) :
    Holds maxSize (calls ++ [c]) (after maxSize (calls ++ [c])) := by
  rw [after_concat]
  cases c with
  | append text =>
    have happends := append_appends h.sized text
    refine ⟨happends.maxSize_eq.trans h.maxSize_eq, happends.sized, ?_, ?_⟩
    · rw [recent_append]
      exact happends.isEnd h.isEnd
    · rw [overran_concat_iff, ← h.truncated_iff, OutputBuffer.call, happends.truncated_eq,
        h.maxSize_eq]
      simp
  | clear =>
    refine ⟨h.maxSize_eq, ⟨rfl, Nat.zero_le _⟩, ⟨"", (recent_clear calls).symm⟩, ?_⟩
    rw [overran_concat_iff, ← h.truncated_iff]
    simp [OutputBuffer.call, clear]

/-- **Any number of calls** keeps it. -/
theorem holds_after (maxSize : Nat) (calls : List Call) :
    Holds maxSize calls (after maxSize calls) := by
  induction calls using List.reverseRecOn with
  | nil => exact holds_ofMaxSize maxSize
  | append_singleton calls c ih => exact ih.call c

/-- **A buffer keeps the end of the text.**  Whatever was appended to a buffer of any bound, and
whenever it was cleared,

* its size is that of the text it holds, and at most the bound;
* this text is an end of all that was appended since it was cleared last;
* of the next text it keeps and tells the longest end that fits, behind what is left of the pieces
  before: all but the fewest that make room if the text itself fits, else none;
* and it is truncated exactly if at some append there was more than fits, so from then on. -/
theorem after_keeps_the_end (maxSize : Nat) (calls : List Call) :
    let b := after maxSize calls
    (b.maxSize = maxSize ∧ b.size = b.contents.utf8ByteSize ∧ b.size ≤ maxSize) ∧
      (∃ front, front ++ b.contents = recent calls) ∧
      (∀ text, Appends b text (b.append text).1 (b.append text).2) ∧
      (b.truncated = true ↔ Overran maxSize calls) ∧
      ∀ more, b.truncated = true → (after maxSize (calls ++ more)).truncated = true := by
  intro b
  have h := holds_after maxSize calls
  refine ⟨⟨h.maxSize_eq, h.sized.size_eq, h.maxSize_eq ▸ h.sized.size_le⟩, h.isEnd,
    append_appends h.sized, h.truncated_iff, fun more htruncated => ?_⟩
  obtain ⟨before, text, rest, rfl, hover⟩ := h.truncated_iff.mp htruncated
  refine (holds_after maxSize _).truncated_iff.mpr ⟨before, text, rest ++ more, ?_, hover⟩
  rw [List.append_assoc, List.cons_append]

example : (after 4 [.append "ab", .append "cd", .append "e"]).contents = "cde" := by decide

end VirtualTerminal.OutputBuffer
