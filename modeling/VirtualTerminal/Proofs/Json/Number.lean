import Mathlib.Algebra.Group.Int.Defs
import Mathlib.Data.List.TakeWhile
import VirtualTerminal.Json.Reader
import VirtualTerminal.Json.Writer

/-!
# Json — Number

The numerals that are written for integers are read as these integers, within the range of 64 bits
(`read?_writeInt`).  Whatever is written for a number, an integer or a double, is made of digits,
letters, points and signs (`isMark_of_mem_writeFloat`).
-/

namespace VirtualTerminal.Json.Numeral

/-! ### Digits -/

/-- The value of a digit, of whatever else zero or more. -/
def value (c : Char) : Nat := c.toNat - 48

theorem digit?_of_isDigit {c : Char} (h : c.isDigit = true) : digit? c = some (value c) := by
  obtain ⟨hlow, hhigh⟩ := Char.isDigit_iff_toNat.mp h
  exact if_pos ⟨hlow, hhigh⟩

theorem isDigit_of_mem_digits {n : Nat} {c : Char} (h : c ∈ digits n) : c.isDigit = true :=
  Nat.isDigit_of_mem_toDigits (by decide) (by decide) h

theorem digits_ne_nil (n : Nat) : digits n ≠ [] := Nat.toDigits_ne_nil

/-- The digits of a number are all split off. -/
theorem splitDigits_digits (n : Nat) : splitDigits (digits n) = ((digits n).map value, []) := by
  have hsome : ∀ c ∈ digits n, (digit? c).isSome = true := fun c hc => by
    rw [digit?_of_isDigit (isDigit_of_mem_digits hc), Option.isSome_some]
  rw [splitDigits, List.takeWhile_eq_self_iff.mpr hsome, List.dropWhile_eq_nil_iff.mpr hsome]
  refine congrArg (·, []) ?_
  have hall : ∀ cs : List Char, (∀ c ∈ cs, c.isDigit = true) →
      cs.filterMap digit? = cs.map value := by
    intro cs hcs
    induction cs with
    | nil => rfl
    | cons c cs ih =>
      obtain ⟨hc, hrest⟩ := List.forall_mem_cons.mp hcs
      rw [List.filterMap_cons_some (digit?_of_isDigit hc), ih hrest, List.map_cons]
  exact hall _ fun c => isDigit_of_mem_digits

/-- A number is the value of its digits. -/
theorem ofDigits_digits (n : Nat) : ofDigits ((digits n).map value) = n := by
  have hread : Nat.ofDigitChars 10 (digits n) 0 = n := Nat.ofDigitChars_ten_toDigits
  rw [Nat.ofDigitChars_eq_foldl] at hread
  rw [ofDigits, List.foldl_map]
  simp only [Nat.mul_comm 10] at hread
  exact hread

/-- The first digit of a positive number is not zero. -/
theorem head?_digits {n : Nat} (h : 0 < n) : ((digits n).map value).head? ≠ some 0 := by
  induction n using Nat.strongRecOn with
  | _ n ih =>
    rcases Nat.lt_or_ge n 10 with hlt | hge
    · have hdigit : ∀ d < 10, 0 < d → value d.digitChar ≠ 0 := by decide
      rw [digits, Nat.toDigits_of_lt_base hlt, List.map_singleton, List.head?_singleton]
      exact fun hzero => hdigit n hlt h (Option.some.inj hzero)
    · obtain ⟨d, ds, hds⟩ := List.exists_cons_of_ne_nil (digits_ne_nil (n / 10))
      have hfirst := ih (n / 10) (by omega) (by omega)
      rw [hds] at hfirst
      rw [digits, Nat.toDigits_of_base_le (by decide) hge]
      show ((digits (n / 10) ++ _).map value).head? ≠ some 0
      rw [hds]
      exact hfirst

/-- No written number has a zero before its other digits. -/
theorem not_padded (n : Nat) :
    (((digits n).map value).isEmpty ||
      (((digits n).map value).head? == some 0 && 1 < ((digits n).map value).length)) = false := by
  rw [Bool.or_eq_false_iff, List.isEmpty_eq_false_iff]
  refine ⟨fun hnil => digits_ne_nil n (List.map_eq_nil_iff.mp hnil), ?_⟩
  rcases Nat.eq_zero_or_pos n with rfl | hpos
  · decide
  · rw [beq_eq_false_iff_ne.mpr (head?_digits hpos), Bool.false_and]

/-! ### Integers -/

/-- Without a sign a number up to 64 bits is an integer. -/
theorem read?_unsigned {n : Nat} (h : n < UInt64.size) : read? (digits n) = some (.int n) := by
  have hsign : ∀ cs, digits n ≠ '-' :: cs := by
    intro cs hcs
    exact absurd (isDigit_of_mem_digits (hcs ▸ List.mem_cons_self)) (by decide)
  -- the match on a sign falls through by `hsign`
  simp only [read?, splitDigits_digits, not_padded, ofDigits_digits, h]
  simp

/-- With a sign it is one down to `-2 ^ 63`. -/
theorem read?_negative {n : Nat} (hpos : 0 < n) (h : n ≤ UInt64.size / 2) :
    read? ('-' :: digits n) = some (.int (-n)) := by
  simp only [read?, splitDigits_digits, not_padded, ofDigits_digits, h]
  simp [Nat.ne_of_gt hpos]

/-- **An integer of 64 bits**, with a sign or without, is read as it was written. -/
theorem read?_writeInt {n : Int} (hlow : -2 ^ 63 ≤ n) (hhigh : n < 2 ^ 64) :
    read? (writeInt n) = some (.int n) := by
  rw [writeInt]
  split
  · next hneg =>
    rw [read?_negative (by omega) (by simp only [UInt64.size]; omega)]
    exact congrArg (fun k => some (Numeral.int k)) (by omega)
  · rw [read?_unsigned (by simp only [UInt64.size]; omega)]
    exact congrArg (fun k => some (Numeral.int k)) (by omega)

/-! ### What numerals are made of -/

/-- A character that numerals and the words of JSON are made of. -/
def isMark (c : Char) : Bool := c.isAlphanum || c == '-' || c == '.'

theorem isMark_of_isDigit {c : Char} (h : c.isDigit = true) : isMark c = true := by
  rw [isMark, Char.isAlphanum, h, Bool.or_true, Bool.true_or, Bool.true_or]

/-- No mark is a control character. -/
theorem le_of_isMark {c : Char} (h : isMark c = true) : 0x20 ≤ c.toNat := by
  have hcontrol : ∀ n < 0x20, isMark (Char.ofNat n) = false := by decide
  by_contra hlt
  have hfalse := hcontrol c.toNat (Nat.lt_of_not_le hlt)
  rw [Char.ofNat_toNat, h] at hfalse
  cases hfalse

theorem isMark_of_mem_digits {n : Nat} : ∀ c ∈ digits n, isMark c = true := fun _ h =>
  isMark_of_isDigit (isDigit_of_mem_digits h)

/-- Integers are written in digits and a sign. -/
theorem isMark_of_mem_writeInt {n : Int} : ∀ c ∈ writeInt n, isMark c = true := by
  rw [writeInt]
  split
  · exact List.forall_mem_cons.mpr ⟨rfl, isMark_of_mem_digits⟩
  · exact isMark_of_mem_digits

/-- Doubles are written in digits, a point, an exponent and signs. -/
theorem isMark_of_mem_layout {d : Decimal} : ∀ c ∈ layout d, isMark c = true := by
  have hdigits : ∀ c ∈ digits d.digits, isMark c = true := isMark_of_mem_digits
  have htake : ∀ k, ∀ c ∈ (digits d.digits).take k, isMark c = true := fun k c h =>
    hdigits c (List.mem_of_mem_take h)
  have hdrop : ∀ k, ∀ c ∈ (digits d.digits).drop k, isMark c = true := fun k c h =>
    hdigits c (List.mem_of_mem_drop h)
  have hzeros : ∀ k, ∀ c ∈ List.replicate k '0', isMark c = true := fun k c h => by
    rw [List.eq_of_mem_replicate h]
    rfl
  rw [layout]
  split
  · refine List.forall_mem_append.mpr ⟨List.forall_mem_append.mpr ⟨hdigits, hzeros _⟩, ?_⟩
    exact List.all_eq_true.mp rfl
  split
  · exact List.forall_mem_append.mpr ⟨htake _, List.forall_mem_cons.mpr ⟨rfl, hdrop _⟩⟩
  split
  · refine List.forall_mem_cons.mpr ⟨rfl, List.forall_mem_cons.mpr ⟨rfl, ?_⟩⟩
    exact List.forall_mem_append.mpr ⟨hzeros _, hdigits⟩
  · refine List.forall_mem_append.mpr ⟨List.forall_mem_append.mpr ⟨htake _, ?_⟩,
      List.forall_mem_cons.mpr ⟨rfl, isMark_of_mem_writeInt⟩⟩
    split
    · exact fun c h => absurd h List.not_mem_nil
    · exact List.forall_mem_cons.mpr ⟨rfl, hdrop _⟩

/-- **A double is written with marks only**, whichever it is. -/
theorem isMark_of_mem_writeFloat {x : Float} : ∀ c ∈ writeFloat x, isMark c = true := by
  rw [writeFloat]
  split
  · exact List.all_eq_true.mp rfl
  · refine List.forall_mem_append.mpr ⟨?_, ?_⟩
    · split <;> exact List.all_eq_true.mp rfl
    · split
      · exact List.all_eq_true.mp rfl
      · exact isMark_of_mem_layout

end VirtualTerminal.Json.Numeral
