import VirtualTerminal.Json.Basic

/-!
# Json — Nesting

Members by their names, values that stand within values, and how deep they stand.

* `get?_erase_of_ne`, `get?_put`, `get?_map`: what the members of an object are after each way to
  make others of them.
* `Within`: a value is another one or stands anywhere within it.
* `depth`: how many values stand within each other at most.  `depth_array_le_iff` and
  `depth_object_le_iff` say all about it.
-/

namespace VirtualTerminal.Json

/-! ### Members by their names -/

namespace Members

variable {ms : Members} {name other : String}

theorem get?_nil (name : String) : get? [] name = none := rfl

theorem get?_cons (m : String × Json) (ms : Members) (name : String) :
    get? (m :: ms) name = if m.1 = name then some m.2 else get? ms name := by
  rw [get?, List.find?_cons]
  by_cases h : m.1 = name
  · rw [if_pos h, beq_iff_eq.mpr h]
    rfl
  · rw [if_neg h, beq_eq_false_iff_ne.mpr h]
    rfl

/-- The first members come first in a lookup. -/
theorem get?_append (ms more : Members) (name : String) :
    get? (ms ++ more) name = (get? ms name).or (get? more name) := by
  rw [get?, get?, get?, List.find?_append, Option.map_or]

/-- A name is that of a member exactly if it has a value. -/
theorem any_eq_isSome (ms : Members) (name : String) :
    (ms.any fun m => m.1 == name) = (ms.get? name).isSome := by
  rw [get?, Option.isSome_map, List.isSome_find?]

/-- What is erased is not found any more. -/
theorem get?_erase_self (ms : Members) (name : String) : (ms.erase name).get? name = none := by
  rw [get?, Option.map_eq_none_iff, List.find?_eq_none]
  intro m hm
  have hne := (List.mem_filter.mp hm).2
  simpa using hne

/-- Erasing one name leaves the values of the others. -/
theorem get?_erase_of_ne (ms : Members) (h : name ≠ other) :
    (ms.erase other).get? name = ms.get? name := by
  induction ms with
  | nil => rfl
  | cons m ms ih =>
    rw [erase, List.filter_cons, get?_cons]
    split
    · rw [get?_cons, ← erase, ih]
    · next hm =>
      rw [if_neg, ← erase, ih]
      rintro rfl
      simp [h] at hm

/-- Members whose values change, but not their names. -/
theorem get?_map {f : String × Json → String × Json} (hf : ∀ m, (f m).1 = m.1) (ms : Members)
    (name : String) :
    get? (ms.map f) name = (ms.find? fun m => m.1 == name).map fun m => (f m).2 := by
  rw [get?, List.find?_map, Option.map_map]
  simp only [Function.comp_def, hf]

/-- What is put is found, and nothing else is changed. -/
theorem get?_put (ms : Members) (name : String) (value : Json) (other : String) :
    (ms.put name value).get? other = if name = other then some value else ms.get? other := by
  rw [put]
  split
  · next hany =>
    rw [any_eq_isSome] at hany
    rw [get?_map fun m => by split <;> simp_all]
    cases hfind : ms.find? fun m => m.1 == other with
    | none =>
      have hnone : ms.get? other = none := by rw [get?, hfind]; rfl
      rw [hnone, if_neg]
      · rfl
      · rintro rfl
        rw [hnone] at hany
        cases hany
    | some m =>
      have hsome : ms.get? other = some m.2 := by rw [get?, hfind]; rfl
      have hname : (m.1 == other) = true :=
        List.find?_some (p := fun m : String × Json => m.1 == other) hfind
      obtain rfl := beq_iff_eq.mp hname
      rw [hsome, Option.map_some]
      by_cases h : name = m.1
      · rw [if_pos h, if_pos (beq_iff_eq.mpr h.symm)]
      · rw [if_neg h, if_neg (mt beq_iff_eq.mp (Ne.symm h))]
  · next hnone =>
    rw [any_eq_isSome, Option.not_isSome_iff_eq_none] at hnone
    rw [get?_append, get?_cons, get?_nil]
    split
    · next h => rw [← h, hnone, Option.none_or]
    · rw [Option.or_none]

/-- A member is found under its name, or one before it is. -/
theorem get?_ne_none_of_mem {m : String × Json} (h : m ∈ ms) : ms.get? m.1 ≠ none := by
  rw [← Option.isSome_iff_ne_none, ← any_eq_isSome, List.any_eq_true]
  exact ⟨m, h, beq_iff_eq.mpr rfl⟩

end Members

/-! ### Values within values -/

/-- The value is another one, or stands anywhere within it. -/
inductive Within (x : Json) : Json → Prop
  | self : Within x x
  | item {items : List Json} {y : Json} (hy : y ∈ items) (h : Within x y) : Within x (.array items)
  | member {ms : Members} {m : String × Json} (hm : m ∈ ms) (h : Within x m.2) :
      Within x (.object ms)

/-- A value within another is within whatever that is within. -/
theorem Within.trans {x y z : Json} (hxy : Within x y) (hyz : Within y z) : Within x z := by
  induction hyz with
  | self => exact hxy
  | item hy _ ih => exact .item hy ih
  | member hm _ ih => exact .member hm ih

/-! ### Depth -/

mutual

/-- How many values stand within each other at most, the value itself included. -/
def depth : Json → Nat
  | .array items => itemsDepth items + 1
  | .object members => membersDepth members + 1
  | _ => 1

/-- The depth of the deepest item, or none. -/
def itemsDepth : List Json → Nat
  | [] => 0
  | item :: rest => max (depth item) (itemsDepth rest)

/-- The depth of the deepest member, or none. -/
def membersDepth : List (String × Json) → Nat
  | [] => 0
  | (_, value) :: rest => max (depth value) (membersDepth rest)

end

variable {n : Nat}

/-- Items are as deep as the deepest of them. -/
theorem itemsDepth_le_iff {items : List Json} :
    itemsDepth items ≤ n ↔ ∀ v ∈ items, v.depth ≤ n := by
  induction items with
  | nil => simp [itemsDepth]
  | cons item rest ih => rw [itemsDepth, Nat.max_le, ih, List.forall_mem_cons]

/-- Members are as deep as the deepest of their values. -/
theorem membersDepth_le_iff {ms : Members} : membersDepth ms ≤ n ↔ ∀ m ∈ ms, m.2.depth ≤ n := by
  induction ms with
  | nil => simp [membersDepth]
  | cons m rest ih => rw [membersDepth, Nat.max_le, ih, List.forall_mem_cons]

theorem depth_array_le_iff {items : List Json} :
    (Json.array items).depth ≤ n + 1 ↔ ∀ v ∈ items, v.depth ≤ n := by
  rw [depth, Nat.add_le_add_iff_right, itemsDepth_le_iff]

theorem depth_object_le_iff {ms : Members} :
    (Json.object ms).depth ≤ n + 1 ↔ ∀ m ∈ ms, m.2.depth ≤ n := by
  rw [depth, Nat.add_le_add_iff_right, membersDepth_le_iff]

theorem depth_pos (j : Json) : 1 ≤ j.depth := by
  cases j <;> simp [depth]

/-- An item is less deep than its array: recursion into the items ends. -/
theorem depth_lt_of_mem_items {items : List Json} {v : Json} (h : v ∈ items) :
    v.depth < (Json.array items).depth := by
  have hle := itemsDepth_le_iff.mp (Nat.le_refl (itemsDepth items)) v h
  rw [depth]
  omega

/-- A member's value is less deep than its object: recursion into the members ends. -/
theorem depth_lt_of_mem {ms : Members} {m : String × Json} (h : m ∈ ms) :
    m.2.depth < (Json.object ms).depth := by
  have hle := membersDepth_le_iff.mp (Nat.le_refl (membersDepth ms)) m h
  rw [depth]
  omega

end VirtualTerminal.Json
