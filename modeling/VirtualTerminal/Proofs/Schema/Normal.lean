import VirtualTerminal.Proofs.Json.Nesting
import VirtualTerminal.Schema.Draft07

/-!
# Schema — Normal forms

What normalizing a schema does, object by object.

* `Nullable`: members that offer a choice between an object and null.  `collapse_of_not_nullable`,
  `mem_collapse`: what collapsing does to members, and where the members come from that it leaves.
* `normalize_object`, `normalize_array`, `normalize_of_scalar`: the equations of normalizing.
* `Visits`: the values that normalizing comes to, which are some of those within the schema.
  `within_normalize_iff`: the objects of the result are the normal forms of the objects among them.
* `depth_normalize_le`: normalizing makes nothing deeper.
-/

namespace VirtualTerminal.Schema

open Json (Within)

variable {ms inner out : Json.Members} {j x : Json}

/-! ### Choices with null -/

/-- The members of the schema of null. -/
def onlyNull : Json.Members := [("type", .string "null")]

/-- The members offer two objects, just one of them the schema of null. -/
def Nullable (ms : Json.Members) : Prop :=
  ∃ a b, ms.get? "anyOf" = some (.array [.object a, .object b]) ∧ ¬ (a = onlyNull ↔ b = onlyNull)

/-- The members of the object that is offered besides null. -/
def offered? (ms : Json.Members) : Option Json.Members := (ms.get? "anyOf").bind besideNull?

/-- The schema of null has its type and nothing else. -/
theorem isBareNull_iff : isBareNull j = true ↔ j = .object onlyNull := by
  unfold isBareNull onlyNull
  split
  · simp
  · next hne =>
    constructor
    · intro h
      cases h
    · rintro rfl
      exact absurd rfl (hne "type" "null")

/-- Beside null stands one other object, before it or behind it. -/
theorem besideNull?_eq_some_iff : besideNull? j = some inner ↔ inner ≠ onlyNull ∧
    (j = .array [.object inner, .object onlyNull] ∨
      j = .array [.object onlyNull, .object inner]) := by
  have hbare : ∀ ms : Json.Members, isBareNull (.object ms) = false ↔ ms ≠ onlyNull := by
    intro ms
    rw [← Bool.not_eq_true, isBareNull_iff, Json.object.injEq]
  constructor
  · intro h
    unfold besideNull? at h
    split at h
    · next a b =>
      split at h
      · next ha hb =>
        cases a <;> cases h
        exact ⟨(hbare _).mp ha, .inl (by rw [isBareNull_iff.mp hb])⟩
      · next ha hb =>
        cases b <;> cases h
        exact ⟨(hbare _).mp hb, .inr (by rw [isBareNull_iff.mp ha])⟩
      · cases h
    · cases h
  · rintro ⟨hne, rfl | rfl⟩
    · simp only [besideNull?, (hbare _).mpr hne, isBareNull_iff.mpr]
      rfl
    · simp only [besideNull?, (hbare _).mpr hne, isBareNull_iff.mpr]
      rfl

/-- What members offer besides null, told by their alternatives. -/
theorem offered?_eq_some_iff : offered? ms = some inner ↔ inner ≠ onlyNull ∧
    (ms.get? "anyOf" = some (.array [.object inner, .object onlyNull]) ∨
      ms.get? "anyOf" = some (.array [.object onlyNull, .object inner])) := by
  rw [offered?, Option.bind_eq_some_iff]
  simp only [besideNull?_eq_some_iff]
  constructor
  · rintro ⟨_, h, hne, rfl | rfl⟩
    · exact ⟨hne, .inl h⟩
    · exact ⟨hne, .inr h⟩
  · rintro ⟨hne, h | h⟩
    · exact ⟨_, h, hne, .inl rfl⟩
    · exact ⟨_, h, hne, .inr rfl⟩

/-- Members that offer a choice with null offer some object in it. -/
theorem nullable_iff : Nullable ms ↔ ∃ inner, offered? ms = some inner := by
  simp only [offered?_eq_some_iff]
  constructor
  · rintro ⟨a, b, h, hdiffer⟩
    by_cases ha : a = onlyNull
    · subst ha
      have hb : b ≠ onlyNull := fun hb => hdiffer (iff_of_true rfl hb)
      exact ⟨b, hb, .inr h⟩
    · have hb : b = onlyNull := Classical.byContradiction fun hb => hdiffer (iff_of_false ha hb)
      exact ⟨a, ha, .inl (hb ▸ h)⟩
  · rintro ⟨inner, hne, h | h⟩
    · exact ⟨_, _, h, fun hiff => hne (hiff.mpr rfl)⟩
    · exact ⟨_, _, h, fun hiff => hne (hiff.mp rfl)⟩

theorem offered?_eq_none (h : ¬ Nullable ms) : offered? ms = none := by
  cases hoffered : offered? ms with
  | none => rfl
  | some inner => exact absurd (nullable_iff.mpr ⟨inner, hoffered⟩) h

/-- The object that is offered stands among the alternatives. -/
theorem exists_alternatives (h : offered? ms = some inner) :
    ∃ items, ms.get? "anyOf" = some (.array items) ∧ .object inner ∈ items := by
  obtain ⟨-, h | h⟩ := offered?_eq_some_iff.mp h
  · exact ⟨_, h, by simp⟩
  · exact ⟨_, h, by simp⟩

/-! ### Collapsing -/

/-- Without such a choice there is nothing to collapse. -/
theorem collapse_of_not_nullable (h : ¬ Nullable ms) : collapse ms = ms := by
  have hnone := offered?_eq_none h
  rw [offered?] at hnone
  rw [collapse, hnone]

/-- The members of the object that is offered take the place of the choice. -/
theorem collapse_of_offered (h : offered? ms = some inner) :
    collapse ms = inner.foldl (fun out m => out.put m.1 m.2) (ms.erase "anyOf") := by
  rw [offered?] at h
  rw [collapse, h]

/-- A member that collapsing leaves was there before, and then it is no choice, or it is one of the
object that is offered. -/
theorem mem_collapse {m : String × Json} (h : m ∈ collapse ms) :
    m ∈ ms ∧ (m.1 = "anyOf" → ¬ Nullable ms) ∨ ∃ inner, offered? ms = some inner ∧ m ∈ inner := by
  by_cases hnullable : Nullable ms
  · obtain ⟨inner, hoffered⟩ := nullable_iff.mp hnullable
    rw [collapse_of_offered hoffered] at h
    rcases mem_foldl_put h with h | h
    · obtain ⟨hms, hne⟩ := List.mem_filter.mp h
      refine .inl ⟨hms, fun heq => ?_⟩
      rw [heq] at hne
      cases hne
    · exact .inr ⟨inner, hoffered, h⟩
  · rw [collapse_of_not_nullable hnullable] at h
    exact .inl ⟨h, fun _ => hnullable⟩

/-- A member's value is within the object. -/
theorem within_of_get? {name : String} (h : ms.get? name = some j) : Within j (.object ms) :=
  .member (Json.Members.mem_of_get? h) .self

/-- A member's value is less deep than the object. -/
theorem depth_lt_of_get? {name : String} (h : ms.get? name = some j) :
    j.depth < (Json.object ms).depth :=
  Json.depth_lt_of_mem (Json.Members.mem_of_get? h)

/-- The object that is offered stands within the object that offers it. -/
theorem within_of_offered (h : offered? ms = some inner) : Within (.object inner) (.object ms) := by
  obtain ⟨items, hget, hmem⟩ := exists_alternatives h
  exact (Within.item hmem .self).trans (within_of_get? hget)

/-- Collapsing brings nothing in from outside. -/
theorem within_of_mem_collapse {m : String × Json} (h : m ∈ collapse ms) :
    Within m.2 (.object ms) := by
  rcases mem_collapse h with ⟨h, -⟩ | ⟨inner, hoffered, h⟩
  · exact .member h .self
  · exact (Within.member h .self).trans (within_of_offered hoffered)

/-- After collapsing, too, the members' values are less deep than the object was. -/
theorem depth_lt_of_mem_collapse {m : String × Json} (h : m ∈ collapse ms) :
    m.2.depth < (Json.object ms).depth := by
  rcases mem_collapse h with ⟨h, -⟩ | ⟨inner, hoffered, h⟩
  · exact Json.depth_lt_of_mem h
  · obtain ⟨items, hget, hmem⟩ := exists_alternatives hoffered
    have hinner := Json.depth_lt_of_mem h
    have hitem := Json.depth_lt_of_mem_items hmem
    have hall := depth_lt_of_get? hget
    omega

/-! ### Redirecting -/

theorem redirectMember_fst (m : String × Json) : (redirectMember m).1 = m.1 := by
  unfold redirectMember
  split
  · split <;> rfl
  · rfl

/-- A reference is redirected. -/
theorem redirectMember_reference (s : String) :
    redirectMember ("$ref", .string s) = ("$ref", .string (redirect s)) := rfl

/-- A member is a reference, or it is left alone. -/
theorem redirectMember_cases (m : String × Json) :
    (∃ s, m = ("$ref", .string s)) ∨ redirectMember m = m := by
  obtain ⟨name, value⟩ := m
  unfold redirectMember
  split
  · next s heq =>
    split
    · next hname => exact .inl ⟨s, by rw [← hname, ← heq]⟩
    · exact .inr rfl
  · exact .inr rfl

/-- Only a member named `$ref` is a reference. -/
theorem redirectMember_of_ne {m : String × Json} (h : m.1 ≠ "$ref") : redirectMember m = m := by
  rcases redirectMember_cases m with ⟨s, rfl⟩ | h'
  · exact absurd rfl h
  · exact h'

/-! ### Normalizing -/

/-- A member with the normal form of its value. -/
def normalizeMember (m : String × Json) : String × Json := redirectMember (m.1, normalize m.2)

/-- An object is collapsed, and then its members are normalized. -/
theorem normalize_object (ms : Json.Members) :
    normalize (.object ms) = .object ((collapse ms).map normalizeMember) := by
  rw [normalize]
  refine congrArg _ ?_
  conv => rhs; rw [← List.attach_map_subtype_val (collapse ms), List.map_map]
  rfl

theorem normalize_array (items : List Json) :
    normalize (.array items) = .array (items.map normalize) := by
  rw [normalize]
  refine congrArg _ ?_
  conv => rhs; rw [← List.attach_map_subtype_val items, List.map_map]
  rfl

/-- Neither an object nor an array. -/
def IsScalar : Json → Prop
  | .array _ | .object _ => False
  | _ => True

/-- There is nothing to normalize in a scalar. -/
theorem normalize_of_scalar (h : IsScalar j) : normalize j = j := by
  cases j with
  | array | object => exact h.elim
  | null | bool | int | float | string => rw [normalize] <;> exact fun _ => Json.noConfusion

theorem normalize_string (s : String) : normalize (.string s) = .string s :=
  normalize_of_scalar trivial

/-- Only a string has a string as its normal form. -/
theorem eq_string_of_normalize {s : String} (h : normalize j = .string s) : j = .string s := by
  cases j with
  | array items =>
    rw [normalize_array] at h
    cases h
  | object ms =>
    rw [normalize_object] at h
    cases h
  | null | bool | int | float | string => exact (normalize_of_scalar (by trivial)).symm.trans h

/-- Only an object has an object as its normal form. -/
theorem eq_object_of_normalize (h : normalize j = .object out) : ∃ ms, j = .object ms := by
  cases j with
  | array items =>
    rw [normalize_array] at h
    cases h
  | object ms => exact ⟨ms, rfl⟩
  | null | bool | int | float | string => cases (normalize_of_scalar (by trivial)).symm.trans h

/-- **Induction along the calls** that normalizing makes. -/
theorem normalize_induction {P : Json → Prop}
    (object : ∀ ms, (∀ m ∈ collapse ms, P m.2) → P (.object ms))
    (array : ∀ items, (∀ v ∈ items, P v) → P (.array items)) (scalar : ∀ j, IsScalar j → P j)
    (j : Json) : P j := by
  induction j using normalize.induct with
  | case1 ms ih => exact object ms fun m hm => ih ⟨m, hm⟩
  | case2 items ih => exact array items fun v hv => ih ⟨v, hv⟩
  | case3 j hobject harray =>
    refine scalar j ?_
    cases j with
    | array items => exact harray items rfl
    | object ms => exact hobject ms rfl
    | null | bool | int | float | string => trivial

/-- Members keep their names. -/
theorem normalizeMember_fst (m : String × Json) : (normalizeMember m).1 = m.1 :=
  redirectMember_fst _

/-- A member is a reference, or its value is the normal form. -/
theorem normalizeMember_cases (m : String × Json) :
    (∃ s, m = ("$ref", .string s) ∧ normalizeMember m = ("$ref", .string (redirect s))) ∨
      normalizeMember m = (m.1, normalize m.2) := by
  rcases redirectMember_cases (m.1, normalize m.2) with ⟨s, heq⟩ | h
  · obtain ⟨hname, hvalue⟩ := Prod.mk.inj heq
    refine .inl ⟨s, Prod.ext hname (eq_string_of_normalize hvalue), ?_⟩
    rw [normalizeMember, heq, redirectMember_reference]
  · exact .inr h

/-- A member that is no reference has its value normalized. -/
theorem normalizeMember_of_ne {m : String × Json} (h : m.1 ≠ "$ref") :
    normalizeMember m = (m.1, normalize m.2) := redirectMember_of_ne h

/-- What stands under a name in a normal form, unless it may be a reference. -/
theorem get?_normalized {name : String} (h : name ≠ "$ref") (ms : Json.Members) :
    Json.Members.get? (ms.map normalizeMember) name = (ms.get? name).map normalize := by
  rw [Json.Members.get?_map normalizeMember_fst, Json.Members.get?, Option.map_map]
  cases hfind : ms.find? fun m => m.1 == name with
  | none => rfl
  | some m =>
    have hname : (m.1 == name) = true :=
      List.find?_some (p := fun m : String × Json => m.1 == name) hfind
    rw [Option.map_some, normalizeMember_of_ne fun hm => h (beq_iff_eq.mp hname ▸ hm)]
    rfl

/-! ### The values that normalizing comes to -/

/-- Normalizing a value comes to another one. -/
inductive Visits : Json → Json → Prop
  | here (j : Json) : Visits j j
  | item {items : List Json} {v x : Json} (hv : v ∈ items) (h : Visits v x) :
      Visits (.array items) x
  | member {ms : Json.Members} {m : String × Json} {x : Json} (hm : m ∈ collapse ms)
      (h : Visits m.2 x) : Visits (.object ms) x

/-- Normalizing comes to nothing outside of the value. -/
theorem Visits.within (h : Visits j x) : Within x j := by
  induction h with
  | here => exact .self
  | item hv _ ih => exact .item hv ih
  | member hm _ ih => exact ih.trans (within_of_mem_collapse hm)

/-- Redirecting a reference adds no objects. -/
theorem within_normalizeMember {m : String × Json} :
    Within (.object out) (normalizeMember m).2 ↔ Within (.object out) (normalize m.2) := by
  rcases normalizeMember_cases m with ⟨s, rfl, h⟩ | h
  · rw [h, normalize_string]
    constructor <;>
    · intro h
      cases h
  · rw [h]

/-- **The objects of a normal form** are the normal forms of the objects that normalizing comes
to. -/
theorem within_normalize_iff : Within (.object out) (normalize j) ↔
    ∃ ms, Visits j (.object ms) ∧ out = (collapse ms).map normalizeMember := by
  constructor
  · intro h
    induction j using normalize_induction with
    | object ms ih =>
      rw [normalize_object] at h
      cases h with
      | self => exact ⟨ms, .here _, rfl⟩
      | member ho h =>
        obtain ⟨m, hm, rfl⟩ := List.mem_map.mp ho
        obtain ⟨found, hvisits, hout⟩ := ih m hm (within_normalizeMember.mp h)
        exact ⟨found, .member hm hvisits, hout⟩
    | array items ih =>
      rw [normalize_array] at h
      cases h with
      | item hy h =>
        obtain ⟨v, hv, rfl⟩ := List.mem_map.mp hy
        obtain ⟨found, hvisits, hout⟩ := ih v hv h
        exact ⟨found, .item hv hvisits, hout⟩
    | scalar j hj =>
      rw [normalize_of_scalar hj] at h
      cases h with
      | self | item | member => exact hj.elim
  · rintro ⟨ms, hvisits, rfl⟩
    generalize hfound : Json.object ms = found at hvisits
    induction hvisits with
    | here =>
      subst hfound
      rw [normalize_object]
      exact .self
    | item hv _ ih =>
      rw [normalize_array]
      exact .item (List.mem_map_of_mem hv) (ih hfound)
    | member hm _ ih =>
      rw [normalize_object]
      exact .member (List.mem_map_of_mem hm) (within_normalizeMember.mpr (ih hfound))

/-! ### Depth -/

/-- A member is as deep as the normal form of its value. -/
theorem depth_normalizeMember (m : String × Json) :
    (normalizeMember m).2.depth = (normalize m.2).depth := by
  rcases normalizeMember_cases m with ⟨s, rfl, h⟩ | h
  · rw [h, normalize_string]
    rfl
  · rw [h]

/-- **Normalizing makes nothing deeper.** -/
theorem depth_normalize_le (j : Json) : (normalize j).depth ≤ j.depth := by
  induction j using normalize_induction with
  | object ms ih =>
    rw [normalize_object]
    obtain ⟨n, hn⟩ := Nat.exists_eq_add_one.mpr (Json.depth_pos (.object ms))
    rw [hn, Json.depth_object_le_iff]
    intro o ho
    obtain ⟨m, hm, rfl⟩ := List.mem_map.mp ho
    have hle := ih m hm
    have hlt := depth_lt_of_mem_collapse hm
    rw [depth_normalizeMember]
    omega
  | array items ih =>
    rw [normalize_array]
    obtain ⟨n, hn⟩ := Nat.exists_eq_add_one.mpr (Json.depth_pos (.array items))
    rw [hn, Json.depth_array_le_iff]
    intro o ho
    obtain ⟨v, hv, rfl⟩ := List.mem_map.mp ho
    have hle := ih v hv
    have hlt := Json.depth_lt_of_mem_items hv
    omega
  | scalar j hj => exact Nat.le_of_eq (congrArg Json.depth (normalize_of_scalar hj))

/-! ### The root -/

/-- The schema with the definitions of its root moved. -/
def moved : Json → Json
  | .object ms => .object (moveDefinitions ms)
  | j => j

/-- The conversion moves the definitions of the root, and then it normalizes. -/
theorem draft07_eq (j : Json) : draft07 j = normalize (moved j) := by
  cases j <;> rfl

/-- Definitions are moved to their new name, in the place of what may be there. -/
theorem moveDefinitions_of_get? {definitions : Json} (h : ms.get? "$defs" = some definitions) :
    moveDefinitions ms = (ms.erase "$defs").put "definitions" definitions := by
  rw [moveDefinitions, h]

theorem moveDefinitions_of_none (h : ms.get? "$defs" = none) : moveDefinitions ms = ms := by
  rw [moveDefinitions, h]

/-- A member of the root was there before, or it is the definitions. -/
theorem mem_moveDefinitions {m : String × Json} (h : m ∈ moveDefinitions ms) :
    m ∈ ms ∨
      ∃ definitions, ms.get? "$defs" = some definitions ∧ m = ("definitions", definitions) := by
  cases hget : ms.get? "$defs" with
  | none =>
    rw [moveDefinitions_of_none hget] at h
    exact .inl h
  | some definitions =>
    rw [moveDefinitions_of_get? hget] at h
    rcases mem_put h with h | h
    · exact .inl (List.mem_filter.mp h).1
    · exact .inr ⟨definitions, rfl, h⟩

/-- Nothing is left under the old name of the definitions. -/
theorem get?_defs_moveDefinitions (ms : Json.Members) :
    (moveDefinitions ms).get? "$defs" = none := by
  cases hget : ms.get? "$defs" with
  | none => rw [moveDefinitions_of_none hget, hget]
  | some definitions =>
    rw [moveDefinitions_of_get? hget, Json.Members.get?_put, if_neg (by decide),
      Json.Members.get?_erase_self]

theorem get?_definitions_moveDefinitions {definitions : Json}
    (h : ms.get? "$defs" = some definitions) :
    (moveDefinitions ms).get? "definitions" = some definitions := by
  rw [moveDefinitions_of_get? h, Json.Members.get?_put, if_pos rfl]

/-- The other members of the root stay where they are. -/
theorem get?_moveDefinitions {name : String} (hold : name ≠ "$defs") (hnew : name ≠ "definitions")
    (ms : Json.Members) : (moveDefinitions ms).get? name = ms.get? name := by
  cases hget : ms.get? "$defs" with
  | none => rw [moveDefinitions_of_none hget]
  | some definitions =>
    rw [moveDefinitions_of_get? hget, Json.Members.get?_put, if_neg hnew.symm,
      Json.Members.get?_erase_of_ne _ hold]

/-- Each value that a member of the root has then stood in the schema. -/
theorem exists_mem_of_moveDefinitions {m : String × Json} (h : m ∈ moveDefinitions ms) :
    ∃ o ∈ ms, o.2 = m.2 := by
  rcases mem_moveDefinitions h with h | ⟨definitions, hget, rfl⟩
  · exact ⟨m, h, rfl⟩
  · exact ⟨_, Json.Members.mem_of_get? hget, rfl⟩

/-- Moving the definitions makes nothing deeper. -/
theorem depth_moved_le (j : Json) : (moved j).depth ≤ j.depth := by
  cases j with
  | object ms =>
    obtain ⟨n, hn⟩ := Nat.exists_eq_add_one.mpr (Json.depth_pos (.object ms))
    rw [moved, hn, Json.depth_object_le_iff]
    intro m hm
    obtain ⟨o, ho, hvalue⟩ := exists_mem_of_moveDefinitions hm
    have hlt := Json.depth_lt_of_mem ho
    rw [← hvalue]
    omega
  | null | bool | int | float | string | array => exact Nat.le_refl _

end VirtualTerminal.Schema
