import VirtualTerminal.Json.Basic

/-!
# Schema — draft 07

Turning a JSON schema of the draft 2020-12 into one of draft 07: definitions move from `$defs` to
`definitions` and references follow them, and a choice between a schema and null becomes that
schema.  Only the root's definitions move; everywhere else `$defs` is a name like any other.
-/

namespace VirtualTerminal.Schema

/-- The value is the schema of null and says nothing else. -/
def isBareNull : Json → Bool
  | .object [(name, .string type)] => name == "type" && type == "null"
  | _ => false

/-- The members of the schema that a list of two alternatives offers besides null. -/
def besideNull? : Json → Option Json.Members
  | .array [a, b] =>
    match isBareNull a, isBareNull b with
    | false, true => a.object?
    | true, false => b.object?
    | _, _ => none
  | _ => none

/-- Replaces a choice between a schema and null by the members of that schema, which win over
members of the same name. -/
def collapse (ms : Json.Members) : Json.Members :=
  match (ms.get? "anyOf").bind besideNull? with
  | some inner => inner.foldl (fun out m => out.put m.1 m.2) (ms.erase "anyOf")
  | none => ms

/-- The reference with the new place of definitions. -/
def redirect (reference : String) : String :=
  match "#/$defs/".toList.isPrefixOf? reference.toList with
  | some target => String.ofList ("#/definitions/".toList ++ target)
  | none => reference

/-- Redirects the value of a member, if it is a reference. -/
def redirectMember (m : String × Json) : String × Json :=
  match m.2 with
  | .string reference => if m.1 = "$ref" then (m.1, .string (redirect reference)) else m
  | _ => m

/-- Moves the definitions of the root. -/
def moveDefinitions (ms : Json.Members) : Json.Members :=
  match ms.get? "$defs" with
  | some definitions => (ms.erase "$defs").put "definitions" definitions
  | none => ms

/-! ### Sizes

Collapsing makes an object smaller, which is why normalizing ends. -/

theorem mem_put {ms : Json.Members} {name : String} {v : Json} {m : String × Json}
    (h : m ∈ ms.put name v) : m ∈ ms ∨ m = (name, v) := by
  unfold Json.Members.put at h
  split at h
  · obtain ⟨o, ho, rfl⟩ := List.mem_map.1 h
    split
    · exact .inr rfl
    · exact .inl ho
  · rcases List.mem_append.1 h with h | h
    · exact .inl h
    · exact .inr (List.mem_singleton.1 h)

theorem mem_foldl_put {inner ms : Json.Members} {m : String × Json}
    (h : m ∈ inner.foldl (fun out m => out.put m.1 m.2) ms) : m ∈ ms ∨ m ∈ inner := by
  induction inner generalizing ms with
  | nil => exact .inl h
  | cons n inner ih =>
    rcases ih h with h | h
    · rcases mem_put h with h | rfl
      · exact .inl h
      · exact .inr List.mem_cons_self
    · exact .inr (List.mem_cons_of_mem n h)

theorem sizeOf_lt_of_mem {ms : Json.Members} {m : String × Json} (h : m ∈ ms) :
    sizeOf m.2 < sizeOf (Json.object ms) := by
  have h₁ := List.sizeOf_lt_of_mem h
  have h₂ : sizeOf m.2 < sizeOf m := by cases m; simp only [Prod.mk.sizeOf_spec]; omega
  simp only [Json.object.sizeOf_spec]
  omega

theorem sizeOf_lt_of_mem_items {items : List Json} {v : Json} (h : v ∈ items) :
    sizeOf v < sizeOf (Json.array items) := by
  have := List.sizeOf_lt_of_mem h
  simp only [Json.array.sizeOf_spec]
  omega

theorem sizeOf_besideNull? {v : Json} {inner : Json.Members} (h : besideNull? v = some inner) :
    sizeOf (Json.object inner) < sizeOf v := by
  unfold besideNull? at h
  split at h
  · rename_i a b
    split at h
    · cases a <;> simp_all [Json.object?]
      omega
    · cases b <;> simp_all [Json.object?]
      omega
    · simp at h
  · simp at h

theorem sizeOf_lt_of_mem_collapse {ms : Json.Members} {m : String × Json} (h : m ∈ collapse ms) :
    sizeOf m.2 < sizeOf (Json.object ms) := by
  unfold collapse at h
  split at h
  · rename_i inner he
    obtain ⟨v, hv, hi⟩ := Option.bind_eq_some_iff.1 he
    rcases mem_foldl_put h with h | h
    · exact sizeOf_lt_of_mem (List.mem_filter.1 h).1
    · have h₁ := sizeOf_lt_of_mem h
      have h₂ := sizeOf_besideNull? hi
      have h₃ : sizeOf v < sizeOf (Json.object ms) :=
        sizeOf_lt_of_mem (Json.Members.mem_of_get? hv)
      omega
  · exact sizeOf_lt_of_mem h

/-! ### Normalizing -/

/-- Collapses choices with null and redirects references, from the outside inwards.  A choice is
collapsed once: one that the collapse brings to light stays. -/
def normalize : Json → Json
  | .object ms =>
    .object ((collapse ms).attach.map fun m =>
      have := sizeOf_lt_of_mem_collapse m.2
      let value := normalize m.1.2
      redirectMember (m.1.1, value))
  | .array items =>
    .array (items.attach.map fun v =>
      have := sizeOf_lt_of_mem_items v.2
      normalize v.1)
  | j => j
termination_by j => sizeOf j
decreasing_by all_goals assumption

/-- The draft 07 form of a schema. -/
def draft07 : Json → Json
  | .object ms => normalize (.object (moveDefinitions ms))
  | j => normalize j

end VirtualTerminal.Schema
