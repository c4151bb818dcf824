import Mathlib.Data.List.Basic
import VirtualTerminal.Proofs.Schema.Normal

/-!
# Schema — References

What becomes of the references of a schema and of the definitions that they name.

* `normalizeWithin_eq`: normalizing ends, its calls nested no deeper than the value.
* `refers_normalize_iff`: the references of a normal form are those that normalizing comes to, each
  redirected.  `refers_of_visits`: the schema has them all.
* `not_refers_old`: no reference of a normal form goes to the old place of definitions.
* `draft07_object`, `definitions_moved`: the members of a root that offers no null, and where its
  definitions stand then.
-/

namespace VirtualTerminal.Schema

open Json (Within)

variable {ms defs out : Json.Members} {j v : Json} {s : String}

/-! ### Normalizing within a bound -/

/-- Normalizing where calls nest at most so deep: no result where they would nest deeper. -/
def normalizeWithin : Nat → Json → Option Json
  | 0, _ => none
  | n + 1, .object ms =>
    (((collapse ms).map redirectMember).mapM fun m =>
      (normalizeWithin n m.2).map fun value => (m.1, value)).map .object
  | n + 1, .array items => (items.mapM (normalizeWithin n)).map .array
  | _ + 1, j => some j

/-- References may be redirected before the values of members are normalized. -/
theorem normalizeMember_eq (m : String × Json) :
    normalizeMember m = ((redirectMember m).1, normalize (redirectMember m).2) := by
  rcases redirectMember_cases m with ⟨s, rfl⟩ | hsame
  · rw [normalizeMember, normalize_string, redirectMember_reference, normalize_string]
  · rw [hsame]
    rcases normalizeMember_cases m with ⟨s, rfl, h⟩ | h
    · rw [redirectMember_reference] at hsame
      rw [h, hsame, normalize_string]
    · exact h

/-- Redirecting a reference leaves the depth. -/
theorem depth_redirectMember (m : String × Json) : (redirectMember m).2.depth = m.2.depth := by
  rcases redirectMember_cases m with ⟨s, rfl⟩ | h
  · rfl
  · rw [h]

/-- If all steps succeed, so does going through the list. -/
theorem mapM_eq_some {α β : Type} {f : α → Option β} {g : α → β} {l : List α}
    (h : ∀ a ∈ l, f a = some (g a)) : l.mapM f = some (l.map g) := by
  induction l with
  | nil => rfl
  | cons a l ih =>
    have hhead := h a List.mem_cons_self
    have htail := ih fun b hb => h b (List.mem_cons_of_mem a hb)
    rw [List.mapM_cons, hhead, htail]
    rfl

/-- **Normalizing ends**: calls that may nest as deep as the value are enough. -/
theorem normalizeWithin_eq {n : Nat} (h : j.depth ≤ n) :
    normalizeWithin n j = some (normalize j) := by
  induction n generalizing j with
  | zero =>
    have hpos := Json.depth_pos j
    omega
  | succ n ih =>
    cases j with
    | object ms =>
      have hmembers : ∀ m ∈ (collapse ms).map redirectMember,
          (normalizeWithin n m.2).map (fun value => (m.1, value)) = some (m.1, normalize m.2) := by
        intro m hm
        obtain ⟨given, hgiven, rfl⟩ := List.mem_map.mp hm
        have hlt := depth_lt_of_mem_collapse hgiven
        rw [ih (by rw [depth_redirectMember]; omega)]
        rfl
      rw [normalizeWithin, mapM_eq_some hmembers, List.map_map, normalize_object,
        funext normalizeMember_eq]
      rfl
    | array items =>
      have hitems := mapM_eq_some fun v hv => ih (Json.depth_array_le_iff.mp h v hv)
      rw [normalizeWithin, hitems, normalize_array]
      rfl
    | null | bool | int | float | string =>
      exact congrArg some (normalize_of_scalar (by trivial)).symm

/-! ### Redirecting -/

theorem isPrefixOf?_toList_eq_some_iff {front : String} {target : List Char} :
    front.toList.isPrefixOf? s.toList = some target ↔ s = front ++ String.ofList target := by
  rw [List.isPrefixOf?_eq_some_iff_append_eq, ← String.toList_inj, String.toList_append,
    String.toList_ofList]
  exact eq_comm

/-- A reference into the old place is redirected to the new one. -/
theorem redirect_old (target : String) :
    redirect ("#/$defs/" ++ target) = "#/definitions/" ++ target := by
  have hfront : "#/$defs/".toList.isPrefixOf? ("#/$defs/" ++ target).toList = some target.toList :=
    isPrefixOf?_toList_eq_some_iff.mpr (by rw [String.ofList_toList])
  rw [redirect, hfront]
  change String.ofList ("#/definitions/".toList ++ target.toList) = _
  rw [← String.toList_append, String.ofList_toList]

/-- Any other reference is left alone. -/
theorem redirect_of_ne_old (h : ∀ target, s ≠ "#/$defs/" ++ target) : redirect s = s := by
  unfold redirect
  split
  · next target hfront => exact absurd (isPrefixOf?_toList_eq_some_iff.mp hfront) (h _)
  · rfl

/-- No reference leads to the old place once it is redirected. -/
theorem redirect_ne_old (s target : String) : redirect s ≠ "#/$defs/" ++ target := by
  by_cases hold : ∃ given, s = "#/$defs/" ++ given
  · obtain ⟨given, rfl⟩ := hold
    rw [redirect_old]
    intro h
    have hlists := congrArg String.toList h
    simp at hlists
  · have hnew := not_exists.mp hold
    rw [redirect_of_ne_old hnew]
    exact hnew target

/-! ### References -/

/-- Some object within the value has the reference. -/
def Refers (s : String) (j : Json) : Prop :=
  ∃ ms, Within (.object ms) j ∧ ("$ref", .string s) ∈ ms

/-- Normalizing the value comes to an object that has the reference once it is collapsed. -/
def Meets (s : String) (j : Json) : Prop :=
  ∃ ms, Visits j (.object ms) ∧ ("$ref", .string s) ∈ collapse ms

theorem normalizeMember_reference (s : String) :
    normalizeMember ("$ref", .string s) = ("$ref", .string (redirect s)) := by
  rw [normalizeMember, normalize_string, redirectMember_reference]

/-- A reference among normalized members is a redirected one. -/
theorem eq_reference_of_normalizeMember {m : String × Json}
    (h : normalizeMember m = ("$ref", .string s)) :
    ∃ given, m = ("$ref", .string given) ∧ s = redirect given := by
  rcases normalizeMember_cases m with ⟨given, hm, heq⟩ | heq
  · rw [heq] at h
    cases h
    exact ⟨given, hm, rfl⟩
  · rw [heq] at h
    obtain ⟨hname, hvalue⟩ := Prod.mk.inj h
    obtain rfl : m = ("$ref", .string s) := Prod.ext hname (eq_string_of_normalize hvalue)
    rw [normalizeMember_reference, normalize_string] at heq
    exact ⟨s, rfl, (Json.string.inj (Prod.mk.inj heq).2).symm⟩

/-- **The references of a normal form** are the redirected ones that normalizing meets. -/
theorem refers_normalize_iff :
    Refers s (normalize j) ↔ ∃ given, Meets given j ∧ s = redirect given := by
  constructor
  · rintro ⟨out, hwithin, hmem⟩
    obtain ⟨ms, hvisits, rfl⟩ := within_normalize_iff.mp hwithin
    obtain ⟨m, hm, heq⟩ := List.mem_map.mp hmem
    obtain ⟨given, rfl, hs⟩ := eq_reference_of_normalizeMember heq
    exact ⟨given, ⟨ms, hvisits, hm⟩, hs⟩
  · rintro ⟨given, ⟨ms, hvisits, hm⟩, rfl⟩
    refine ⟨_, within_normalize_iff.mpr ⟨ms, hvisits, rfl⟩, ?_⟩
    exact List.mem_map.mpr ⟨_, hm, normalizeMember_reference given⟩

/-- **No reference of a normal form** leads to the old place. -/
theorem not_refers_old (j : Json) (target : String) :
    ¬ Refers ("#/$defs/" ++ target) (normalize j) := by
  intro h
  obtain ⟨given, -, heq⟩ := refers_normalize_iff.mp h
  exact redirect_ne_old given target heq.symm

/-- What normalizing meets stood in the value. -/
theorem Meets.refers (h : Meets s j) : Refers s j := by
  obtain ⟨ms, hvisits, hm⟩ := h
  rcases mem_collapse hm with ⟨hm, -⟩ | ⟨inner, hoffered, hm⟩
  · exact ⟨ms, hvisits.within, hm⟩
  · exact ⟨inner, (within_of_offered hoffered).trans hvisits.within, hm⟩

/-- Moving the definitions adds no references. -/
theorem refers_of_moved (h : Refers s (moved v)) : Refers s v := by
  cases v with
  | object ms =>
    obtain ⟨found, hwithin, hm⟩ := h
    cases hwithin with
    | self =>
      rcases mem_moveDefinitions hm with hm | ⟨definitions, -, heq⟩
      · exact ⟨ms, .self, hm⟩
      · exact absurd (Prod.mk.inj heq).1 (by decide)
    | member hmoved hwithin =>
      obtain ⟨o, ho, hvalue⟩ := exists_mem_of_moveDefinitions hmoved
      exact ⟨found, .member ho (hvalue ▸ hwithin), hm⟩
  | null | bool | int | float | string | array => exact h

/-! ### Definitions -/

/-- The members offer two alternatives, one of them the schema of null. -/
def OffersNull (ms : Json.Members) : Prop :=
  ∃ a b, ms.get? "anyOf" = some (.array [a, b]) ∧ (a = .object onlyNull ∨ b = .object onlyNull)

/-- The value is an object or a truth value, as schemas are. -/
def IsSchema : Json → Prop
  | .object _ | .bool _ => True
  | _ => False

/-- The definition that a reference names among those that the root has in a place.  How a name is
spelled in a reference is open: `read` gives the name behind a spelling. -/
def referent? (read : String → String) (place : String) (root : Json.Members) (reference : String) :
    Option Json := do
  let target ← ("#/" ++ place ++ "/").toList.isPrefixOf? reference.toList
  let definitions ← root.get? place
  definitions.get? (read (String.ofList target))

/-- A choice that is collapsed offers null. -/
theorem OffersNull.of_nullable (h : Nullable ms) : OffersNull ms := by
  obtain ⟨a, b, hget, hdiffer⟩ := h
  refine ⟨_, _, hget, Classical.byContradiction fun hno => ?_⟩
  obtain ⟨ha, hb⟩ := not_or.mp hno
  exact hdiffer (iff_of_false (fun h => ha (congrArg _ h)) fun h => hb (congrArg _ h))

/-- Moving the definitions leaves the choices of the root. -/
theorem nullable_moveDefinitions : Nullable (moveDefinitions ms) ↔ Nullable ms := by
  rw [Nullable, get?_moveDefinitions (by decide) (by decide)]
  rfl

/-- The members of a root that offers no null keep their order and their names but one. -/
theorem draft07_object (h : ¬ Nullable ms) :
    draft07 (.object ms) = .object ((moveDefinitions ms).map normalizeMember) := by
  rw [draft07, normalize_object, collapse_of_not_nullable (mt nullable_moveDefinitions.mp h)]

/-- Definitions keep their names, whatever they are. -/
theorem normalize_definitions (h : ∀ d ∈ defs, IsSchema d.2) :
    normalize (.object defs) = .object (defs.map fun d => (d.1, normalize d.2)) := by
  have hplain : ¬ Nullable defs := by
    rintro ⟨a, b, hget, -⟩
    exact h _ (Json.Members.mem_of_get? hget)
  rw [normalize_object, collapse_of_not_nullable hplain]
  refine congrArg _ (List.map_congr_left fun d hd => ?_)
  rcases normalizeMember_cases d with ⟨s, rfl, -⟩ | heq
  · exact (h _ hd).elim
  · exact heq

/-- A definition is found under its name, normalized. -/
theorem get?_normalized_definitions (defs : Json.Members) (name : String) :
    Json.Members.get? (defs.map fun d => (d.1, normalize d.2)) name =
      (defs.get? name).map normalize := by
  rw [Json.Members.get?_map (f := fun d => (d.1, normalize d.2)) fun _ => rfl, Json.Members.get?,
    Option.map_map]
  rfl

/-- A definition that a reference names is named by the redirected one where the definitions moved
to. -/
theorem referent?_redirect {read : String → String} {definition : Json}
    (hdefs : ms.get? "$defs" = some (.object defs))
    (hout : out.get? "definitions" = some (.object (defs.map fun d => (d.1, normalize d.2))))
    (h : referent? read "$defs" ms s = some definition) :
    referent? read "definitions" out (redirect s) = some (normalize definition) := by
  obtain ⟨target, hfront, hplace⟩ := Option.bind_eq_some_iff.mp h
  obtain ⟨definitions, hget, hnamed⟩ := Option.bind_eq_some_iff.mp hplace
  obtain rfl : definitions = .object defs := Option.some.inj (hget.symm.trans hdefs)
  obtain rfl : s = "#/$defs/" ++ String.ofList target :=
    isPrefixOf?_toList_eq_some_iff.mp hfront
  have hnew : ("#/" ++ "definitions" ++ "/").toList.isPrefixOf?
      ("#/definitions/" ++ String.ofList target).toList = some target :=
    isPrefixOf?_toList_eq_some_iff.mpr rfl
  rw [redirect_old, referent?, hnew, hout]
  change Json.Members.get? _ _ = _
  rw [get?_normalized_definitions]
  exact congrArg (Option.map normalize) hnamed

/-! ### Every schema -/

/-- **References follow the definitions.**  Normalizing any schema ends, and no reference of the
result goes to the old place: its references are those that normalizing meets, which are references
of the schema, each redirected.  A root that offers no null and defines schemas has the normal forms
of its definitions in the new place then, under the same names, and none in the old one; a
reference that named a definition names its normal form. -/
theorem references_follow_definitions (v : Json) :
    (∀ n, v.depth ≤ n → normalizeWithin n (moved v) = some (draft07 v)) ∧
    (∀ target, ¬ Refers ("#/$defs/" ++ target) (draft07 v)) ∧
    (∀ s, Refers s (draft07 v) ↔ ∃ given, Meets given (moved v) ∧ s = redirect given) ∧
    (∀ given, Meets given (moved v) → Refers given v) ∧
    ∀ ms defs : Json.Members, v = .object ms → ¬ OffersNull ms →
      ms.get? "$defs" = some (.object defs) → (∀ d ∈ defs, IsSchema d.2) →
        ∃ out : Json.Members, draft07 v = .object out ∧ out.get? "$defs" = none ∧
          out.get? "definitions" = some (.object (defs.map fun d => (d.1, normalize d.2))) ∧
          ∀ read s definition, referent? read "$defs" ms s = some definition →
            referent? read "definitions" out (redirect s) = some (normalize definition) := by
  refine ⟨fun n hn => ?_, ?_, ?_, fun given h => refers_of_moved h.refers, ?_⟩
  · have hmoved := depth_moved_le v
    rw [draft07_eq]
    exact normalizeWithin_eq (by omega)
  · rw [draft07_eq]
    exact not_refers_old _
  · rw [draft07_eq]
    exact fun s => refers_normalize_iff
  · rintro ms defs rfl hoffers hdefs hschemas
    have hnew : Json.Members.get? ((moveDefinitions ms).map normalizeMember) "definitions" =
        some (.object (defs.map fun d => (d.1, normalize d.2))) := by
      rw [get?_normalized (by decide), get?_definitions_moveDefinitions hdefs, Option.map_some,
        normalize_definitions hschemas]
    refine ⟨_, draft07_object (mt OffersNull.of_nullable hoffers), ?_, hnew, ?_⟩
    · rw [get?_normalized (by decide), get?_defs_moveDefinitions, Option.map_none]
    · exact fun read s definition => referent?_redirect hdefs hnew

/-- A reference beside null: its definition moves, and the reference finds it. -/
theorem definition_beside_null_is_found :
    ∃ out : Json.Members, draft07 (.object
        [("$defs", .object [("Mark", .object [("type", .string "string")])]),
          ("items", .object [("anyOf", .array [.object onlyNull,
            .object [("$ref", .string "#/$defs/Mark")]])])]) = .object out ∧
      out.get? "$defs" = none ∧
      out.get? "definitions" =
        some (.object [("Mark", normalize (.object [("type", .string "string")]))]) ∧
      referent? id "definitions" out (redirect "#/$defs/Mark") =
        some (normalize (.object [("type", .string "string")])) := by
  obtain ⟨-, -, -, -, hroot⟩ := references_follow_definitions (.object
    [("$defs", .object [("Mark", .object [("type", .string "string")])]),
      ("items", .object [("anyOf", .array [.object onlyNull,
        .object [("$ref", .string "#/$defs/Mark")]])])])
  have hoffers : ∀ items : Json.Members, ¬ OffersNull [("$defs", .object
      [("Mark", .object [("type", .string "string")])]), ("items", .object items)] := by
    rintro items ⟨a, b, hget, -⟩
    cases hget
  obtain ⟨out, hout, hold, hnew, hnames⟩ := hroot _ _ rfl (hoffers _) rfl (by simp [IsSchema])
  exact ⟨out, hout, hold, hnew, hnames id _ _ rfl⟩

end VirtualTerminal.Schema
