import VirtualTerminal.Proofs.Schema.References

/-!
# Schema — Completeness

Whether normalizing a schema a second time changes it.

* `draft07_eq_self_iff`: the schemas that normalizing leaves as they are.  They have no choice with
  null, no reference to the old place of definitions and no definitions there.
* `Uncovers`: collapsing an object brings a choice with null to light, which is then left.
  `nullable_normalized_iff`: these are the objects whose normal form offers such a choice.
* `Simple`: choices with null that offer no other choice.  `not_uncovers`: where all are, nothing
  comes to light.

**A second time changes nothing** exactly if nothing came to light (`draft07_twice_iff`).
-/

namespace VirtualTerminal.Schema

open Json (Within)

variable {ms inner a b : Json.Members} {j v w : Json}

/-! ### Schemas that stay as they are -/

/-- The alternatives of a choice with null are gone, or less deep ones have taken their place. -/
theorem get?_normalized_ne (h : Nullable ms) :
    Json.Members.get? ((collapse ms).map normalizeMember) "anyOf" ≠ ms.get? "anyOf" := by
  obtain ⟨inner, hoffered⟩ := nullable_iff.mp h
  obtain ⟨items, hget, hinner⟩ := exists_alternatives hoffered
  rw [get?_normalized (by decide), hget]
  intro heq
  obtain ⟨lifted, hlifted, hnormal⟩ := Option.map_eq_some_iff.mp heq
  rcases mem_collapse (Json.Members.mem_of_get? hlifted) with ⟨-, hno⟩ | ⟨other, hother, hmem⟩
  · exact hno rfl h
  · obtain rfl := Option.some.inj (hoffered.symm.trans hother)
    have hmember := Json.depth_lt_of_mem hmem
    have hitem := Json.depth_lt_of_mem_items hinner
    have hle := depth_normalize_le lifted
    rw [hnormal] at hle
    change lifted.depth < _ at hmember
    omega

/-- An object is normal if it is no choice with null and its members are normal. -/
theorem normalize_object_eq_self_iff : normalize (.object ms) = .object ms ↔
    ¬ Nullable ms ∧ ∀ m ∈ ms, normalizeMember m = m := by
  rw [normalize_object, Json.object.injEq]
  constructor
  · intro h
    have hplain : ¬ Nullable ms := fun hnullable =>
      get?_normalized_ne hnullable (congrArg (Json.Members.get? · "anyOf") h)
    rw [collapse_of_not_nullable hplain] at h
    exact ⟨hplain, List.map_eq_map_iff.mp (h.trans (List.map_id ms).symm)⟩
  · rintro ⟨hplain, hmembers⟩
    rw [collapse_of_not_nullable hplain]
    exact (List.map_congr_left hmembers).trans (List.map_id ms)

/-- A member is normal if its value is, and it is no reference to the old place. -/
theorem normalizeMember_eq_self_iff {m : String × Json} : normalizeMember m = m ↔
    normalize m.2 = m.2 ∧ ∀ target, m ≠ ("$ref", .string ("#/$defs/" ++ target)) := by
  constructor
  · intro h
    constructor
    · rcases normalizeMember_cases m with ⟨s, rfl, -⟩ | heq
      · exact normalize_string s
      · exact congrArg Prod.snd (heq.symm.trans h)
    · rintro target rfl
      rw [normalizeMember_reference] at h
      exact redirect_ne_old _ _ (Json.string.inj (Prod.mk.inj h).2)
  · rintro ⟨hvalue, hnew⟩
    rcases normalizeMember_cases m with ⟨s, rfl, heq⟩ | heq
    · rw [heq, redirect_of_ne_old fun target h => hnew target (by rw [h])]
    · rw [heq, hvalue]

/-- Nothing within a normal value is a choice with null. -/
theorem not_nullable_of_normalize_eq_self (h : normalize w = w) :
    ∀ ms, Within (.object ms) w → ¬ Nullable ms := by
  induction w using normalize_induction with
  | object ms ih =>
    obtain ⟨hplain, hmembers⟩ := normalize_object_eq_self_iff.mp h
    rw [collapse_of_not_nullable hplain] at ih
    intro found hwithin
    cases hwithin with
    | self => exact hplain
    | member hm hwithin =>
      exact ih _ hm (normalizeMember_eq_self_iff.mp (hmembers _ hm)).1 found hwithin
  | array items ih =>
    rw [normalize_array, Json.array.injEq] at h
    have hitems := List.map_eq_map_iff.mp (h.trans (List.map_id items).symm)
    intro found hwithin
    cases hwithin with
    | item hy hwithin => exact ih _ hy (hitems _ hy) found hwithin
  | scalar j hj =>
    intro found hwithin
    cases hwithin with
    | self | item | member => exact hj.elim

/-- **The normal forms**: no choice with null, and no reference to the old place. -/
theorem normalize_eq_self_iff : normalize w = w ↔
    (∀ ms, Within (.object ms) w → ¬ Nullable ms) ∧
    ∀ target, ¬ Refers ("#/$defs/" ++ target) w := by
  constructor
  · intro h
    refine ⟨not_nullable_of_normalize_eq_self h, fun target => ?_⟩
    rw [← h]
    exact not_refers_old w target
  · rintro ⟨hplain, hnew⟩
    induction w using normalize_induction with
    | object ms ih =>
      have hroot := hplain ms .self
      rw [collapse_of_not_nullable hroot] at ih
      refine normalize_object_eq_self_iff.mpr ⟨hroot, fun m hm => ?_⟩
      refine normalizeMember_eq_self_iff.mpr ⟨?_, ?_⟩
      · refine ih m hm (fun found hwithin => hplain found (.member hm hwithin)) ?_
        rintro target ⟨found, hwithin, href⟩
        exact hnew target ⟨found, .member hm hwithin, href⟩
      · rintro target rfl
        exact hnew target ⟨ms, .self, hm⟩
    | array items ih =>
      rw [normalize_array, Json.array.injEq]
      refine (List.map_congr_left fun v hv => ?_).trans (List.map_id items)
      refine ih v hv (fun found hwithin => hplain found (.item hv hwithin)) ?_
      rintro target ⟨found, hwithin, href⟩
      exact hnew target ⟨found, .item hv hwithin, href⟩
    | scalar j hj => exact normalize_of_scalar hj

/-- Definitions that the root has in the old place change it. -/
theorem get?_defs_of_draft07_eq_self (h : draft07 (.object ms) = .object ms) :
    ms.get? "$defs" = none := by
  by_cases hnullable : Nullable ms
  · rw [draft07, normalize_object, Json.object.injEq] at h
    have hne := get?_normalized_ne (nullable_moveDefinitions.mpr hnullable)
    rw [h, get?_moveDefinitions (by decide) (by decide)] at hne
    exact absurd rfl hne
  · rw [draft07_object hnullable, Json.object.injEq] at h
    rw [← h, get?_normalized (by decide), get?_defs_moveDefinitions, Option.map_none]

/-- **The schemas that stay as they are.** -/
theorem draft07_eq_self_iff : draft07 w = w ↔
    (∀ ms, Within (.object ms) w → ¬ Nullable ms) ∧
    (∀ target, ¬ Refers ("#/$defs/" ++ target) w) ∧
    ∀ ms : Json.Members, w = .object ms → ms.get? "$defs" = none := by
  have hmoved : (∀ ms : Json.Members, w = .object ms → ms.get? "$defs" = none) → moved w = w := by
    intro hroot
    cases w with
    | object ms => rw [moved, moveDefinitions_of_none (hroot ms rfl)]
    | null | bool | int | float | string | array => rfl
  rw [← and_assoc, ← normalize_eq_self_iff]
  constructor
  · intro h
    have hroot : ∀ ms : Json.Members, w = .object ms → ms.get? "$defs" = none := by
      rintro ms rfl
      exact get?_defs_of_draft07_eq_self h
    rw [draft07_eq, hmoved hroot] at h
    exact ⟨h, hroot⟩
  · rintro ⟨h, hroot⟩
    rw [draft07_eq, hmoved hroot, h]

/-! ### What collapsing brings to light -/

/-- Once the members are collapsed, they offer two objects, just one of them the schema of null once
it is collapsed itself. -/
def Uncovers (ms : Json.Members) : Prop :=
  ∃ a b, (collapse ms).get? "anyOf" = some (.array [.object a, .object b]) ∧
    ¬ (collapse a = onlyNull ↔ collapse b = onlyNull)

theorem map_normalizeMember_eq_onlyNull_iff :
    ms.map normalizeMember = onlyNull ↔ ms = onlyNull := by
  have hnull : normalizeMember ("type", .string "null") = ("type", .string "null") := by
    rw [normalizeMember_of_ne (by decide), normalize_string]
  constructor
  · intro h
    obtain ⟨m, rfl, hm⟩ := List.map_eq_singleton_iff.mp h
    have hname : m.1 = "type" := by rw [← normalizeMember_fst, hm]
    rw [normalizeMember_of_ne (by rw [hname]; decide)] at hm
    obtain ⟨-, hvalue⟩ := Prod.mk.inj hm
    exact congrArg (fun m => [m]) (Prod.ext hname (eq_string_of_normalize hvalue))
  · rintro rfl
    exact congrArg (fun m => [m]) hnull

theorem normalize_alternatives (a b : Json.Members) :
    normalize (.array [.object a, .object b]) = .array
      [.object ((collapse a).map normalizeMember), .object ((collapse b).map normalizeMember)] := by
  rw [normalize_array, List.map_cons, List.map_cons, List.map_nil, normalize_object,
    normalize_object]

theorem eq_alternatives_of_normalize {a' b' : Json.Members}
    (h : normalize j = .array [.object a', .object b']) :
    ∃ a b, j = .array [.object a, .object b] ∧ a' = (collapse a).map normalizeMember ∧
      b' = (collapse b).map normalizeMember := by
  cases j with
  | array items =>
    rw [normalize_array, Json.array.injEq] at h
    obtain ⟨x, rest, rfl, hx, hrest⟩ := List.map_eq_cons_iff.mp h
    obtain ⟨y, rfl, hy⟩ := List.map_eq_singleton_iff.mp hrest
    obtain ⟨a, rfl⟩ := eq_object_of_normalize hx
    obtain ⟨b, rfl⟩ := eq_object_of_normalize hy
    rw [normalize_object, Json.object.injEq] at hx hy
    exact ⟨a, b, rfl, hx.symm, hy.symm⟩
  | object ms =>
    rw [normalize_object] at h
    cases h
  | null | bool | int | float | string => cases (normalize_of_scalar (by trivial)).symm.trans h

/-- **A normal form offers a choice with null** exactly if collapsing brought one to light. -/
theorem nullable_normalized_iff : Nullable ((collapse ms).map normalizeMember) ↔ Uncovers ms := by
  rw [Nullable, get?_normalized (by decide)]
  constructor
  · rintro ⟨a', b', hnormal, hdiffer⟩
    obtain ⟨choice, hget, hchoice⟩ := Option.map_eq_some_iff.mp hnormal
    obtain ⟨a, b, rfl, rfl, rfl⟩ := eq_alternatives_of_normalize hchoice
    rw [map_normalizeMember_eq_onlyNull_iff, map_normalizeMember_eq_onlyNull_iff] at hdiffer
    exact ⟨a, b, hget, hdiffer⟩
  · rintro ⟨a, b, hget, hdiffer⟩
    refine ⟨_, _, by rw [hget, Option.map_some, normalize_alternatives], ?_⟩
    rwa [map_normalizeMember_eq_onlyNull_iff, map_normalizeMember_eq_onlyNull_iff]

/-! ### Choices that stand in no other ones -/

theorem not_nullable_onlyNull : ¬ Nullable onlyNull := by
  rintro ⟨a, b, hget, -⟩
  cases hget

/-- Unless a choice collapses to it, only the schema of null becomes the schema of null. -/
theorem collapse_eq_onlyNull_iff (h : Nullable a → collapse a ≠ onlyNull) :
    collapse a = onlyNull ↔ a = onlyNull := by
  constructor
  · intro heq
    rwa [collapse_of_not_nullable fun hnullable => h hnullable heq] at heq
  · rintro rfl
    exact collapse_of_not_nullable not_nullable_onlyNull

/-- Choices with null that offer no other choice and leave more than null: the objects that offer
them are `Simple`. -/
def Simple (ms : Json.Members) : Prop :=
  ∀ inner, offered? ms = some inner → inner.get? "anyOf" = none ∧ collapse ms ≠ onlyNull

/-- Nothing comes to light where all choices with null are simple. -/
theorem not_uncovers (h : ∀ ms, Within (.object ms) v → Simple ms) (hms : Within (.object ms) v) :
    ¬ Uncovers ms := by
  rintro ⟨a, b, hget, hdiffer⟩
  by_cases hnullable : Nullable ms
  · rcases mem_collapse (Json.Members.mem_of_get? hget) with ⟨-, hno⟩ | ⟨inner, hoffered, hmem⟩
    · exact hno rfl hnullable
    · exact Json.Members.get?_ne_none_of_mem hmem (h ms hms inner hoffered).1
  · rw [collapse_of_not_nullable hnullable] at hget
    have halternative : ∀ x : Json.Members, Json.object x ∈ [Json.object a, Json.object b] →
        (collapse x = onlyNull ↔ x = onlyNull) := by
      intro x hx
      have hwithin := ((Within.item hx .self).trans (within_of_get? hget)).trans hms
      refine collapse_eq_onlyNull_iff fun hnullable => ?_
      obtain ⟨inner, hoffered⟩ := nullable_iff.mp hnullable
      exact (h x hwithin inner hoffered).2
    rw [halternative a (by simp), halternative b (by simp)] at hdiffer
    exact hnullable ⟨a, b, hget, hdiffer⟩

/-- Collapsing the moved root brings definitions to light only from a choice. -/
theorem get?_defs_collapse (hmoved : moved v = .object ms)
    (h : ∀ inner, offered? ms = some inner → inner.get? "$defs" = none) :
    (collapse ms).get? "$defs" = none := by
  have hroot : ms.get? "$defs" = none := by
    cases v <;> cases hmoved
    exact get?_defs_moveDefinitions _
  refine Option.eq_none_iff_forall_ne_some.mpr fun definitions hget => ?_
  rcases mem_collapse (Json.Members.mem_of_get? hget) with ⟨hmem, -⟩ | ⟨inner, hoffered, hmem⟩
  · exact Json.Members.get?_ne_none_of_mem hmem hroot
  · exact Json.Members.get?_ne_none_of_mem hmem (h inner hoffered)

/-! ### Normalizing twice -/

theorem not_nullable_draft07_iff :
    (∀ out, Within (.object out) (draft07 v) → ¬ Nullable out) ↔
      ∀ ms, Visits (moved v) (.object ms) → ¬ Uncovers ms := by
  rw [draft07_eq]
  constructor
  · intro h ms hvisits
    exact mt nullable_normalized_iff.mpr (h _ (within_normalize_iff.mpr ⟨ms, hvisits, rfl⟩))
  · intro h out hwithin
    obtain ⟨ms, hvisits, rfl⟩ := within_normalize_iff.mp hwithin
    exact mt nullable_normalized_iff.mp (h ms hvisits)

theorem get?_defs_draft07_iff :
    (∀ out : Json.Members, draft07 v = .object out → out.get? "$defs" = none) ↔
      ∀ ms, moved v = .object ms → (collapse ms).get? "$defs" = none := by
  rw [draft07_eq]
  constructor
  · intro h ms hms
    have hnone := h _ (by rw [hms, normalize_object])
    rwa [get?_normalized (by decide), Option.map_eq_none_iff] at hnone
  · intro h out hout
    obtain ⟨ms, hms⟩ := eq_object_of_normalize hout
    rw [hms, normalize_object, Json.object.injEq] at hout
    rw [← hout, get?_normalized (by decide), h ms hms, Option.map_none]

/-- **Normalizing a normal form changes it** exactly if collapsing brought a choice with null to
light somewhere, or definitions at the root, since each object is collapsed once, before what it
holds.  The first is also exactly when the normal form still offers a choice with null.  Neither
happens where all choices with null are simple and the root's offers no definitions. -/
theorem draft07_twice_iff (v : Json) :
    (draft07 (draft07 v) = draft07 v ↔ (∀ ms, Visits (moved v) (.object ms) → ¬ Uncovers ms) ∧
      ∀ ms, moved v = .object ms → (collapse ms).get? "$defs" = none) ∧
    ((∀ out, Within (.object out) (draft07 v) → ¬ Nullable out) ↔
      ∀ ms, Visits (moved v) (.object ms) → ¬ Uncovers ms) ∧
    ((∀ ms, Within (.object ms) (moved v) → Simple ms) →
      (∀ ms inner, moved v = .object ms → offered? ms = some inner → inner.get? "$defs" = none) →
        draft07 (draft07 v) = draft07 v) := by
  have htwice : draft07 (draft07 v) = draft07 v ↔
      (∀ ms, Visits (moved v) (.object ms) → ¬ Uncovers ms) ∧
        ∀ ms, moved v = .object ms → (collapse ms).get? "$defs" = none := by
    have hnew : ∀ target, ¬ Refers ("#/$defs/" ++ target) (draft07 v) := by
      rw [draft07_eq]
      exact not_refers_old _
    rw [draft07_eq_self_iff, not_nullable_draft07_iff, get?_defs_draft07_iff]
    exact and_congr_right fun _ => and_iff_right hnew
  refine ⟨htwice, not_nullable_draft07_iff, fun hsimple hdefs => htwice.mpr ⟨?_, ?_⟩⟩
  · exact fun ms hvisits => not_uncovers hsimple hvisits.within
  · exact fun ms hms => get?_defs_collapse hms fun inner => hdefs ms inner hms

/-- A choice between strings and null is normalized at once.  In another choice with null, it comes
to light and waits for a second time. -/
theorem draft07_twice_nested :
    draft07 (draft07 (.object
        [("anyOf", .array [.object [("type", .string "string")], .object onlyNull])])) =
      draft07 (.object
        [("anyOf", .array [.object [("type", .string "string")], .object onlyNull])]) ∧
    draft07 (draft07 (.object [("anyOf", .array [.object [("anyOf", .array
        [.object [("type", .string "string")], .object onlyNull])], .object onlyNull])])) ≠
      draft07 (.object [("anyOf", .array [.object [("anyOf", .array
        [.object [("type", .string "string")], .object onlyNull])], .object onlyNull])]) := by
  have hother : [("type", Json.string "string")] ≠ onlyNull := by simp [onlyNull]
  have htype : ∀ {s : String} {ms : Json.Members},
      Within (.object ms) (.object [("type", .string s)]) → offered? ms = none := by
    intro s ms hwithin
    cases hwithin with
    | self => rfl
    | member hm hwithin =>
      obtain rfl := List.mem_singleton.mp hm
      cases hwithin
  constructor
  · obtain ⟨-, -, honce⟩ := draft07_twice_iff
      (.object [("anyOf", .array [.object [("type", .string "string")], .object onlyNull])])
    refine honce (fun ms hwithin inner hoffered => ?_) fun ms inner hms hoffered => ?_
    · cases hwithin with
      | self =>
        cases hoffered
        exact ⟨rfl, hother⟩
      | member hm hwithin =>
        obtain rfl := List.mem_singleton.mp hm
        cases hwithin with
        | item hy hwithin =>
          rcases List.mem_pair.mp hy with rfl | rfl
          · cases hoffered.symm.trans (htype hwithin)
          · cases hoffered.symm.trans (htype hwithin)
    · cases hms
      cases hoffered
      rfl
  · intro h
    obtain ⟨hnothing, -⟩ := (draft07_twice_iff _).1.mp h
    exact hnothing _ (.here _) ⟨_, onlyNull, rfl, fun hiff => hother (hiff.mpr rfl)⟩

end VirtualTerminal.Schema
