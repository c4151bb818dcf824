import Mathlib.Data.List.Forall2
import VirtualTerminal.Rendition

/-!
# Renditions — item by item

The groups of a rendition make up items.  Most are one group: a code, a kind of underline, or a
colour whose numbers are joined by colons.  A colour whose numbers are joined by semicolons is
several groups, and where it ends is only known from its second one.

Whatever follows an item, its own groups are read and no more (`Item.applyGroups_append`).  So a
rendition resolves item by item (`resolves_item_by_item`): each item has the effect that it has
alone, a colour may be spelled either way, and a number above 255 costs the item but nothing behind
it.  Only at the end of the rendition can a colour be incomplete, and then it has no effect.
-/

namespace VirtualTerminal.Rendition

/-! ### Items -/

/-- What a colour is for. -/
inductive Layer where
  | foreground
  | background
deriving DecidableEq, Repr

/-- The code that begins a colour. -/
def Layer.code : Layer → Nat
  | .foreground => 38
  | .background => 48

/-- The numbers that name a colour: an entry of the palette, or three components. -/
inductive Paint where
  | entry (n : Nat)
  | components (r g b : Nat)
deriving DecidableEq, Repr

namespace Paint

/-- The numbers that must not be above 255. -/
def bounded : Paint → List Nat
  | .entry n => [n]
  | .components r g b => [r, g, b]

/-- The numbers as they are written: those that name the colour, behind their kind. -/
def members : Paint → List Nat
  | .entry n => [5, n]
  | .components r g b => [2, r, g, b]

/-- The colour, if there is one. -/
def color? : Paint → Option Color
  | .entry n => (component? n).map .palette
  | .components r g b => rgb? r g b

end Paint

/-- What a rendition is made of. -/
inductive Item where
  /-- A code that begins no colour. -/
  | code (c : Nat) (hc : ¬ (c = 38 ∨ c = 48))
  /-- A kind of underline, the kind 0 being none. -/
  | underline (kind : Nat)
  /-- A colour with its numbers joined by semicolons. -/
  | semicolons (layer : Layer) (paint : Paint)
  /-- A colour with its numbers joined by colons. -/
  | colons (layer : Layer) (paint : Paint)
  /-- A colour with its numbers joined by colons, with the number of a colour space. -/
  | colonsInSpace (layer : Layer) (space r g b : Nat)

namespace Item

/-- The groups of an item. -/
def groups : Item → List (List Nat)
  | .code c _ => [[c]]
  | .underline kind => [[4, kind]]
  | .semicolons layer paint => (layer.code :: paint.members).map fun n => [n]
  | .colons layer paint => [layer.code :: paint.members]
  | .colonsInSpace layer space r g b => [[layer.code, 2, space, r, g, b]]

/-- What an item colours, and how. -/
def paint? : Item → Option (Layer × Paint)
  | .code .. | .underline _ => none
  | .semicolons layer paint | .colons layer paint => some (layer, paint)
  | .colonsInSpace layer _ r g b => some (layer, .components r g b)

/-- The two are the same, or they spell the same colour. -/
def Respelled (i j : Item) : Prop := i = j ∨ (i.paint?.isSome = true ∧ i.paint? = j.paint?)

/-- The item is a colour with a number above 255. -/
def OutOfRange (i : Item) : Prop := ∃ layer paint, i.paint? = some (layer, paint) ∧
  ∃ n ∈ paint.bounded, 255 < n

/-- The style after an item. -/
def effect (s : Style) : Item → Style
  | .code c _ => applyCode s c none
  | .underline kind => applyCode s 4 (some kind)
  | .semicolons layer paint | .colons layer paint => colored s layer.code paint.color?
  | .colonsInSpace layer _ r g b => colored s layer.code (rgb? r g b)

/-- A colour has the same effect however it is spelled. -/
theorem effect_of_paint? {i : Item} {layer : Layer} {paint : Paint}
    (h : i.paint? = some (layer, paint)) (s : Style) :
    i.effect s = colored s layer.code paint.color? := by
  cases i with
  | code | underline => cases h
  | semicolons | colons | colonsInSpace => cases h; rfl

/-- So two spellings of an item have one effect. -/
theorem Respelled.effect_eq {i j : Item} (h : i.Respelled j) (s : Style) :
    i.effect s = j.effect s := by
  obtain rfl | ⟨hsome, hpaint⟩ := h
  · rfl
  · obtain ⟨⟨layer, paint⟩, hi⟩ := Option.isSome_iff_exists.mp hsome
    rw [effect_of_paint? hi, effect_of_paint? (hpaint.symm.trans hi)]

end Item

/-! ### Reading one item -/

section Reading
variable (s : Style) (layer : Layer) (paint : Paint) (rest : List (List Nat))

theorem Layer.code_eq : layer.code = 38 ∨ layer.code = 48 := by
  cases layer
  · exact .inl rfl
  · exact .inr rfl

/-- Behind its kind, a colour takes as many groups as it has numbers. -/
theorem semicolonColor?_members :
    semicolonColor? (paint.members.map (fun n => [n]) ++ rest) = (paint.color?, rest) := by
  cases paint <;> rfl

/-- A colour that ends early takes all that is left. -/
theorem semicolonColor?_take {n : Nat} (hn : n < paint.members.length) :
    semicolonColor? ((paint.members.take n).map fun n => [n]) = (none, []) := by
  cases paint with
  | entry entry =>
    match n, hn with
    | 0, _ | 1, _ => rfl
  | components r g b =>
    match n, hn with
    | 0, _ | 1, _ | 2, _ | 3, _ => rfl

/-- A colour that begins with a group of its own goes on in the groups behind it. -/
theorem applyGroups_lone :
    applyGroups s ([layer.code] :: rest) =
      applyGroups (colored s layer.code (semicolonColor? rest).1) (semicolonColor? rest).2 := by
  rw [applyGroups, if_pos layer.code_eq, if_pos List.isEmpty_nil]

/-- A colour in one group is read from that group. -/
theorem applyGroups_joined (n : Nat) (members : List Nat) :
    applyGroups s ((layer.code :: n :: members) :: rest) =
      applyGroups (colored s layer.code (colonColor? (n :: members))) rest := by
  rw [applyGroups, if_pos layer.code_eq, if_neg (by simp)]

/-- **An item takes its own groups**, whatever is behind them. -/
theorem Item.applyGroups_append (i : Item) :
    applyGroups s (i.groups ++ rest) = applyGroups (i.effect s) rest := by
  cases i with
  | code c hc =>
    rw [groups, List.singleton_append, applyGroups, if_neg hc]
    rfl
  | underline kind =>
    rw [groups, List.singleton_append, applyGroups, if_neg (by decide)]
    rfl
  | semicolons layer paint =>
    rw [groups, List.map_cons, List.cons_append, applyGroups_lone, semicolonColor?_members]
    rfl
  | colons layer paint =>
    cases paint <;> exact applyGroups_joined ..
  | colonsInSpace layer space r g b => exact applyGroups_joined ..

/-- **Complete items** are read one after another, whatever follows them. -/
theorem applyGroups_items (items : List Item) :
    applyGroups s (items.flatMap Item.groups ++ rest) =
      applyGroups (items.foldl Item.effect s) rest := by
  -- by items and not by groups: how many groups are read at once depends on what they hold
  induction items generalizing s with
  | nil => rfl
  | cons i items ih =>
    rw [List.flatMap_cons, List.append_assoc, i.applyGroups_append, ih, List.foldl_cons]

/-- A colour that ends early has no effect. -/
theorem applyGroups_take {n : Nat} (hn : n < (Item.semicolons layer paint).groups.length) :
    applyGroups s ((Item.semicolons layer paint).groups.take n) = s := by
  cases n with
  | zero => rw [List.take_zero, applyGroups]
  | succ n =>
    -- the code is there, and what is left of the numbers names no colour
    have hn : n < paint.members.length := by simpa [Item.groups] using hn
    rw [Item.groups, List.map_cons, List.take_succ_cons, ← List.map_take, applyGroups_lone,
      semicolonColor?_take paint hn, applyGroups]
    rfl

end Reading

/-! ### What an item leaves alone -/

/-- A part of a style. -/
inductive Attribute where
  | bold
  | dim
  | italic
  | underline
  | inverse
  | strikethrough
  | foreground
  | background
deriving DecidableEq, Repr

namespace Attribute

/-- The codes that set the attribute, other than 0, 38 and 48. -/
def codes : Attribute → List Nat
  | .bold => [1, 22]
  | .dim => [2, 22]
  | .italic => [3, 23]
  | .underline => [4, 21, 24]
  | .inverse => [7, 27]
  | .strikethrough => [9, 29]
  | .foreground => 39 :: (List.range' 30 8 ++ List.range' 90 8)
  | .background => 49 :: (List.range' 40 8 ++ List.range' 100 8)

/-- The two styles have the attribute in common. -/
def Kept (s s' : Style) : Attribute → Prop
  | .bold => s'.bold = s.bold
  | .dim => s'.dim = s.dim
  | .italic => s'.italic = s.italic
  | .underline => s'.underline = s.underline
  | .inverse => s'.inverse = s.inverse
  | .strikethrough => s'.strikethrough = s.strikethrough
  | .foreground => s'.foreground = s.foreground
  | .background => s'.background = s.background

theorem kept_refl (s : Style) (a : Attribute) : a.Kept s s := by cases a <;> rfl

end Attribute

/-- The attribute that a colour is for. -/
def Layer.attribute : Layer → Attribute
  | .foreground => .foreground
  | .background => .background

/-- The attribute is one that the item sets; the code 0 sets all. -/
def Item.Sets (a : Attribute) : Item → Prop
  | .code c _ => c = 0 ∨ c ∈ a.codes
  | .underline _ => a = .underline
  | .semicolons layer _ | .colons layer _ | .colonsInSpace layer .. => a = layer.attribute

section Kept
variable (s : Style) {a : Attribute}

/-- A code leaves the attributes that it is not a code of. -/
theorem kept_applyCode {c : Nat} (h : ¬ (c = 0 ∨ c ∈ a.codes)) (kind : Option Nat) :
    a.Kept s (applyCode s c kind) := by
  -- a code that changes the attribute is in its table
  unfold applyCode
  cases a
  all_goals
    simp only [Attribute.codes, Attribute.Kept, List.mem_cons, List.mem_append,
      List.mem_range'_1] at h ⊢
    grind

/-- A colour leaves all but the attribute of its layer. -/
theorem kept_colored {layer : Layer} (h : a ≠ layer.attribute) (color : Option Color) :
    a.Kept s (colored s layer.code color) := by
  cases color with
  | none => exact a.kept_refl s
  | some color => cases layer <;> cases a <;> first | rfl | exact absurd rfl h

/-- **An item changes its own attribute only.** -/
theorem Item.kept_effect {i : Item} (h : ¬ i.Sets a) : a.Kept s (i.effect s) := by
  cases i with
  | code c hc => exact kept_applyCode s h none
  | underline kind =>
    have hcodes : ∀ a : Attribute, 4 = 0 ∨ 4 ∈ a.codes → a = .underline := fun a => by
      cases a <;> decide
    exact kept_applyCode s (fun hcode => h (hcodes a hcode)) (some kind)
  | semicolons layer paint | colons layer paint => exact kept_colored s h paint.color?
  | colonsInSpace layer space r g b => exact kept_colored s h (rgb? r g b)

end Kept

/-! ### Colours that are none -/

/-- There is no component above 255. -/
theorem component?_eq_none {n : Nat} (h : 255 < n) : component? n = none :=
  if_neg (Nat.not_le_of_lt h)

/-- One number above 255 makes it no colour. -/
theorem Paint.color?_eq_none {paint : Paint} {n : Nat} (hmem : n ∈ paint.bounded) (h : 255 < n) :
    paint.color? = none := by
  have hnone := component?_eq_none h
  cases paint with
  | entry entry =>
    obtain rfl := List.mem_singleton.mp hmem
    rw [color?, hnone, Option.map_none]
  | components r g b =>
    simp only [bounded, List.mem_cons, List.not_mem_nil, or_false] at hmem
    simp only [color?, rgb?, Option.bind_eq_bind]
    rcases hmem with rfl | rfl | rfl
    · rw [hnone, Option.bind_none]
    · simp only [hnone, Option.bind_none, Option.bind_fun_none]
    · simp only [hnone, Option.bind_none, Option.bind_fun_none]

/-- An item with such a number changes nothing. -/
theorem Item.OutOfRange.effect_eq {i : Item} (h : i.OutOfRange) (s : Style) : i.effect s = s := by
  obtain ⟨layer, paint, hpaint, n, hmem, hn⟩ := h
  rw [effect_of_paint? hpaint, paint.color?_eq_none hmem hn, colored]

/-! ### Whole renditions -/

/-- Only a rendition without any groups stands for the code 0. -/
theorem apply_of_ne_nil {groups : List (List Nat)} (h : groups ≠ []) (s : Style) :
    apply s groups = applyGroups s groups :=
  if_neg fun hnil => h (List.isEmpty_iff.mp hnil)

theorem Item.groups_ne_nil (i : Item) : i.groups ≠ [] := by
  cases i <;> exact List.cons_ne_nil _ _

/-- Alone, an item is a rendition with its own effect. -/
theorem Item.apply_groups (i : Item) (s : Style) : apply s i.groups = i.effect s := by
  have hread := i.applyGroups_append s []
  rw [List.append_nil, applyGroups] at hread
  rw [apply_of_ne_nil i.groups_ne_nil, hread]

theorem foldl_apply (items : List Item) (s : Style) :
    items.foldl (fun s i => apply s i.groups) s = items.foldl Item.effect s := by
  simp only [Item.apply_groups]

/-- A rendition that is made of items has their effects in order. -/
theorem apply_items {items : List Item} (h : items ≠ []) (s : Style) :
    apply s (items.flatMap Item.groups) = items.foldl Item.effect s := by
  obtain ⟨i, items, rfl⟩ := List.exists_cons_of_ne_nil h
  have hne : (i :: items).flatMap Item.groups ≠ [] := fun hnil =>
    i.groups_ne_nil (List.append_eq_nil_iff.mp hnil).1
  have hread := applyGroups_items s [] (i :: items)
  rw [List.append_nil, applyGroups] at hread
  rw [apply_of_ne_nil hne, hread]

/-- Respelling items changes none of the effects. -/
theorem foldl_effect_congr {items others : List Item} (h : List.Forall₂ Item.Respelled items others)
    (s : Style) : items.foldl Item.effect s = others.foldl Item.effect s := by
  induction h generalizing s with
  | nil => rfl
  | cons hi _ ih => rw [List.foldl_cons, List.foldl_cons, hi.effect_eq, ih]

/-- **A rendition resolves item by item.**  Its items apply one after another, each as it would
alone.  Any colours in it may be spelled the other way.  A colour with a number above 255 has no
effect and takes nothing but its own groups, as if it were left out.  A colour that ends early, at
the end of the rendition, has no effect.  And an item changes no attribute but its own, where the
code 0 makes the style plain. -/
theorem resolves_item_by_item (s : Style) (items : List Item) :
    (items ≠ [] → apply s (items.flatMap Item.groups) =
      items.foldl (fun s i => apply s i.groups) s) ∧
    (∀ others, List.Forall₂ Item.Respelled items others →
      apply s (items.flatMap Item.groups) = apply s (others.flatMap Item.groups)) ∧
    (∀ i : Item, i.OutOfRange → apply s i.groups = s ∧
      ∀ behind, items ++ behind ≠ [] →
        apply s ((items ++ i :: behind).flatMap Item.groups) =
          apply s ((items ++ behind).flatMap Item.groups)) ∧
    (∀ layer paint n, 0 < n → n < (Item.semicolons layer paint).groups.length →
      apply s (items.flatMap Item.groups ++ (Item.semicolons layer paint).groups.take n) =
        items.foldl (fun s i => apply s i.groups) s) ∧
    (∀ (i : Item) (a : Attribute), ¬ i.Sets a → a.Kept s (apply s i.groups)) ∧
    apply s [[0]] = .plain := by
  refine ⟨fun h => ?_, fun others hothers => ?_, fun i hi => ⟨?_, fun behind hne => ?_⟩,
    fun layer paint n hpos hn => ?_, fun i a ha => ?_, ?_⟩
  · rw [apply_items h, foldl_apply]
  · cases hothers with
    | nil => rfl
    | cons hi hrest =>
      rw [apply_items (List.cons_ne_nil _ _), apply_items (List.cons_ne_nil _ _)]
      exact foldl_effect_congr (.cons hi hrest) s
  · rw [i.apply_groups, hi.effect_eq]
  · rw [apply_items (by simp), apply_items hne, List.foldl_append, List.foldl_append,
      List.foldl_cons, hi.effect_eq]
  · have hcut : (Item.semicolons layer paint).groups.take n ≠ [] := by
      simp only [ne_eq, List.take_eq_nil_iff, not_or]
      exact ⟨Nat.ne_of_gt hpos, Item.groups_ne_nil _⟩
    rw [apply_of_ne_nil (List.append_ne_nil_of_right_ne_nil _ hcut), applyGroups_items,
      applyGroups_take _ _ _ hn, foldl_apply]
  · rw [i.apply_groups]
    exact i.kept_effect s ha
  · rw [apply_of_ne_nil (List.cons_ne_nil _ _), applyGroups, if_neg (by decide), applyGroups]
    rfl

/-- Bold, an entry of the palette, a background with a component above 255, and a kind of
underline. -/
def mixed : List Item :=
  [.code 1 (by decide), .semicolons .foreground (.entry 196),
    .semicolons .background (.components 10 999 20), .underline 3]

/-- Behind these a colour ends early.  Neither it nor the one that is out of range has an effect,
and the entry of the palette may be joined by colons. -/
theorem resolves_item_by_item_mixed :
    apply .plain [[1], [38], [5], [196], [48], [2], [10], [999], [20], [4, 3], [38], [2], [7]] =
      { bold := true, foreground := .palette 196, underline := true } ∧
    apply .plain [[1], [38], [5], [196], [48], [2], [10], [999], [20], [4, 3]] =
      apply .plain [[1], [38, 5, 196], [48], [2], [10], [999], [20], [4, 3]] ∧
    apply .plain [[48], [2], [10], [999], [20]] = .plain ∧
    Attribute.background.Kept .plain (apply .plain [[38], [5], [196]]) := by
  obtain ⟨-, hspelled, hrange, hcut, hkept, -⟩ := resolves_item_by_item .plain mixed
  refine ⟨?_, ?_, ?_, ?_⟩
  · refine (hcut .foreground (.components 7 0 0) 3 (by decide) (by decide)).trans ?_
    rw [foldl_apply]
    rfl
  · exact hspelled [.code 1 (by decide), .colons .foreground (.entry 196),
      .semicolons .background (.components 10 999 20), .underline 3]
      (.cons (.inl rfl) (.cons (.inr ⟨rfl, rfl⟩) (.cons (.inl rfl) (.cons (.inl rfl) .nil))))
  · exact (hrange (.semicolons .background (.components 10 999 20))
      ⟨_, _, rfl, 999, by decide, by decide⟩).1
  · exact hkept (.semicolons .foreground (.entry 196)) .background
      (show Attribute.background ≠ .foreground by decide)

end VirtualTerminal.Rendition
