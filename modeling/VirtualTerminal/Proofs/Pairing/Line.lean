import VirtualTerminal.Proofs.Cells

/-!
# Pairing — Line

A wide glyph takes two cells of its line, its character and a spacer.  A line is *paired* if no half
stands alone: its spacers are exactly the cells right of a character of two columns
(`Line.Paired`).

Where no character takes more than two columns and spacers hold a blank (`Cell.Regular`), this is a
relation between two rows of truth values: `spacerAt` at a column is `leadAt` at the column before
(`Line.Linked`).  Operations on lines are described by what they do to these two (`linked_mend`,
`linked_resize`).  Replacing cells by blanks is the exception: it keeps a line paired exactly if it
takes both halves of a glyph or none (`linked_blankIf_iff`).

For both descriptions there are characters that count as wide (`Line.PairedBy`).  In such a line no
two spacers stand side by side.  So where a glyph is put, the second release never meets what the
first one has changed, and what is put is read off the line before it
(`Line.overwritten`, `Line.put_eq_overwritten`).
-/

namespace VirtualTerminal

/-! ### Cells -/

/-- The cell is no wider than two columns, and if it is a spacer, it holds a blank. -/
structure Cell.Regular (c : Cell) : Prop where
  spacer_blank : c.spacer = true → c.character = ' '
  columns_le : ∀ width, Width.columns? c.character = some width → width ≤ 2

namespace Cell.Regular

variable {c : Cell}

/-- A blank takes one column, so it may well be a spacer. -/
theorem of_blank (h : c.character = ' ') : c.Regular where
  spacer_blank _ := h
  columns_le width hw := by
    rw [h, show Width.columns? ' ' = some 1 by decide] at hw
    exact Option.some.inj hw ▸ by decide

theorem erased (background : Color) : (Cell.erased background).Regular := of_blank rfl

/-- A regular cell stays regular when it is no longer a spacer. -/
theorem unspaced (h : c.Regular) : c.unspaced.Regular := ⟨nofun, h.columns_le⟩

/-- A regular cell leads if it is no spacer and takes exactly two columns. -/
theorem leads_iff (h : c.Regular) :
    Line.leads c = true ↔ c.spacer = false ∧ Width.columns? c.character = some 2 := by
  rw [Line.leads, Bool.and_eq_true, Bool.not_eq_true', Width.isWide]
  refine and_congr_right fun _ => ?_
  cases hw : Width.columns? c.character with
  | none => exact iff_of_false (by decide) nofun
  | some width =>
    have := h.columns_le width hw
    simp only [decide_eq_true_eq, Option.some.injEq]
    omega

end Cell.Regular

/-- Blanking keeps cells regular. -/
theorem Cell.Stable.regular : Stable Regular := ⟨.of_blank, .unspaced⟩

/-- A blank is no first half. -/
theorem Line.leads_of_blank {c : Cell} (h : c.character = ' ') : leads c = false := by
  rw [leads, h, show Width.isWide ' ' = false by decide, Bool.and_false]

namespace Line

/-! ### Paired lines -/

/-- Every cell of the line is regular. -/
def Regular (l : Line) : Prop := ∀ c ∈ l, c.Regular

/-- No half of a wide glyph stands alone. -/
structure Paired (l : Line) : Prop where
  /-- A cell is a spacer exactly if the cell to its left is none and takes two columns. -/
  spacer_iff : ∀ col c, l[col]? = some c →
    (c.spacer = true ↔ ∃ p, 0 < col ∧ l[col - 1]? = some p ∧ p.spacer = false ∧
      Width.columns? p.character = some 2)
  /-- A character of two columns is followed by its spacer. -/
  followed : ∀ col c, l[col]? = some c → Width.columns? c.character = some 2 →
    ∃ n, l[col + 1]? = some n ∧ n.spacer = true

/-- The column holds the first half of a wide glyph. -/
def leadAt (l : Line) (col : Nat) : Bool := l[col]?.any leads

/-- Spacers stand right of first halves, and nowhere else; `led` says whether the cell before the
line is a first half. -/
structure Linked (led : Bool) (l : Line) : Prop where
  first : spacerAt l 0 = led
  next : ∀ col, spacerAt l (col + 1) = leadAt l col

variable {l : Line} {col i : Nat} {c : Cell}

theorem spacerAt_eq_true_iff : spacerAt l col = true ↔ ∃ c, l[col]? = some c ∧ c.spacer = true := by
  rw [spacerAt, Option.any_eq_true]

theorem leadAt_eq_true_iff : leadAt l col = true ↔ ∃ c, l[col]? = some c ∧ leads c = true := by
  rw [leadAt, Option.any_eq_true]

theorem Regular.get (hr : l.Regular) (h : l[col]? = some c) : c.Regular :=
  hr c (List.mem_of_getElem? h)

/-! ### Paired by the characters that are wide -/

variable {wide : Char → Bool}

/-- Spacers stand right of the cells that are no spacers and hold a wide character, and nowhere
else; `wide` says which characters are wide. -/
structure PairedBy (wide : Char → Bool) (l : Line) : Prop where
  first : spacerAt l 0 = false
  next : ∀ col, spacerAt l (col + 1) = l[col]?.any fun c => !c.spacer && wide c.character

/-- In a paired line no spacer is next to another. -/
theorem PairedBy.apart (h : l.PairedBy wide) (hs : spacerAt l col = true) :
    spacerAt l (col + 1) = false := by
  obtain ⟨c, hget, hc⟩ := spacerAt_eq_true_iff.mp hs
  rw [h.next, hget, Option.any_some, hc]
  rfl

/-- Linked is paired by the characters of more than one column. -/
theorem linked_iff : l.Linked false ↔ l.PairedBy Width.isWide :=
  ⟨fun h => ⟨h.first, h.next⟩, fun h => ⟨h.first, h.next⟩⟩

/-- The character takes exactly two columns. -/
def takesTwo (c : Char) : Bool := decide (Width.columns? c = some 2)

/-- A spacer holds no character of two columns. -/
def SpacersHoldNoGlyph (c : Cell) : Prop := c.spacer = true → takesTwo c.character = false

theorem stable_spacersHoldNoGlyph : Cell.Stable SpacersHoldNoGlyph where
  of_blank h _ := by rw [h]; decide
  unspaced _ := nofun

/-- A line is paired by the characters of two columns if no spacer is one. -/
theorem paired_iff : l.Paired ↔ l.PairedBy takesTwo ∧ l.Each SpacersHoldNoGlyph := by
  have hlead : ∀ c : Cell, (!c.spacer && takesTwo c.character) = true ↔
      c.spacer = false ∧ Width.columns? c.character = some 2 := fun c => by
    rw [Bool.and_eq_true, Bool.not_eq_true', takesTwo, decide_eq_true_eq]
  constructor
  · intro h
    refine ⟨⟨?_, fun col => Bool.eq_iff_iff.mpr ⟨fun hs => ?_, fun hc => ?_⟩⟩, fun c hmem hs => ?_⟩
    · refine Bool.eq_false_iff.mpr fun hs => ?_
      obtain ⟨c, hget, hc⟩ := spacerAt_eq_true_iff.mp hs
      obtain ⟨p, hpos, -⟩ := (h.spacer_iff 0 c hget).mp hc
      exact absurd hpos (Nat.lt_irrefl 0)
    · obtain ⟨c, hget, hc⟩ := spacerAt_eq_true_iff.mp hs
      obtain ⟨p, -, hp, htwo⟩ := (h.spacer_iff (col + 1) c hget).mp hc
      exact (Option.any_eq_true _ _).mpr ⟨p, hp, (hlead p).mpr htwo⟩
    · obtain ⟨c, hget, hc⟩ := (Option.any_eq_true _ _).mp hc
      exact spacerAt_eq_true_iff.mpr (h.followed col c hget ((hlead c).mp hc).2)
    · -- the spacer behind this one would have to follow a cell that is none
      refine decide_eq_false fun htwo => ?_
      obtain ⟨col, hget⟩ := List.getElem?_of_mem hmem
      obtain ⟨n, hn, hspacer⟩ := h.followed col c hget htwo
      obtain ⟨p, -, hp, hfirst, -⟩ := (h.spacer_iff (col + 1) n hn).mp hspacer
      obtain rfl := Option.some.inj (hget.symm.trans hp)
      exact absurd hs (Bool.eq_false_iff.mp hfirst)
  · rintro ⟨h, heach⟩
    constructor
    · intro col c hget
      rw [← spacerAt_eq hget]
      cases col with
      | zero =>
        rw [h.first]
        exact iff_of_false Bool.false_ne_true (by rintro ⟨p, hpos, -⟩; exact Nat.lt_irrefl 0 hpos)
      | succ col =>
        rw [h.next, Option.any_eq_true]
        constructor
        · rintro ⟨p, hp, hc⟩
          exact ⟨p, Nat.succ_pos col, hp, (hlead p).mp hc⟩
        · rintro ⟨p, -, hp, hc⟩
          exact ⟨p, hp, (hlead p).mpr hc⟩
    · intro col c hget htwo
      have hfirst : c.spacer = false := Bool.eq_false_iff.mpr fun hs =>
        absurd (heach c (List.mem_of_getElem? hget) hs) (by rw [takesTwo, htwo]; decide)
      refine spacerAt_eq_true_iff.mp ?_
      rw [h.next, hget, Option.any_some]
      exact (hlead c).mpr ⟨hfirst, htwo⟩

/-- On a regular line the two descriptions agree. -/
theorem paired_iff_linked (hr : l.Regular) : l.Paired ↔ l.Linked false := by
  have hsame : ∀ col, (l[col]?.any fun c => !c.spacer && takesTwo c.character) = leadAt l col := by
    intro col
    cases hget : l[col]? with
    | none => rw [leadAt, hget]; rfl
    | some c =>
      rw [leadAt, hget, Option.any_some, Option.any_some]
      refine Bool.eq_iff_iff.mpr ?_
      rw [(hr.get hget).leads_iff, Bool.and_eq_true, Bool.not_eq_true', takesTwo, decide_eq_true_eq]
  have hspacers : l.Each SpacersHoldNoGlyph := fun c hc hs => by
    rw [(hr c hc).spacer_blank hs]
    decide
  rw [paired_iff, and_iff_left hspacers]
  exact ⟨fun h => ⟨h.first, fun col => (h.next col).trans (hsame col)⟩,
    fun h => ⟨h.first, fun col => (h.next col).trans (hsame col).symm⟩⟩

/-! ### Changing one cell -/

/-- A change that a test does not see changes its outcome in no column. -/
theorem any_getElem?_modify_of_eq {f : Cell → Cell} {p : Cell → Bool}
    (hf : ∀ c ∈ l, p (f c) = p c) : (l.modify i f)[col]?.any p = l[col]?.any p := by
  rw [List.getElem?_modify, Option.map_eq_map]
  cases hget : l[col]? with
  | none => rfl
  | some c =>
    have := hf c (List.mem_of_getElem? hget)
    by_cases hi : i = col <;> simp [hi, this]

/-- A changed cell that fails the test fails it in its own column only. -/
theorem any_getElem?_modify_of_false {f : Cell → Cell} {p : Cell → Bool}
    (hf : ∀ c, p (f c) = false) :
    (l.modify i f)[col]?.any p = (l[col]?.any p && decide (col ≠ i)) := by
  rw [List.getElem?_modify, Option.map_eq_map]
  cases l[col]? with
  | none => rfl
  | some c => by_cases hi : i = col <;> simp [hi, hf, Ne.symm]

/-! ### Overwriting -/

section Put
variable {width : Nat} {glyph : Cell}

/-- The line after a glyph of this width is put into a column.  The glyph is in its column, followed
by its spacer if it takes two.  If the column held a spacer, the cell before it becomes a space, and
if a spacer is behind the glyph, that becomes one. -/
def overwritten (l : Line) (col width : Nat) (glyph : Cell) : Line :=
  l.mapIdx fun i old =>
    if i = col then glyph
    else if width = 2 ∧ i = col + 1 then { glyph with character := ' ', spacer := true }
    else if i + 1 = col ∧ spacerAt l col = true then { old with character := ' ' }
    else if i = col + width ∧ old.spacer = true then { old with character := ' ', spacer := false }
    else old

/-- **What releasing a glyph does to each cell.** -/
theorem getElem?_release (l : Line) (col i : Nat) :
    (release l col)[i]? = (l[i]?).map fun old =>
      if spacerAt l col = true then
        if i + 1 = col then old.withoutGlyph else if i = col then old.unspaced else old
      else if i = col + 1 ∧ old.spacer = true then old.withoutGlyph.unspaced else old := by
  cases hget : l[i]? with
  | none =>
    rw [Option.map_none, List.getElem?_eq_none]
    exact (length_release l col).symm ▸ List.getElem?_eq_none_iff.mp hget
  | some old =>
    rw [Option.map_some, release]
    by_cases hs : spacerAt l col = true
    · rw [if_pos hs, if_pos hs, List.getElem?_modify, Option.map_eq_map]
      by_cases hpos : 0 < col
      · rw [if_pos hpos, List.getElem?_modify, hget]
        grind
      · rw [if_neg hpos, hget]
        grind
    · rw [if_neg hs, if_neg hs]
      by_cases hi : i = col + 1
      · subst hi
        rw [spacerAt_eq hget]
        by_cases hspacer : old.spacer = true
        · rw [if_pos hspacer, if_pos ⟨rfl, hspacer⟩, List.getElem?_modify_eq, hget]
          rfl
        · rw [if_neg hspacer, if_neg fun hold => hspacer hold.2, hget]
      · have hold : ¬ (i = col + 1 ∧ old.spacer = true) := fun hold => hi hold.1
        rw [if_neg hold]
        split
        · rw [List.getElem?_modify_ne _ _ (Ne.symm hi), hget]
        · exact hget

/-- **Putting a glyph**, read off the line as it was. -/
theorem put_eq_overwritten (h : spacerAt l col = true → spacerAt l (col + 1) = false)
    (hw : width = 1 ∨ width = 2) (hreach : col + width ≤ l.length) (glyph : Cell) :
    put l col width glyph = overwritten l col width glyph := by
  refine List.ext_getElem? fun i => ?_
  rw [overwritten, List.getElem?_mapIdx]
  rcases hw with rfl | rfl
  · rw [put, if_neg (by decide), List.getElem?_set, length_release]
    by_cases hi : col = i
    · subst hi
      rw [if_pos rfl, if_pos (by omega), List.getElem?_eq_getElem (by omega)]
      simp
    · rw [if_neg hi, getElem?_release]
      cases hget : l[i]? with
      | none => rfl
      | some old =>
        have hold : i = col + 1 → spacerAt l (col + 1) = old.spacer := fun hi => by
          rw [← spacerAt_eq hget, hi]
        simp only [Option.map_some, Cell.withoutGlyph, Cell.unspaced]
        grind
  · -- once the first column is released, the second holds no spacer
    have hnone : spacerAt (release l col) (col + 1) = false := by
      rw [spacerAt, getElem?_release]
      cases hget : l[col + 1]? with
      | none => rfl
      | some old =>
        have hold := spacerAt_eq hget
        simp only [Option.map_some, Option.any_some, apply_ite Cell.spacer, Cell.withoutGlyph,
          Cell.unspaced]
        grind
    rw [put, if_pos rfl, List.getElem?_set, List.length_set, length_release, length_release]
    by_cases hi : col = i
    · subst hi
      rw [if_pos rfl, if_pos (by omega), List.getElem?_eq_getElem (by omega)]
      simp
    · rw [if_neg hi, List.getElem?_set, length_release, length_release]
      by_cases hi' : col + 1 = i
      · subst hi'
        rw [if_pos rfl, if_pos (by omega), List.getElem?_eq_getElem (by omega)]
        simp
      · rw [if_neg hi', getElem?_release, getElem?_release, hnone]
        cases hget : l[i]? with
        | none => rfl
        | some old =>
          simp only [Option.map_some, Cell.withoutGlyph, Cell.unspaced]
          grind

/-- The spacers of an overwritten line. -/
theorem spacerAt_overwritten (hreach : col + width ≤ l.length) (hw : width = 1 ∨ width = 2) :
    spacerAt (overwritten l col width glyph) i =
      if i = col then glyph.spacer else if width = 2 ∧ i = col + 1 then true
      else if i = col + width then false else spacerAt l i := by
  have hnew : (overwritten l col width glyph)[i]? = _ := List.getElem?_mapIdx
  cases hget : l[i]? with
  | none =>
    have hi := List.getElem?_eq_none_iff.mp hget
    rw [hget, Option.map_none] at hnew
    rw [if_neg (by omega), if_neg (by omega), spacerAt, hnew, spacerAt, hget, Option.any_none,
      ite_self]
  | some old =>
    rw [hget, Option.map_some] at hnew
    rw [spacerAt_eq hnew, spacerAt_eq hget]
    simp only [apply_ite Cell.spacer]
    grind

/-- The cells of an overwritten line that are no spacers and hold a wide character. -/
theorem any_overwritten (hspace : wide ' ' = false) (hreach : col + width ≤ l.length)
    (hw : width = 1 ∨ width = 2) :
    ((overwritten l col width glyph)[i]?.any fun c => !c.spacer && wide c.character) =
      if i = col then !glyph.spacer && wide glyph.character
      else if (width = 2 ∧ i = col + 1) ∨ (i + 1 = col ∧ spacerAt l col = true) ∨
          (i = col + width ∧ spacerAt l i = true) then false
      else l[i]?.any fun c => !c.spacer && wide c.character := by
  have hnew : (overwritten l col width glyph)[i]? = _ := List.getElem?_mapIdx
  cases hget : l[i]? with
  | none =>
    have hi := List.getElem?_eq_none_iff.mp hget
    rw [hget, Option.map_none] at hnew
    rw [hnew, if_neg (by omega), Option.any_none, ite_self]
  | some old =>
    rw [hget, Option.map_some] at hnew
    rw [hnew, spacerAt_eq hget, Option.any_some, Option.any_some]
    grind

/-- **An overwritten line is paired again.** -/
theorem PairedBy.overwritten (h : l.PairedBy wide) (hspace : wide ' ' = false)
    (hspacer : glyph.spacer = false) (hwide : wide glyph.character = decide (width = 2))
    (hw : width = 1 ∨ width = 2) (hreach : col + width ≤ l.length) :
    (overwritten l col width glyph).PairedBy wide := by
  constructor
  · rw [spacerAt_overwritten hreach hw, hspacer, h.first]
    grind
  · intro i
    rw [spacerAt_overwritten hreach hw, any_overwritten hspace hreach hw, hspacer, hwide,
      ← h.next i]
    -- no spacer is behind the one that the glyph cut off its first half
    have hapart : spacerAt l i = true → spacerAt l (i + 1) = false := h.apart
    grind

/-- **Writing over a paired line keeps it paired**, whichever halves it hits. -/
theorem linked_put (h : l.Linked false) (hw : width = 1 ∨ width = 2)
    (hreach : col + width ≤ l.length) (hlead : leads c = decide (width = 2))
    (hspacer : c.spacer = false) : (put l col width c).Linked false := by
  have hpaired := linked_iff.mp h
  have hwide : Width.isWide c.character = decide (width = 2) := by
    rw [← hlead, leads, hspacer]
    rfl
  rw [put_eq_overwritten hpaired.apart hw hreach]
  exact linked_iff.mpr (hpaired.overwritten (by decide) hspacer hwide hw hreach)

end Put

/-! ### Unwritten, cut and mended lines -/

/-- An unwritten line has no spacers and no wide characters. -/
theorem pairedBy_empty (hspace : wide ' ' = false) (cols : Nat) : (empty cols).PairedBy wide := by
  have hany : ∀ (p : Cell → Bool) i, p .empty = false → (empty cols)[i]?.any p = false :=
    fun p i hp => by
      rw [empty, List.getElem?_replicate]
      split
      · exact hp
      · rfl
  have hlead : (!Cell.empty.spacer && wide Cell.empty.character) = false :=
    (Bool.true_and _).trans hspace
  exact ⟨hany _ 0 rfl, fun col => (hany _ (col + 1) rfl).trans (hany _ col hlead).symm⟩

theorem linked_empty (cols : Nat) : (empty cols).Linked false :=
  linked_iff.mpr (pairedBy_empty (by decide) cols)

/-- In a line that is cut, a test fails behind the cut. -/
theorem any_getElem?_take {p : Cell → Bool} (n : Nat) :
    (l.take n)[i]?.any p = (l[i]?.any p && decide (i < n)) := by
  rw [List.getElem?_take]
  by_cases hi : i < n
  · rw [if_pos hi, decide_eq_true hi, Bool.and_true]
  · rw [if_neg hi, decide_eq_false hi, Bool.and_false]
    rfl

/-- Cells that fail a test and fill a line up change none of its outcomes. -/
theorem any_getElem?_pad {p : Cell → Bool} (hp : p .empty = false) (n : Nat) :
    (l ++ List.replicate n Cell.empty)[i]?.any p = l[i]?.any p := by
  rw [List.getElem?_append]
  split
  · rfl
  · rename_i hi
    rw [List.getElem?_replicate, List.getElem?_eq_none (Nat.le_of_not_lt hi)]
    split
    · exact hp
    · rfl

/-- Closing the edge changes no spacers. -/
theorem spacerAt_closeEdge : spacerAt (closeEdge l) i = spacerAt l i :=
  any_getElem?_modify_of_eq fun c _ => by split <;> rfl

/-- Closing the edge takes the first half from the last column. -/
theorem leadAt_closeEdge : leadAt (closeEdge l) i = (leadAt l i && decide (i ≠ l.length - 1)) := by
  refine any_getElem?_modify_of_false fun c => ?_
  split
  · exact leads_of_blank rfl
  · exact Bool.eq_false_iff.mpr ‹_›

/-- **A line of another length is paired** if the line was. -/
theorem linked_resize (h : l.Linked false) (cols : Nat) : (resize l cols).Linked false := by
  unfold resize
  split
  · rename_i hcut
    have hs : ∀ i, spacerAt (closeEdge (l.take cols)) i = (spacerAt l i && decide (i < cols)) :=
      fun i => spacerAt_closeEdge.trans (any_getElem?_take cols)
    have hlen : (l.take cols).length = cols := List.length_take_of_le (Nat.le_of_lt hcut)
    refine ⟨by rw [hs, h.first, Bool.false_and], fun i => ?_⟩
    -- the last column that is kept loses a first half
    have hedge : (decide (i < cols) && decide (i ≠ cols - 1)) = decide (i + 1 < cols) := by
      rw [← Bool.decide_and]
      exact decide_eq_decide.mpr (by omega)
    rw [hs, leadAt_closeEdge, hlen, leadAt, any_getElem?_take, Bool.and_assoc, hedge, h.next]
    rfl
  · have hs : ∀ i, spacerAt (l ++ List.replicate (cols - l.length) Cell.empty) i = spacerAt l i :=
      fun i => any_getElem?_pad rfl _
    refine ⟨(hs 0).trans h.first, fun i => ?_⟩
    rw [hs, h.next]
    exact (any_getElem?_pad (leads_of_blank rfl) _).symm

/-- A cell that is a spacer if it must be, before a line that goes on from it. -/
theorem linked_cons {led : Bool} (hs : c.spacer = led) (h : l.Linked (leads c)) :
    Linked led (c :: l) := by
  refine ⟨hs, fun col => ?_⟩
  cases col with
  | zero => exact h.first
  | succ col => exact h.next col

/-- Mending links a line to the cell before it, if a first half there has its spacer. -/
theorem linked_mendAfter (previous : Option Cell)
    (h : previous.any leads = true → l.head?.any Cell.spacer = true) :
    (mendAfter previous l).Linked (previous.any leads) := by
  induction l generalizing previous with
  | nil =>
    have hled : previous.any leads = false := Bool.eq_false_iff.mpr fun hled => nomatch h hled
    rw [hled]
    exact ⟨rfl, fun _ => rfl⟩
  | cons c rest ih =>
    rw [mendAfter]
    cases hs : c.spacer with
    | true =>
      rw [if_pos rfl]
      by_cases hled : previous.any leads = true
      · have hlead : leads c = false := by rw [leads, hs]; rfl
        rw [if_pos hled, hled]
        exact linked_cons hs (ih (some c) fun hc => absurd (hlead ▸ hc) Bool.false_ne_true)
      · have hlead : leads c.withoutGlyph.unspaced = false := leads_of_blank rfl
        rw [if_neg hled, Bool.eq_false_iff.mpr hled]
        exact linked_cons rfl
          (ih (some c.withoutGlyph.unspaced) fun hc => absurd (hlead ▸ hc) Bool.false_ne_true)
    | false =>
      have hled : previous.any leads = false :=
        Bool.eq_false_iff.mpr fun hled => Bool.false_ne_true (hs.symm.trans (h hled))
      rw [if_neg Bool.false_ne_true, hled]
      by_cases hlost : (leads c && !rest.head?.any Cell.spacer) = true
      · have hlead : leads c.withoutGlyph = false := leads_of_blank rfl
        rw [if_pos hlost]
        exact linked_cons hs
          (ih (some c.withoutGlyph) fun hc => absurd (hlead ▸ hc) Bool.false_ne_true)
      · rw [if_neg hlost]
        refine linked_cons hs (ih (some c) fun hc => ?_)
        rw [Option.any_some] at hc
        rw [hc, Bool.true_and, Bool.not_eq_true', Bool.not_eq_false] at hlost
        exact hlost

/-- **A mended line is paired**, whatever it was before. -/
theorem linked_mend (l : Line) : (mend l).Linked false := linked_mendAfter none nofun

/-! ### Blanking cells -/

/-- The line with blanks in the columns that `q` picks. -/
def blankIf (l : Line) (q : Nat → Bool) (blank : Cell) : Line :=
  l.mapIdx fun col c => if q col then blank else c

section Blank
variable {q : Nat → Bool} {blank : Cell}

/-- Blanking takes the spacers in the columns it picks. -/
theorem spacerAt_blankIf (hbs : blank.spacer = false) :
    spacerAt (blankIf l q blank) col = (spacerAt l col && !q col) := by
  rw [spacerAt, blankIf, List.getElem?_mapIdx, spacerAt]
  cases l[col]? with
  | none => rfl
  | some c => cases q col <;> simp [hbs]

/-- Blanking takes the first halves in the columns it picks. -/
theorem leadAt_blankIf (hb : blank.character = ' ') :
    leadAt (blankIf l q blank) col = (leadAt l col && !q col) := by
  rw [leadAt, blankIf, List.getElem?_mapIdx, leadAt]
  cases l[col]? with
  | none => rfl
  | some c => cases q col <;> simp [leads_of_blank hb]

/-- **Blanking keeps a line paired exactly if it takes both halves of each wide glyph or none.** -/
theorem linked_blankIf_iff (hb : blank.character = ' ') (hbs : blank.spacer = false)
    (h : l.Linked false) :
    (blankIf l q blank).Linked false ↔
      ∀ col, spacerAt l (col + 1) = true → q col = q (col + 1) := by
  have hs : ∀ col, spacerAt (blankIf l q blank) col = (spacerAt l col && !q col) :=
    fun _ => spacerAt_blankIf hbs
  have hl : ∀ col, leadAt (blankIf l q blank) col = (leadAt l col && !q col) :=
    fun _ => leadAt_blankIf hb
  constructor
  · intro h' col hspacer
    have hnext := h'.next col
    rw [hs, hl, ← h.next, hspacer, Bool.true_and, Bool.true_and] at hnext
    exact (Bool.not_inj hnext).symm
  · intro hq
    refine ⟨?_, fun col => ?_⟩
    · rw [hs, h.first, Bool.false_and]
    · rw [hs, hl, ← h.next]
      cases hspacer : spacerAt l (col + 1) with
      | true => rw [hq col hspacer]
      | false => rfl

end Blank

end Line

end VirtualTerminal
