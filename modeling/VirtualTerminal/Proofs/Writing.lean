import VirtualTerminal.Proofs.Overflow
import VirtualTerminal.Proofs.PendingWrap
import VirtualTerminal.Proofs.Rows

/-!
# Writing — what one character changes

A character may first go to another place (`Screen.Readied`): to the next line, where a wrap is
pending or wrapping is on and the columns left do not hold it, or to the last columns that do, where
wrapping is off.  There it is put into one or two cells of the line, and at most two others change:
what is left of a wide glyph that it hits becomes a space (`Line.overwritten`).

**Writing is local** (`Screen.write_is_local`).
-/

namespace VirtualTerminal

namespace Screen

variable {s s₁ : Screen} {wide : Char → Bool}

/-- The cursor went on to the first column of the next line.  On the bottom margin the lines of the
scroll region went up by one below it; anywhere else the lines are as they were. -/
def Wrapped (s s₁ : Screen) : Prop :=
  if s.cursor.row = s.margins.bottom then
    { s with cursor := ⟨s.cursor.row, 0⟩, pendingWrap := false }.MovedUp s.margins.top
      s.margins.bottom 1 s₁
  else
    s₁ = { s with cursor := ⟨min (s.cursor.row + 1) (s.dims.rows - 1), 0⟩, pendingWrap := false }

/-- The place for a character of this width is reached: by a wrap if one was pending, or if wrapping
is on and the line has no columns left for it, and else by a step back where they are missing. -/
def Readied (s : Screen) (width : Nat) (s₁ : Screen) : Prop :=
  if s.pendingWrap = true ∨ (s.autowrap = true ∧ s.dims.cols < s.cursor.col + width) then
    s.Wrapped s₁
  else if s.dims.cols < s.cursor.col + width then
    s₁ = { s with cursor := ⟨s.cursor.row, s.dims.cols - width⟩ }
  else s₁ = s

/-- The wrap of a screen is one: the lines go up on the bottom margin, and stay elsewhere. -/
theorem wrapped_wrap (h : s.WellFormed) : s.Wrapped s.wrap := by
  unfold Wrapped wrap indexDown
  dsimp only
  split
  · exact movedUp_shiftLinesUp (h.withCursor h.row_lt h.cols_pos false) h.top_le h.bottom_lt 1
  · have hrow := h.row_lt
    split
    · rw [Nat.min_eq_left (by omega)]
    · rw [Nat.min_eq_right (by omega), show s.dims.rows - 1 = s.cursor.row by omega]

/-- A pending wrap that is carried out writes no cell. -/
theorem Moves.wrapPending (s : Screen) : s.Moves s.wrapPending := by
  unfold Screen.wrapPending
  split
  · exact .wrap s
  · exact .refl s

theorem WellFormed.wrapPending (h : s.WellFormed) : s.wrapPending.WellFormed := by
  unfold Screen.wrapPending
  split
  · exact h.wrap
  · exact h

/-- **Making room reaches the place** that a character of this width goes to. -/
theorem readied_makeRoom (h : s.WellFormed) {width : Nat} (hw : width ≤ s.dims.cols) :
    s.Readied width (s.wrapPending.makeRoom width (s.wrapPending.cursor.col + width)) := by
  unfold Readied
  by_cases hpending : s.pendingWrap = true
  · have hwrap : s.wrapPending = s.wrap := if_pos hpending
    -- behind a wrap the cursor is in the first column, where there is room
    rw [if_pos (.inl hpending), hwrap, makeRoom, col_wrap, dims_wrap, if_neg (by omega)]
    exact wrapped_wrap h
  · rw [wrapPending, if_neg hpending, makeRoom]
    by_cases hroom : s.dims.cols < s.cursor.col + width
    · by_cases hauto : s.autowrap = true
      · rw [if_pos (.inr ⟨hauto, hroom⟩), if_pos hroom, if_pos hauto]
        exact wrapped_wrap h
      · rw [if_neg (not_or.mpr ⟨hpending, fun hwrap => hauto hwrap.1⟩), if_pos hroom, if_pos hroom,
          if_neg hauto]
    · rw [if_neg (not_or.mpr ⟨hpending, fun hwrap => hroom hwrap.2⟩), if_neg hroom, if_neg hroom]

/-- Every line is paired, by the characters that are wide. -/
def PairedBy (wide : Char → Bool) (s : Screen) : Prop := ∀ l ∈ s.lines, l.PairedBy wide

/-- Lines that only move stay paired. -/
theorem PairedBy.moves (h : s.PairedBy wide) (hspace : wide ' ' = false) (hs : s.Moves s₁) :
    s₁.PairedBy wide := by
  intro l hl
  rcases hs l hl with hl | ⟨cols, rfl⟩
  · exact h l hl
  · exact Line.pairedBy_empty hspace cols

/-- Linked is paired by the characters of more than one column. -/
theorem linked_iff : s.Linked ↔ s.PairedBy Width.isWide := forall₂_congr fun _ _ => Line.linked_iff

/-- Paired is paired by the characters of two columns, with no glyph in a spacer. -/
theorem paired_iff : s.Paired ↔ s.PairedBy Line.takesTwo ∧ s.All Line.SpacersHoldNoGlyph :=
  (forall₂_congr fun _ _ => Line.paired_iff).trans
    ⟨fun h => ⟨fun l hl => (h l hl).1, fun l hl => (h l hl).2⟩, fun h l hl => ⟨h.1 l hl, h.2 l hl⟩⟩

theorem spacersHoldNoGlyph_glyph (s : Screen) (c : Char) :
    Line.SpacersHoldNoGlyph (s.glyph c) := nofun

/-- The screen after a glyph of this width is put at the cursor. -/
def overwritten (s : Screen) (width : Nat) (glyph : Cell) : Screen :=
  { s with
    lines := s.lines.modify s.cursor.row fun l => l.overwritten s.cursor.col width glyph
    cursor := ⟨s.cursor.row, min (s.cursor.col + width) (s.dims.cols - 1)⟩
    pendingWrap := s.autowrap && decide (s.cursor.col + width = s.dims.cols) }

section Overwritten
variable (h : s.WellFormed) {width : Nat} (hw : width = 1 ∨ width = 2)
  (hreach : s.cursor.col + width ≤ s.dims.cols)
include h hw hreach

/-- On paired lines a placed glyph overwrites as `Line.overwritten` says. -/
theorem place_eq_overwritten (hpaired : s.PairedBy wide) (hpending : s.pendingWrap = false)
    (c : Char) : s.place width c = s.overwritten width (s.glyph c) := by
  have hlines : s.lines.modify s.cursor.row (fun l => l.put s.cursor.col width (s.glyph c)) =
      s.lines.modify s.cursor.row (fun l => l.overwritten s.cursor.col width (s.glyph c)) := by
    obtain ⟨line, hline, hlen⟩ := h.exists_line h.row_lt
    have hget := List.mem_of_getElem? hline
    rw [List.modify_eq_set, List.modify_eq_set, hline, Option.getD_some,
      Line.put_eq_overwritten (fun hs => (hpaired line hget).apart hs) hw (hlen ▸ hreach)]
  unfold place overwritten modifyCursorLine
  dsimp only
  rw [hlines]
  have hcol := h.col_lt
  split
  · rw [Nat.min_eq_right (by omega), decide_eq_true (by omega), Bool.and_true]
  · rw [Nat.min_eq_left (by omega), decide_eq_false (by omega), Bool.and_false, hpending]

/-- A glyph with its own spacer leaves the lines paired. -/
theorem PairedBy.overwritten (hpaired : s.PairedBy wide) (hspace : wide ' ' = false) {glyph : Cell}
    (hspacer : glyph.spacer = false) (hwide : wide glyph.character = decide (width = 2)) :
    (s.overwritten width glyph).PairedBy wide := by
  intro l hl
  obtain ⟨l', hl', rfl | rfl⟩ := exists_of_mem_modify hl
  · exact hpaired l hl'
  · exact (hpaired l' hl').overwritten hspace hspacer hwide hw (h.length_line l' hl' ▸ hreach)

end Overwritten

/-- A character that takes up no column, or too many, is not written. -/
theorem write?_eq_self {c : Char}
    (hc : ∀ width, Width.columns? c = some width → width = 0 ∨ s.dims.cols < width) :
    s.write? c = some s := by
  rw [write?]
  cases hcolumns : Width.columns? c with
  | none => rfl
  | some width => exact if_pos (hc width hcolumns)

section Written
variable (h : s.WellFormed) (hcols : s.dims.cols < Word.max) {c : Char} {width : Nat}
  (hcolumns : Width.columns? c = some width) (hw : width = 1 ∨ width = 2)
  (hle : width ≤ s.dims.cols)
include h hcols hcolumns hw hle

/-- A character that the screen is wide enough for is placed once its place is reached. -/
theorem write?_eq_place :
    s.write? c =
      some ((s.wrapPending.makeRoom width (s.wrapPending.cursor.col + width)).place width c) := by
  have hreach : s.wrapPending.cursor.col + width < Word.limit := by
    simp only [Word.max, Word.limit] at hcols ⊢
    rw [wrapPending]
    split
    · rw [col_wrap]
      omega
    · have := h.col_lt
      omega
  rw [write?, hcolumns]
  dsimp only
  rw [if_neg (by omega), writeWide?]
  change (Word.add? s.wrapPending.cursor.col width).bind _ = _
  rw [Word.add?_of_lt hreach]
  rfl

/-- The place that a character goes to, and what is there afterwards. -/
theorem exists_readied (hpaired : s.PairedBy wide) (hspace : wide ' ' = false) :
    ∃ s₁, s.Readied width s₁ ∧ s.Moves s₁ ∧ s₁.WellFormed ∧ s₁.dims = s.dims ∧
      s₁.cursor.col + width ≤ s.dims.cols ∧
      s.write? c = some (s₁.overwritten width (s.glyph c)) := by
  -- wrapping and making room change lines, cursor and pending wrap only, so the glyph is the same
  obtain ⟨lines, cursor, hfirst⟩ := s.exists_wrapPending
  obtain ⟨lines', cursor', hroom⟩ := s.wrapPending.exists_makeRoom (by rw [hfirst]) width
    (s.wrapPending.cursor.col + width)
  have hmoves : s.Moves (s.wrapPending.makeRoom width (s.wrapPending.cursor.col + width)) :=
    (Moves.wrapPending s).trans (.makeRoom _ _ _)
  have hpos : 0 < width := by omega
  have hwell := h.wrapPending.makeRoom hpos (s.wrapPending.cursor.col + width)
  have hdims : s.wrapPending.dims = s.dims := by rw [hfirst]
  have hfits := col_makeRoom_add_le (s := s.wrapPending) (hdims ▸ hle)
  have hwrite := write?_eq_place h hcols hcolumns hw hle
  rw [place_eq_overwritten hwell hw (by rwa [dims_makeRoom]) (hpaired.moves hspace hmoves)
    (by rw [hroom, hfirst])] at hwrite
  refine ⟨_, readied_makeRoom h hle, hmoves, hwell, (dims_makeRoom ..).trans hdims,
    hdims ▸ hfits, hwrite.trans ?_⟩
  rw [hroom, hfirst]
  rfl

/-- **Printing keeps the lines paired**, by whatever tells the wide characters. -/
theorem PairedBy.write? (hpaired : s.PairedBy wide) (hspace : wide ' ' = false)
    (hwide : wide c = decide (width = 2)) {s' : Screen} (hs : s.write? c = some s') :
    s'.PairedBy wide := by
  obtain ⟨s₁, -, hmoves, hwell, hdims, hfits, hwrite⟩ :=
    exists_readied h hcols hcolumns hw hle hpaired hspace
  obtain rfl := Option.some.inj (hs.symm.trans hwrite)
  exact (hpaired.moves hspace hmoves).overwritten hwell hw (hdims ▸ hfits) hspace rfl hwide

end Written

/-- **Writing is local.**  A character of no or zero width, or one wider than the screen, changes
nothing.  Any other of one or two columns first has its place reached.  There it is put into the
line, in the current style, link and mark and with its spacer if it takes two columns; what it cuts
off a wide glyph before it or behind it becomes a space, no other cell of the screen changes, and
the lines are paired again, whether a wide character is taken to be one of two columns or one of
more than one.  The cursor goes behind the character, or stays on the last column, where it then
arms a wrap if wrapping is on.  And the vector that holds the rows one behind another is written
into the same rows. -/
theorem write_is_local (h : s.WellFormed) (hd : s.dims.Fits) (hcols : s.dims.cols < Word.max)
    (hpaired : s.Paired ∨ s.Linked) (c : Char) :
    ((∀ width, Width.columns? c = some width → width = 0 ∨ s.dims.cols < width) →
      s.write? c = some s ∧ s.raster.write c = .ok s.raster) ∧
    ∀ width, Width.columns? c = some width → width = 1 ∨ width = 2 → width ≤ s.dims.cols →
      ∃ s₁ s', s.Readied width s₁ ∧ s₁.cursor.col + width ≤ s.dims.cols ∧
        s' = s₁.overwritten width (s.glyph c) ∧
        s.write? c = some s' ∧ s.raster.write c = .ok s'.raster ∧
        (s.Paired → s'.Paired) ∧ (s.Linked → s'.Linked) := by
  refine ⟨fun hc => ⟨write?_eq_self hc, ?_⟩, fun width hcolumns hw hle => ?_⟩
  · rw [write_eq h hd, write?_eq_self hc]
    rfl
  · have htwo : Line.takesTwo c = decide (width = 2) := by
      simp only [Line.takesTwo, hcolumns, Option.some.injEq]
    have hwide : Width.isWide c = decide (width = 2) := by
      rw [Width.isWide, hcolumns]
      exact decide_eq_decide.mpr (by omega)
    obtain ⟨s₁, hready, -, -, -, hfits, hwrite⟩ : ∃ s₁, s.Readied width s₁ ∧ s.Moves s₁ ∧
        s₁.WellFormed ∧ s₁.dims = s.dims ∧ s₁.cursor.col + width ≤ s.dims.cols ∧
        s.write? c = some (s₁.overwritten width (s.glyph c)) := by
      rcases hpaired with hp | hl
      · exact exists_readied h hcols hcolumns hw hle (paired_iff.mp hp).1 (by decide)
      · exact exists_readied h hcols hcolumns hw hle (linked_iff.mp hl) (by decide)
    refine ⟨s₁, _, hready, hfits, rfl, hwrite, ?_, fun hp => ?_, fun hl => ?_⟩
    · rw [write_eq h hd, hwrite]
      rfl
    · obtain ⟨htwos, hspacers⟩ := paired_iff.mp hp
      exact paired_iff.mpr
        ⟨htwos.write? h hcols hcolumns hw hle (by decide) htwo hwrite,
          hspacers.write? Line.stable_spacersHoldNoGlyph (fun s _ _ => spacersHoldNoGlyph_glyph s c)
            hwrite⟩
    · exact linked_iff.mpr
        ((linked_iff.mp hl).write? h hcols hcolumns hw hle (by decide) hwide hwrite)

/-- Two wide glyphs, and the cursor in the second half of the first. -/
def seamed : Screen :=
  let spacer : Cell := { spacer := true }
  { Screen.blank ⟨1, 4⟩ with
    lines := [[.ofChar '世', spacer, .ofChar '界', spacer]]
    cursor := ⟨0, 1⟩ }

/-- The cursor is inside, if in the middle of a glyph. -/
theorem wellFormed_seamed : seamed.WellFormed := by
  constructor <;> decide

/-- Its line is a mended one. -/
theorem linked_seamed : seamed.Linked := by
  intro l hl
  obtain rfl := List.mem_singleton.mp hl
  have hmend : Line.mend [.ofChar '世', { spacer := true }, .ofChar '界', { spacer := true }] =
      [.ofChar '世', { spacer := true }, .ofChar '界', { spacer := true }] := by decide +kernel
  exact hmend ▸ Line.linked_mend _

/-- A wide glyph over the seam of two others takes a half from each, and the halves left become
spaces. -/
theorem write_is_local_seamed :
    ∃ s', seamed.write? '中' = some s' ∧ seamed.raster.write '中' = .ok s'.raster ∧ s'.Linked ∧
      s'.lines.map (fun l => l.map fun c => (c.character, c.spacer)) =
        [[(' ', false), ('中', false), (' ', true), (' ', false)]] ∧
      s'.cursor = ⟨0, 3⟩ ∧ s'.pendingWrap = false := by
  obtain ⟨s₁, s', hready, -, rfl, hwrite, hraster, -, hlinked⟩ :=
    (write_is_local wellFormed_seamed ⟨by decide, by decide⟩ (by decide) (.inr linked_seamed)
      '中').2 2 (by decide +kernel) (.inr rfl) (by decide)
  rw [Readied, if_neg (by decide), if_neg (by decide)] at hready
  subst hready
  exact ⟨_, hwrite, hraster, hlinked linked_seamed, by decide +kernel, rfl, rfl⟩

end Screen

end VirtualTerminal
