import VirtualTerminal.Error
import VirtualTerminal.Proofs.Pairing.Screen
import VirtualTerminal.Proofs.Raster.Refinement

/-!
# Resizing — what another size leaves

Each cell of a resized screen is read off the screen before (`Screen.cellAfter`): it is what its
place held, an unwritten cell where there was none, and a space where the new edge would cut a wide
glyph.

Making a screen larger and then as large as it was cuts no glyph, unless one was cut before.  None
ever is: no call of an emulator leaves the first half of a wide glyph in the last column
(`Screen.Closed`), since a glyph is put where it fits, and whatever else moves or cuts cells mends or
closes the line.  So every screen comes back from a larger size as it was
(`Emulator.resizes_by_cells`).

Nothing is said here of characters of three columns: they have no spacer, and the cell they are in is
cut as well as any other.
-/

namespace VirtualTerminal

/-! ### Spacers -/

/-- A spacer holds a blank. -/
def Cell.BlankSpacer (c : Cell) : Prop := c.spacer = true → c.character = ' '

/-- Blanking makes no spacer hold a glyph. -/
theorem Cell.Stable.blankSpacer : Stable BlankSpacer where
  of_blank h _ := h
  unspaced _ := nofun

/-- A spacer that becomes an ordinary cell is no first half. -/
theorem Cell.BlankSpacer.leads_of_unspaced {c : Cell} (h : c.BlankSpacer)
    (hlead : Line.leads c.unspaced = true) : Line.leads c = true := by
  cases hs : c.spacer with
  | true =>
    have hblank : c.unspaced.character = ' ' := h hs
    rw [Line.leads_of_blank hblank] at hlead
    cases hlead
  | false =>
    rw [Line.leads, hs]
    exact hlead

/-! ### Lines -/

namespace Line

variable {l : Line} {i col : Nat} {c : Cell}

/-- Closing the edge changes no column but the last. -/
theorem getElem?_closeEdge (l : Line) (col : Nat) :
    (closeEdge l)[col]? =
      (l[col]?).map fun c => if col + 1 = l.length ∧ leads c = true then c.withoutGlyph else c := by
  rw [closeEdge, List.getElem?_modify, Option.map_eq_map]
  cases hget : l[col]? with
  | none => rfl
  | some c =>
    obtain ⟨hcol, -⟩ := List.getElem?_eq_some_iff.mp hget
    by_cases hedge : col + 1 = l.length
    · simp [hedge, show l.length - 1 = col by omega]
    · simp [hedge, show l.length - 1 ≠ col by omega]

/-- Each cell of a line of another length: a first half that the new edge cuts off becomes a space,
and what the line did not have is unwritten. -/
theorem getElem?_resize (l : Line) (cols col : Nat) :
    (resize l cols)[col]? =
      if col < cols then
        some ((l[col]?).elim .empty fun c =>
          if cols < l.length ∧ col + 1 = cols ∧ leads c = true then c.withoutGlyph else c)
      else none := by
  unfold resize
  by_cases hcut : cols < l.length
  · rw [if_pos hcut, getElem?_closeEdge, List.getElem?_take,
      List.length_take_of_le (Nat.le_of_lt hcut)]
    by_cases hcol : col < cols
    · rw [if_pos hcol, if_pos hcol, List.getElem?_eq_getElem (Nat.lt_trans hcol hcut),
        Option.map_some, Option.elim_some]
      simp only [hcut, true_and]
    · rw [if_neg hcol, if_neg hcol, Option.map_none]
  · rw [if_neg hcut, List.getElem?_append]
    by_cases hold : col < l.length
    · rw [if_pos hold, if_pos (by omega), List.getElem?_eq_getElem hold, Option.elim_some,
        if_neg fun hlast => hcut hlast.1]
    · rw [if_neg hold, List.getElem?_replicate, List.getElem?_eq_none (Nat.le_of_not_lt hold),
        Option.elim_none]
      by_cases hcol : col < cols
      · rw [if_pos hcol, if_pos (by omega)]
      · rw [if_neg hcol, if_neg (by omega)]

/-- No first half is in the last column. -/
def EdgeClear (l : Line) : Prop := leadAt l (l.length - 1) = false

/-- A line that has got longer is cut back to what it was, if it does not end in a first half. -/
theorem resize_resize (h : l.EdgeClear) (n : Nat) :
    resize (resize l (l.length + n)) l.length = l := by
  refine List.ext_getElem? fun col => ?_
  rw [getElem?_resize, getElem?_resize]
  by_cases hcol : col < l.length
  · have hget := List.getElem?_eq_getElem hcol
    have hlast : ¬ (l.length < l.length + n ∧ col + 1 = l.length ∧ leads l[col] = true) := by
      rintro ⟨-, hedge, hlead⟩
      rw [EdgeClear, show l.length - 1 = col by omega, leadAt, hget, Option.any_some, hlead] at h
      cases h
    rw [if_pos hcol, if_pos (Nat.lt_add_right n hcol), hget]
    simp only [Option.elim_some, length_resize, show ¬ l.length + n < l.length by omega,
      false_and, if_false, if_neg hlast]
  · rw [if_neg hcol, List.getElem?_eq_none (Nat.le_of_not_lt hcol)]

/-! ### First halves in the last column -/

namespace EdgeClear

variable {l' : Line}

/-- A line that has first halves only where another of its length has. -/
theorem of_leadAt_imp (h : l.EdgeClear) (hlen : l'.length = l.length)
    (himp : ∀ i, leadAt l' i = true → leadAt l i = true) : l'.EdgeClear := by
  rw [EdgeClear, hlen]
  exact Bool.eq_false_iff.mpr fun hlead => Bool.eq_false_iff.mp h (himp _ hlead)

/-- On a paired line a first half has its spacer behind it. -/
theorem of_linked (h : l.Linked false) : l.EdgeClear := by
  cases l with
  | nil => rfl
  | cons c l =>
    rw [EdgeClear, ← h.next, spacerAt,
      List.getElem?_eq_none (by rw [List.length_cons]; exact Nat.le_refl _)]
    rfl

theorem empty (cols : Nat) : (empty cols).EdgeClear := of_linked (linked_empty cols)

theorem blankIf (h : l.EdgeClear) (q : Nat → Bool) {blank : Cell} (hb : blank.character = ' ') :
    (blankIf l q blank).EdgeClear := by
  refine h.of_leadAt_imp List.length_mapIdx fun i hlead => ?_
  rw [leadAt_blankIf hb] at hlead
  exact (Bool.and_eq_true _ _ ▸ hlead).1

/-- A line that is cut has its edge closed; one that is filled up ends in unwritten cells. -/
theorem resize (h : l.EdgeClear) (cols : Nat) : (resize l cols).EdgeClear := by
  refine Bool.eq_false_iff.mpr fun hlead => ?_
  obtain ⟨c, hget, hc⟩ := leadAt_eq_true_iff.mp hlead
  rw [length_resize, getElem?_resize] at hget
  by_cases hpos : cols - 1 < cols
  · rw [if_pos hpos] at hget
    obtain rfl := Option.some.inj hget
    cases hold : l[cols - 1]? with
    | none =>
      rw [hold] at hc
      cases hc
    | some c =>
      obtain ⟨hcol, -⟩ := List.getElem?_eq_some_iff.mp hold
      rw [hold, Option.elim_some] at hc
      split at hc
      · rw [leads_of_blank rfl] at hc
        cases hc
      · next hkept =>
        -- the old edge was no farther, and clear
        have hwide : ¬ cols < l.length := fun hcut => hkept ⟨hcut, by omega, hc⟩
        have hedge : cols - 1 = l.length - 1 := by omega
        exact Bool.eq_false_iff.mp h (leadAt_eq_true_iff.mpr ⟨c, hedge ▸ hold, hc⟩)
  · rw [if_neg hpos] at hget
    cases hget

end EdgeClear

section Put
variable {width : Nat}

/-- A change that makes no first half leaves none where there was none. -/
theorem leadAt_of_modify {f : Cell → Cell} (hf : ∀ c ∈ l, leads (f c) = true → leads c = true)
    (h : leadAt (l.modify col f) i = true) : leadAt l i = true := by
  obtain ⟨c', hget, hc⟩ := leadAt_eq_true_iff.mp h
  rw [List.getElem?_modify, Option.map_eq_map] at hget
  obtain ⟨c, hold, rfl⟩ := Option.map_eq_some_iff.mp hget
  refine leadAt_eq_true_iff.mpr ⟨c, hold, ?_⟩
  split at hc
  · exact hf c (List.mem_of_getElem? hold) hc
  · exact hc

/-- A first half was there before, or it is the cell that was set. -/
theorem leadAt_of_set (h : leadAt (l.set col c) i = true) :
    leadAt l i = true ∨ i = col ∧ leads c = true := by
  obtain ⟨c', hget, hc⟩ := leadAt_eq_true_iff.mp h
  rw [List.getElem?_set] at hget
  split at hget
  · next hcol =>
    split at hget
    · exact .inr ⟨hcol.symm, Option.some.inj hget ▸ hc⟩
    · cases hget
  · exact .inl (leadAt_eq_true_iff.mpr ⟨c', hget, hc⟩)

/-- Releasing makes no first halves. -/
theorem leadAt_of_release (hb : l.Each Cell.BlankSpacer) (h : leadAt (release l col) i = true) :
    leadAt l i = true := by
  have hnone : ∀ c : Cell, c.character = ' ' → ∀ p : Prop, leads c = true → p := fun c hc p hlead =>
    absurd (leads_of_blank hc ▸ hlead) Bool.false_ne_true
  unfold release at h
  split at h
  · have hb' : Each Cell.BlankSpacer
        (if 0 < col then l.modify (col - 1) Cell.withoutGlyph else l) := by
      split
      · exact hb.modify fun _ _ _ => rfl
      · exact hb
    have hclear := leadAt_of_modify (fun c hc => (hb' c hc).leads_of_unspaced) h
    split at hclear
    · exact leadAt_of_modify (fun c _ => hnone _ rfl _) hclear
    · exact hclear
  · split at h
    · exact leadAt_of_modify (fun c _ => hnone _ rfl _) h
    · exact h

/-- Putting a glyph makes no first half but where it is put. -/
theorem leadAt_of_put (hb : l.Each Cell.BlankSpacer) (h : leadAt (put l col width c) i = true) :
    leadAt l i = true ∨ i = col ∧ leads c = true := by
  unfold put at h
  split at h
  · rcases leadAt_of_set h with h | hglyph
    · rcases leadAt_of_set h with h | ⟨-, hspacer⟩
      · exact .inl (leadAt_of_release hb (leadAt_of_release (hb.release .blankSpacer) h))
      · cases hspacer
    · exact .inr hglyph
  · exact (leadAt_of_set h).imp_left (leadAt_of_release hb)

/-- A wide glyph that is put has its spacer behind it, so it is not in the last column. -/
theorem EdgeClear.put (h : l.EdgeClear) (hb : l.Each Cell.BlankSpacer)
    (hfits : leads c = true → col + 2 ≤ l.length) : (put l col width c).EdgeClear := by
  refine Bool.eq_false_iff.mpr fun hlead => ?_
  rw [length_put] at hlead
  rcases leadAt_of_put hb hlead with hold | ⟨hcol, hc⟩
  · exact Bool.eq_false_iff.mp h hold
  · have := hfits hc
    omega

end Put

end Line

namespace Screen

/-! ### Screens that a run leads to -/

/-- Spacers hold blanks, and no first half of a wide glyph is in the last column. -/
structure Closed (s : Screen) : Prop where
  spacers : s.All Cell.BlankSpacer
  edges : ∀ l ∈ s.lines, l.EdgeClear

namespace Closed

variable {s s' : Screen}

/-- A blank screen is closed. -/
theorem blank (d : Dimensions) : (Screen.blank d).Closed where
  spacers := all_blank .blankSpacer d
  edges _ hl := List.eq_of_mem_replicate hl ▸ .empty _

section Edges
variable (h : ∀ l ∈ s.lines, l.EdgeClear)
include h

/-- Lines that move keep their edges. -/
theorem edges_of_moves (hs : s.Moves s') : ∀ l ∈ s'.lines, l.EdgeClear := by
  intro l hl
  rcases hs l hl with hl | ⟨cols, rfl⟩
  · exact h l hl
  · exact .empty cols

theorem edges_of_lines_eq (hs : s'.lines = s.lines) : ∀ l ∈ s'.lines, l.EdgeClear :=
  fun l hl => h l (hs ▸ hl)

theorem edges_modifyCursorLine {f : Line → Line} (hf : ∀ l ∈ s.lines, (f l).EdgeClear) :
    ∀ l ∈ (s.modifyCursorLine f).lines, l.EdgeClear := by
  intro l hl
  obtain ⟨l', hl', rfl | rfl⟩ := exists_of_mem_modify hl
  · exact h l hl'
  · exact hf l' hl'

/-- Mended lines are paired, so their edges are clear. -/
theorem edges_mend (f : Line → Line) :
    ∀ l ∈ (s.modifyCursorLine fun line => Line.mend (f line)).lines, l.EdgeClear :=
  edges_modifyCursorLine h fun l _ => .of_linked (Line.linked_mend (f l))

/-- Filling with a blank adds no first half. -/
theorem edges_fill (first last : Position) {c : Cell} (hc : c.character = ' ') :
    ∀ l ∈ (s.fill first last c).lines, l.EdgeClear := by
  intro l hl
  obtain ⟨row, hrow, rfl⟩ := List.mem_mapIdx.mp hl
  exact (h _ (List.getElem_mem hrow)).blankIf (between first last row) hc

/-- Resizing closes the edges. -/
theorem edges_resize? {d : Dimensions} (hs : s.resize? d = some s') :
    ∀ l ∈ s'.lines, l.EdgeClear := by
  obtain ⟨-, rfl | rfl⟩ := resize?_eq_some hs
  · exact h
  · intro l hl
    obtain ⟨l', hl', rfl⟩ | rfl := mem_resizeGrid hl
    · exact (h l' hl').resize d.cols
    · exact .empty d.cols

end Edges

/-- A glyph is placed where it fits. -/
theorem edges_place (h : s.Closed) (hwell : s.WellFormed) {width : Nat} {c : Char}
    (hc : Width.columns? c = some width) (hreach : s.cursor.col + width ≤ s.dims.cols) :
    ∀ l ∈ (s.place width c).lines, l.EdgeClear := by
  have hwide : Line.leads (s.glyph c) = true → 2 ≤ width := by
    intro hlead
    rw [Line.leads, show (s.glyph c).character = c from rfl, Width.isWide, hc] at hlead
    exact of_decide_eq_true ((Bool.and_eq_true _ _).mp hlead).2
  have hput : ∀ l ∈ (s.modifyCursorLine fun line =>
      Line.put line s.cursor.col width (s.glyph c)).lines, l.EdgeClear := by
    refine edges_modifyCursorLine h.edges fun l hl => ?_
    refine (h.edges l hl).put (h.spacers l hl) fun hlead => ?_
    rw [hwell.length_line l hl]
    exact Nat.le_trans (Nat.add_le_add_left (hwide hlead) _) hreach
  unfold Screen.place
  dsimp only
  split
  · exact edges_of_lines_eq hput rfl
  · exact edges_of_lines_eq hput rfl

/-- Printing wraps, or steps back, before it puts a wide glyph on the edge. -/
theorem edges_write? (h : s.Closed) (hwell : s.WellFormed) {c : Char}
    (hs : s.write? c = some s') : ∀ l ∈ s'.lines, l.EdgeClear := by
  obtain rfl | ⟨width, s₀, hcolumns, hpos, hw, hs₀, rfl⟩ := write?_eq_some hs
  · exact h.edges
  · obtain ⟨h₀, hdims, hmoves⟩ : s₀.WellFormed ∧ s₀.dims = s.dims ∧ s.Moves s₀ := by
      rcases hs₀ with rfl | rfl
      · exact ⟨hwell, rfl, .refl s₀⟩
      · exact ⟨hwell.wrap, dims_wrap s, .wrap s⟩
    have hroom := col_makeRoom_add_le (hdims ▸ hw : width ≤ s₀.dims.cols)
    have hdims₁ := dims_makeRoom s₀ width (s₀.cursor.col + width)
    have hmoved := hmoves.trans (.makeRoom s₀ width (s₀.cursor.col + width))
    exact edges_place ⟨h.spacers.moves .blankSpacer hmoved, edges_of_moves h.edges hmoved⟩
      (h₀.makeRoom hpos _) hcolumns (hdims₁ ▸ hroom)

/-- **One instruction** leaves no first half in the last column. -/
theorem edges_obey? (h : s.Closed) (hwell : s.WellFormed) {i : Instruction}
    (hs : i.obey? s = some s') : ∀ l ∈ s'.lines, l.EdgeClear := by
  cases i with
  | print c => exact h.edges_write? hwell hs
  | tab =>
    obtain ⟨stop, rfl⟩ := tab?_eq_some hs
    exact h.edges
  | lineFeed | index => exact Option.some.inj hs ▸ edges_of_moves h.edges (.lineFeed s)
  | reverseIndex => exact Option.some.inj hs ▸ edges_of_moves h.edges (.reverseIndex s)
  | erase region => exact Option.some.inj hs ▸ edges_fill h.edges _ _ rfl
  | insertLines n => exact Option.some.inj hs ▸ edges_of_moves h.edges (.insertLines s n)
  | deleteLines n => exact Option.some.inj hs ▸ edges_of_moves h.edges (.deleteLines s n)
  | insertChars n | deleteChars n | eraseChars n =>
    exact Option.some.inj hs ▸ edges_mend h.edges _
  | scrollUp n => exact Option.some.inj hs ▸ edges_of_moves h.edges (.shiftLinesUp s _ _ n)
  | scrollDown n => exact Option.some.inj hs ▸ edges_of_moves h.edges (.shiftLinesDown s _ _ n)
  | restoreCursor => exact Option.some.inj hs ▸ edges_of_moves h.edges (.restoreCursor s)
  | reset => exact Option.some.inj hs ▸ edges_of_moves h.edges (.blank s.dims)
  | _ => exact Option.some.inj hs ▸ edges_of_lines_eq h.edges rfl

end Closed

/-- The change overwrites no cell outright. -/
def Change.Asked : Change → Prop
  | .putCell _ _ _ => False
  | _ => True

namespace Closed

variable {s s' : Screen}

/-- **One change** that overwrites no cell outright keeps the last column clear. -/
theorem change? (h : s.Closed) (hwell : s.WellFormed) {c : Change} (hc : c.Asked)
    (hs : s.change? c = some s') : s'.Closed := by
  cases c with
  | obey i =>
    refine ⟨h.spacers.obey? .blankSpacer ?_ hs, h.edges_obey? hwell hs⟩
    cases i with
    | print c => exact fun _ _ _ => nofun
    | _ => trivial
  | setStyle style => exact Option.some.inj hs ▸ ⟨h.spacers, h.edges⟩
  | putCell row col c => exact hc.elim
  | resize d =>
    obtain rfl := Option.some.inj hs
    cases hd : s.resize? d with
    | none => exact h
    | some s' => exact ⟨h.spacers.resize? .blankSpacer hd, edges_resize? h.edges hd⟩

/-- **A run of changes** keeps a screen closed. -/
theorem changeAll? (h : s.Closed) (hwell : s.WellFormed) {cs : List Change}
    (hcs : ∀ c ∈ cs, c.Asked) (hs : s.changeAll? cs = some s') : s'.Closed := by
  induction cs generalizing s with
  | nil => exact Option.some.inj hs ▸ h
  | cons c cs ih =>
    obtain ⟨s₁, h₁, h₂⟩ := Option.bind_eq_some_iff.mp hs
    exact ih (h.change? hwell (hcs c List.mem_cons_self) h₁) (hwell.change? h₁)
      (fun c hmem => hcs c (List.mem_cons_of_mem _ hmem)) h₂

end Closed

end Screen

/-- **Whatever is fed to a new emulator, and however it is resized, no first half of a wide glyph is
in the last column.** -/
theorem Emulator.closed_of_calls {d : Dimensions} {calls : List Call} {e : Emulator}
    (he : (ofDimensions d).operateAll? (calls.map .call) = some e) :
    e.screen.WellFormed ∧ e.screen.Closed := by
  rw [operateAll?_eq] at he
  obtain ⟨s, hs, rfl⟩ := Option.map_eq_some_iff.mp he
  refine ⟨(Screen.WellFormed.blank d).changeAll? hs,
    (Screen.Closed.blank d).changeAll? (.blank d) (fun c hc => ?_) hs⟩
  rcases Reader.fresh.mem_operateAll_calls c hc with ⟨i, rfl⟩ | ⟨d, rfl⟩
  · trivial
  · trivial

/-! ### Resizing -/

namespace Screen

variable {s : Screen}

/-- The screen in another size, and the answer; a size that is refused leaves the screen alone. -/
def resized (s : Screen) (d : Dimensions) : Screen × Except Error Unit :=
  match d.validate with
  | .error e => (s, .error e)
  | .ok () => ((s.resize? d).getD s, .ok ())

/-- An empty size is refused, and nothing changes. -/
theorem resized_of_empty {d : Dimensions} (h : d.rows = 0 ∨ d.cols = 0) :
    s.resized d = (s, .error (.resizeOutOfBounds d)) := by
  rw [resized, Dimensions.validate, if_pos (Dimensions.isEmpty_eq_true_iff.mpr h)]

theorem resized_of_pos {d : Dimensions} (hr : 0 < d.rows) (hc : 0 < d.cols) :
    s.resized d = ((s.resize? d).getD s, .ok ()) := by
  have hempty : ¬ d.isEmpty = true :=
    Bool.eq_false_iff.mp (Dimensions.isEmpty_eq_false_iff.mpr ⟨hr, hc⟩)
  rw [resized, Dimensions.validate, if_neg hempty]

/-- It is the change that a call of the emulator makes. -/
theorem change?_resize (s : Screen) (d : Dimensions) :
    s.change? (.resize d) = some (s.resized d).1 := by
  by_cases hpos : 0 < d.rows ∧ 0 < d.cols
  · rw [resized_of_pos hpos.1 hpos.2, change?]
  · have hempty : d.rows = 0 ∨ d.cols = 0 := by omega
    rw [resized_of_empty hempty, change?, resize?,
      if_pos (Dimensions.isEmpty_eq_true_iff.mpr hempty), Option.getD_none]

/-- What a place holds in another size: what it held, but a space where the new right edge cuts a
wide glyph, and nothing where the grid had no such place. -/
def cellAfter (s : Screen) (d : Dimensions) (row col : Nat) : Cell :=
  match s.cell? row col with
  | none => .empty
  | some c =>
    if d.cols < s.dims.cols ∧ col + 1 = d.cols ∧ c.spacer = false ∧
        Width.isWide c.character = true then
      { c with character := ' ' }
    else c

/-- The rows of another size: those that were there, and unwritten ones. -/
theorem getElem?_resizeGrid (s : Screen) (d : Dimensions) (row : Nat) :
    (s.resizeGrid d)[row]? =
      if row < d.rows then
        some ((s.lines[row]?).elim (Line.empty d.cols) fun line => Line.resize line d.cols)
      else none := by
  rw [resizeGrid, List.getElem?_append, List.length_map, List.length_take, List.getElem?_map,
    List.getElem?_replicate]
  by_cases hrow : row < d.rows
  · by_cases hold : row < s.lines.length
    · rw [if_pos (by omega), if_pos hrow, List.getElem?_take_of_lt hrow,
        List.getElem?_eq_getElem hold]
      rfl
    · rw [if_neg (by omega), if_pos (by omega), if_pos hrow,
        List.getElem?_eq_none (Nat.le_of_not_lt hold)]
      rfl
  · rw [if_neg (by omega), if_neg (by omega), if_neg hrow]

/-- **Each cell of another size** is what `cellAfter` says. -/
theorem bind_getElem?_resizeGrid (h : s.WellFormed) (d : Dimensions) (row col : Nat) :
    ((s.resizeGrid d)[row]?).bind (fun l => l[col]?) =
      if row < d.rows ∧ col < d.cols then some (s.cellAfter d row col) else none := by
  rw [getElem?_resizeGrid]
  by_cases hrow : row < d.rows
  · rw [if_pos hrow, Option.bind_some, cellAfter, cell?]
    cases hline : s.lines[row]? with
    | none =>
      simp only [Option.elim_none, Option.bind_none, Line.empty, List.getElem?_replicate, hrow,
        true_and]
    | some l =>
      have hlen := h.length_line l (List.mem_of_getElem? hline)
      simp only [Option.elim_some, Option.bind_some, Line.getElem?_resize, hlen, hrow, true_and]
      cases l[col]? with
      | none => rfl
      | some c =>
        simp only [Option.elim_some, Line.leads, Bool.and_eq_true, Bool.not_eq_true']
        rfl
  · rw [if_neg hrow, if_neg fun hplace => hrow hplace.1, Option.bind_none]

/-- Another size than the one there is. -/
theorem resized_of_ne {d : Dimensions} (hr : 0 < d.rows) (hc : 0 < d.cols) (hne : d ≠ s.dims) :
    s.resized d = ({ s with
      dims := d
      lines := s.resizeGrid d
      cursor := d.clamp s.cursor
      margins := ⟨0, d.rows - 1⟩
      pendingWrap := false }, .ok ()) := by
  have hempty : ¬ d.isEmpty = true :=
    Bool.eq_false_iff.mp (Dimensions.isEmpty_eq_false_iff.mpr ⟨hr, hc⟩)
  rw [resized_of_pos hr hc, resize?, if_neg hempty, if_neg hne, Option.getD_some]

theorem WellFormed.resized (h : s.WellFormed) (d : Dimensions) : (s.resized d).1.WellFormed :=
  h.change? (change?_resize s d)

/-- Resizing to the size it has changes nothing about a screen. -/
theorem resized_dims (h : s.WellFormed) : s.resized s.dims = (s, .ok ()) := by
  have hempty : ¬ s.dims.isEmpty = true :=
    Bool.eq_false_iff.mp (Dimensions.isEmpty_eq_false_iff.mpr ⟨h.rows_pos, h.cols_pos⟩)
  rw [resized_of_pos h.rows_pos h.cols_pos, resize?, if_neg hempty, if_pos rfl, Option.getD_some]

/-- A grid that has got larger is cut back to what it was, if no line ends in a first half. -/
theorem resizeGrid_resizeGrid {s' : Screen} (h : s.WellFormed) (hclear : ∀ l ∈ s.lines, l.EdgeClear)
    (a b : Nat) (hs : s'.lines = s.resizeGrid ⟨s.dims.rows + a, s.dims.cols + b⟩) :
    s'.resizeGrid s.dims = s.lines := by
  refine List.ext_getElem? fun row => ?_
  rw [getElem?_resizeGrid, hs, getElem?_resizeGrid]
  by_cases hrow : row < s.dims.rows
  · obtain ⟨line, hline, hlen⟩ := h.exists_line hrow
    have hback : Line.resize (Line.resize line (line.length + b)) line.length = line :=
      Line.resize_resize (hclear line (List.mem_of_getElem? hline)) b
    rw [if_pos hrow, if_pos (Nat.lt_add_right a hrow), hline, Option.elim_some, Option.elim_some,
      ← hlen, hback]
  · rw [if_neg hrow, List.getElem?_eq_none (h.length_lines ▸ Nat.le_of_not_lt hrow)]

/-- A screen whose last column is clear comes back from a larger size. -/
theorem resized_resized (h : s.WellFormed) (hclear : s.Closed) (a b : Nat) :
    ∃ larger back, s.resized ⟨s.dims.rows + a, s.dims.cols + b⟩ = (larger, .ok ()) ∧
      larger.resized s.dims = (back, .ok ()) ∧ back.dims = s.dims ∧ back.lines = s.lines := by
  by_cases hsame : (⟨s.dims.rows + a, s.dims.cols + b⟩ : Dimensions) = s.dims
  · rw [hsame]
    exact ⟨s, s, resized_dims h, resized_dims h, rfl, rfl⟩
  · have hlarger := resized_of_ne (Nat.lt_add_right a h.rows_pos) (Nat.lt_add_right b h.cols_pos)
      hsame
    refine ⟨_, _, hlarger, resized_of_ne h.rows_pos h.cols_pos (Ne.symm hsame), rfl, ?_⟩
    exact resizeGrid_resizeGrid h hclear.edges a b rfl

end Screen

/-- **What another size leaves.**  A size without rows or columns is refused and nothing changes; the
size there is changes nothing.  Any other gives a grid of just that size: what the two sizes share
stays, but for a wide glyph that the new right edge cuts, and the rest is unwritten.  The cursor goes
to the nearest place, the whole screen is the scroll region, no wrap is pending, and nothing else
changes.  This is what a call of an emulator does, and the vector that holds the rows one behind
another is copied into the same cells.

And a screen that calls of an emulator have led to comes back, cell by cell, from any larger size. -/
theorem Emulator.resizes_by_cells :
    (∀ s : Screen, s.WellFormed → ∀ d : Dimensions,
      (d.rows = 0 ∨ d.cols = 0 → s.resized d = (s, .error (.resizeOutOfBounds d))) ∧
      (d = s.dims → s.resized d = (s, .ok ())) ∧
      (0 < d.rows → 0 < d.cols → d ≠ s.dims →
        ∃ s', s.resized d = (s', .ok ()) ∧ s'.WellFormed ∧
          s' = { s with
            dims := d
            lines := s'.lines
            cursor := d.clamp s.cursor
            margins := ⟨0, d.rows - 1⟩
            pendingWrap := false } ∧
          ∀ row col, s'.cell? row col =
            if row < d.rows ∧ col < d.cols then some (s.cellAfter d row col) else none) ∧
      s.change? (.resize d) = some (s.resized d).1 ∧
      s.raster.resize d = .ok (s.resized d).1.raster) ∧
    ∀ (d : Dimensions) (calls : List Call) (e : Emulator),
      (ofDimensions d).operateAll? (calls.map .call) = some e → ∀ a b : Nat,
        ∃ larger back, e.screen.resized ⟨e.screen.dims.rows + a, e.screen.dims.cols + b⟩ =
            (larger, .ok ()) ∧
          larger.resized e.screen.dims = (back, .ok ()) ∧
          back.dims = e.screen.dims ∧ back.lines = e.screen.lines := by
  constructor
  · intro s h d
    refine ⟨Screen.resized_of_empty, fun hsame => hsame ▸ Screen.resized_dims h,
      fun hr hc hne => ?_, s.change?_resize d, ?_⟩
    · have hresized := Screen.resized_of_ne hr hc hne
      have hwell := h.resized d
      rw [hresized] at hwell
      exact ⟨_, hresized, hwell, rfl, Screen.bind_getElem?_resizeGrid h d⟩
    · have hscreen : (s.resize? d).getD s = (s.resized d).1 :=
        Option.some.inj (Screen.change?_resize s d)
      rw [Screen.resize_eq h d, hscreen]
  · intro d calls e he a b
    obtain ⟨hwell, hclosed⟩ := closed_of_calls he
    exact Screen.resized_resized hwell hclosed a b

namespace Emulator

/-- A line that ends in a wide glyph. -/
def endingWide : List Call := [.feed [0x61, 0x62, 0xe4, 0xb8, 0x96]]

/-- One column less cuts the glyph, and the cut leaves a space; more of both and back again leaves
the glyph. -/
theorem endingWide_resized :
    ∃ e, (ofDimensions ⟨2, 4⟩).operateAll? (endingWide.map .call) = some e ∧
      (e.screen.cell? 0 2 = some (.ofChar '世') ∧
        e.screen.resized ⟨0, 3⟩ = (e.screen, .error (.resizeOutOfBounds ⟨0, 3⟩)) ∧
        ∃ cut, e.screen.resized ⟨2, 3⟩ = (cut, .ok ()) ∧ cut.cell? 0 2 = some .empty) ∧
      ∃ larger back, e.screen.resized ⟨e.screen.dims.rows + 3, e.screen.dims.cols + 5⟩ =
          (larger, .ok ()) ∧
        larger.resized e.screen.dims = (back, .ok ()) ∧
        back.dims = e.screen.dims ∧ back.lines = e.screen.lines := by
  have hrun : ((ofDimensions ⟨2, 4⟩).operateAll? (endingWide.map .call)).map
      (fun e => (e.screen.dims, e.screen.cell? 0 2, e.screen.cellAfter ⟨2, 3⟩ 0 2)) =
      some (⟨2, 4⟩, some (.ofChar '世'), .empty) := by decide +kernel
  obtain ⟨e, he, hstate⟩ := Option.map_eq_some_iff.mp hrun
  simp only [Prod.mk.injEq] at hstate
  obtain ⟨hdims, hcell, hafter⟩ := hstate
  obtain ⟨hall, hback⟩ := resizes_by_cells
  obtain ⟨hrefused, -⟩ := hall e.screen (closed_of_calls he).1 ⟨0, 3⟩
  obtain ⟨-, -, hother, -⟩ := hall e.screen (closed_of_calls he).1 ⟨2, 3⟩
  obtain ⟨cut, hcut, -, -, hcells⟩ := hother (by decide) (by decide) (by rw [hdims]; decide)
  refine ⟨e, he, ⟨hcell, hrefused (.inl rfl), cut, hcut, ?_⟩, hback ⟨2, 4⟩ endingWide e he 3 5⟩
  rw [hcells, if_pos (by decide), hafter]

end Emulator

end VirtualTerminal
