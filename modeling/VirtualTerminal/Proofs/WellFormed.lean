import VirtualTerminal.Proofs.Reader

/-!
# WellFormed — the shape of a screen

A screen is well formed (`Screen.WellFormed`) when it has as many lines as its size says, each of
them of the right length, and when the cursor and the margins of the scroll region lie inside.  A
blank screen is well formed whatever size was asked for, and every operation keeps it so.

* The functions on lines that an operation applies to the cursor's line keep its length.
* `tab?_eq_some`, `write?_eq_some`, `resize?_eq_some`: what an operation that may have no value comes
  to where it has one.
* `WellFormed.obey?`, `WellFormed.obeyAll?`: an instruction, and a list of them.
* `WellFormed.putCell?`, `WellFormed.resize?`: overwriting a cell, and another size.
-/

namespace VirtualTerminal

/-! ### Lengths of lines -/

namespace Line

@[simp] theorem length_empty (cols : Nat) : (empty cols).length = cols := by simp [empty]

/-- Giving up a wide glyph keeps the length. -/
@[simp] theorem length_release (l : Line) (col : Nat) : (release l col).length = l.length := by
  unfold release
  split
  · split <;> simp
  · split <;> simp

/-- Putting a glyph into the line keeps the length. -/
@[simp] theorem length_put (l : Line) (col width : Nat) (c : Cell) :
    (put l col width c).length = l.length := by
  unfold put
  split <;> simp

/-- Mending goes from cell to cell and drops none. -/
@[simp] theorem length_mendAfter (previous : Option Cell) (l : Line) :
    (mendAfter previous l).length = l.length := by
  induction l generalizing previous with
  | nil => rfl
  | cons c l ih => simp only [mendAfter, List.length_cons, ih]

@[simp] theorem length_mend (l : Line) : (mend l).length = l.length := length_mendAfter none l

@[simp] theorem length_closeEdge (l : Line) : (closeEdge l).length = l.length := by simp [closeEdge]

/-- A resized line has the length asked for. -/
@[simp] theorem length_resize (l : Line) (cols : Nat) : (resize l cols).length = cols := by
  unfold resize
  split
  · simp; omega
  · simp; omega

variable {l : Line} {col n : Nat}

/-- As many cells drop out at the end as are inserted. -/
theorem length_insertBlanks (h : col + n ≤ l.length) (c : Cell) :
    (insertBlanks l col n c).length = l.length := by
  simp [insertBlanks]; omega

/-- As many blanks come in at the end as cells are deleted. -/
theorem length_deleteCells (h : col + n ≤ l.length) (c : Cell) :
    (deleteCells l col n c).length = l.length := by
  simp [deleteCells]; omega

/-- Blanked cells stay where they are. -/
theorem length_blankCells (h : col + n ≤ l.length) (c : Cell) :
    (blankCells l col n c).length = l.length := by
  simp [blankCells]; omega

end Line

/-! ### Changed and shifted lines -/

/-- What a changed list holds was there, or comes from something that was. -/
theorem exists_of_mem_modify {α : Type} {xs : List α} {i : Nat} {f : α → α} {y : α}
    (h : y ∈ xs.modify i f) : ∃ x ∈ xs, y = x ∨ y = f x := by
  obtain ⟨j, hget⟩ := List.mem_iff_getElem?.mp h
  rw [List.getElem?_modify, Option.map_eq_map] at hget
  obtain ⟨x, hx, rfl⟩ := Option.map_eq_some_iff.mp hget
  refine ⟨x, List.mem_of_getElem? hx, ?_⟩
  split
  · exact .inr rfl
  · exact .inl rfl

section Shift
variable {lines : List Line} {first last : Nat} (hle : first ≤ last) (hlt : last < lines.length)
include hle hlt

/-- As many blank lines come in as lines are lost at the top. -/
theorem length_shiftUp (n : Nat) (blank : Line) :
    (shiftUp lines first last n blank).length = lines.length := by
  simp [shiftUp]; omega

/-- As many blank lines come in as lines are lost at the bottom. -/
theorem length_shiftDown (n : Nat) (blank : Line) :
    (shiftDown lines first last n blank).length = lines.length := by
  simp [shiftDown]; omega

end Shift

/-- A shift brings in no lines but blank ones. -/
theorem mem_of_mem_shiftUp {lines : List Line} {first last n : Nat} {blank l : Line}
    (h : l ∈ shiftUp lines first last n blank) : l ∈ lines ∨ l = blank := by
  simp only [shiftUp, List.mem_append] at h
  obtain (h | h | h) | h := h
  · exact .inl (List.mem_of_mem_take h)
  · exact .inl (List.mem_of_mem_drop (List.mem_of_mem_take (List.mem_of_mem_drop h)))
  · exact .inr (List.eq_of_mem_replicate h)
  · exact .inl (List.mem_of_mem_drop h)

/-- A shift the other way brings in no lines but blank ones, either. -/
theorem mem_of_mem_shiftDown {lines : List Line} {first last n : Nat} {blank l : Line}
    (h : l ∈ shiftDown lines first last n blank) : l ∈ lines ∨ l = blank := by
  simp only [shiftDown, List.mem_append] at h
  obtain (h | h | h) | h := h
  · exact .inl (List.mem_of_mem_take h)
  · exact .inr (List.eq_of_mem_replicate h)
  · exact .inl (List.mem_of_mem_drop (List.mem_of_mem_take (List.mem_of_mem_take h)))
  · exact .inl (List.mem_of_mem_drop h)

/-! ### Sizes -/

namespace Dimensions

variable {d : Dimensions}

theorem rows_raised_pos (d : Dimensions) : 0 < d.raised.rows := Nat.le_max_right d.rows 1

theorem cols_raised_pos (d : Dimensions) : 0 < d.raised.cols := Nat.le_max_right d.cols 1

/-- A size that has a cell is left as it is. -/
theorem raised_eq_self (hr : 0 < d.rows) (hc : 0 < d.cols) : d.raised = d := by
  obtain ⟨rows, cols⟩ := d
  simp only [raised, Dimensions.mk.injEq]
  exact ⟨Nat.max_eq_left hr, Nat.max_eq_left hc⟩

/-- A size has a cell if both of its sides are there. -/
theorem isEmpty_eq_false_iff : d.isEmpty = false ↔ 0 < d.rows ∧ 0 < d.cols := by
  simp [isEmpty, Nat.pos_iff_ne_zero]

theorem isEmpty_eq_true_iff : d.isEmpty = true ↔ d.rows = 0 ∨ d.cols = 0 := by
  simp [isEmpty]

/-- A clamped position is in a row that is there. -/
theorem row_clamp_lt (h : 0 < d.rows) (p : Position) : (d.clamp p).row < d.rows := by
  have : (d.clamp p).row ≤ d.rows - 1 := Nat.min_le_right ..
  omega

/-- A clamped position is in a column that is there. -/
theorem col_clamp_lt (h : 0 < d.cols) (p : Position) : (d.clamp p).col < d.cols := by
  have : (d.clamp p).col ≤ d.cols - 1 := Nat.min_le_right ..
  omega

/-- The origin is in every size, the empty one included. -/
theorem clamp_origin (d : Dimensions) : d.clamp .origin = .origin := by
  rw [clamp, Position.origin]
  exact congr (congrArg Position.mk (Nat.zero_min _)) (Nat.zero_min _)

end Dimensions

/-- A position above and left of another comes before it in reading order. -/
theorem Position.le_of_le {p q : Position} (hrow : p.row ≤ q.row) (hcol : p.col ≤ q.col) :
    p.le q = true := by
  rcases Nat.lt_or_eq_of_le hrow with hlt | heq
  · simp [Position.le, hlt]
  · simp [Position.le, heq, hcol]

/-- Within a size that holds the cursor, a region begins above and left of its end. -/
theorem EraseRegion.bounds_within (region : EraseRegion) {d : Dimensions} {cursor : Position}
    (hrow : cursor.row < d.rows) (hcol : cursor.col < d.cols) :
    (region.bounds d cursor).1.row ≤ (region.bounds d cursor).2.row ∧
      (region.bounds d cursor).1.col ≤ (region.bounds d cursor).2.col ∧
      (region.bounds d cursor).2.row < d.rows ∧ (region.bounds d cursor).2.col < d.cols := by
  cases region <;> simp only [bounds, Position.origin] <;> omega

/-! ### Operations that may have no value -/

/-- A checked sum that has a value has the sum as its value. -/
theorem Word.add?_eq_some {a b n : Nat} (h : add? a b = some n) : a + b = n := by
  unfold add? at h
  split at h
  · exact Option.some.inj h
  · cases h

namespace Screen

section Inversion
variable {s s' : Screen}

/-- A tab puts the cursor into a column of its row. -/
theorem tab?_eq_some (hs : s.tab? = some s') :
    ∃ stop, s' = { s with
      cursor := ⟨s.cursor.row, min stop (s.dims.cols - 1)⟩, pendingWrap := false } := by
  rw [tab?] at hs
  obtain ⟨next, -, hs⟩ := Option.bind_eq_some_iff.mp hs
  obtain ⟨stop, -, hs⟩ := Option.bind_eq_some_iff.mp hs
  exact ⟨stop, (Option.some.inj hs).symm⟩

/-- A character is placed after a pending wrap and after room is made for it, or it is not shown at
all. -/
theorem write?_eq_some {c : Char} (hs : s.write? c = some s') :
    s' = s ∨ ∃ width s₀, Width.columns? c = some width ∧ 0 < width ∧ width ≤ s.dims.cols ∧
      (s₀ = s ∨ s₀ = s.wrap) ∧ s' = (s₀.makeRoom width (s₀.cursor.col + width)).place width c := by
  rw [write?] at hs
  cases hcolumns : Width.columns? c with
  | none =>
    rw [hcolumns] at hs
    exact .inl (Option.some.inj hs).symm
  | some width =>
    rw [hcolumns] at hs
    dsimp only at hs
    split at hs
    · exact .inl (Option.some.inj hs).symm
    · obtain ⟨reach, hreach, hs⟩ := Option.bind_eq_some_iff.mp hs
      obtain rfl := Word.add?_eq_some hreach
      refine .inr ⟨width, _, rfl, by omega, by omega, ?_, (Option.some.inj hs).symm⟩
      split
      · exact .inr rfl
      · exact .inl rfl

/-- Another size is not empty; the one that a screen has changes nothing. -/
theorem resize?_eq_some {d : Dimensions} (hs : s.resize? d = some s') :
    (0 < d.rows ∧ 0 < d.cols) ∧ (s' = s ∨ s' = { s with
      dims := d
      lines := s.resizeGrid d
      cursor := d.clamp s.cursor
      margins := ⟨0, d.rows - 1⟩
      pendingWrap := false }) := by
  unfold resize? at hs
  split at hs
  · cases hs
  · rename_i hempty
    refine ⟨Dimensions.isEmpty_eq_false_iff.mp (Bool.eq_false_iff.mpr hempty), ?_⟩
    split at hs
    · exact .inl (Option.some.inj hs).symm
    · exact .inr (Option.some.inj hs).symm

/-- The lines of another size are those that were there, cut or filled up, and unwritten ones. -/
theorem mem_resizeGrid {d : Dimensions} {l : Line} (hl : l ∈ s.resizeGrid d) :
    (∃ l' ∈ s.lines, l = Line.resize l' d.cols) ∨ l = Line.empty d.cols := by
  rcases List.mem_append.mp hl with hl | hl
  · obtain ⟨l', hl', rfl⟩ := List.mem_map.mp hl
    exact .inl ⟨l', List.mem_of_mem_take hl', rfl⟩
  · exact .inr (List.eq_of_mem_replicate hl)

end Inversion

/-! ### Well-formed screens -/

/-- The grid has the shape that the size says, and cursor and margins lie inside. -/
structure WellFormed (s : Screen) : Prop where
  length_lines : s.lines.length = s.dims.rows
  length_line : ∀ l ∈ s.lines, l.length = s.dims.cols
  row_lt : s.cursor.row < s.dims.rows
  col_lt : s.cursor.col < s.dims.cols
  top_le : s.margins.top ≤ s.margins.bottom
  bottom_lt : s.margins.bottom < s.dims.rows

namespace WellFormed

variable {s s' : Screen}

/-- The cursor is in some row, so there is one. -/
theorem rows_pos (h : s.WellFormed) : 0 < s.dims.rows := Nat.zero_lt_of_lt h.row_lt

/-- The cursor is in some column, so there is one. -/
theorem cols_pos (h : s.WellFormed) : 0 < s.dims.cols := Nat.zero_lt_of_lt h.col_lt

/-- Every row has a line. -/
theorem exists_line (h : s.WellFormed) {row : Nat} (hr : row < s.dims.rows) :
    ∃ line, s.lines[row]? = some line ∧ line.length = s.dims.cols := by
  have hget := List.getElem?_eq_getElem (h.length_lines ▸ hr)
  exact ⟨_, hget, h.length_line _ (List.mem_of_getElem? hget)⟩

/-- A blank screen is well formed at every size, as that is raised to one cell at least. -/
theorem blank (d : Dimensions) : (Screen.blank d).WellFormed where
  length_lines := List.length_replicate
  length_line l hl := by
    rw [List.eq_of_mem_replicate hl]
    exact Line.length_empty _
  row_lt := d.rows_raised_pos
  col_lt := d.cols_raised_pos
  top_le := Nat.zero_le _
  bottom_lt := Nat.sub_lt d.rows_raised_pos Nat.one_pos

/-- Replacing the lines by as many lines of the same length. -/
theorem withLines (h : s.WellFormed) {lines : List Line} (hn : lines.length = s.lines.length)
    (hl : ∀ l ∈ lines, l.length = s.dims.cols) : { s with lines := lines }.WellFormed :=
  ⟨hn.trans h.length_lines, hl, h.row_lt, h.col_lt, h.top_le, h.bottom_lt⟩

/-- Changing the cursor's line without changing its length. -/
theorem modifyCursorLine (h : s.WellFormed) {f : Line → Line}
    (hf : ∀ l : Line, l.length = s.dims.cols → (f l).length = s.dims.cols) :
    (s.modifyCursorLine f).WellFormed := by
  refine h.withLines (List.length_modify ..) fun l hl => ?_
  obtain ⟨l', hl', rfl | rfl⟩ := exists_of_mem_modify hl
  · exact h.length_line l hl'
  · exact hf l' (h.length_line l' hl')

/-- Moving the cursor inside the grid. -/
theorem withCursor (h : s.WellFormed) {row col : Nat} (hr : row < s.dims.rows)
    (hc : col < s.dims.cols) (pending : Bool) :
    { s with cursor := ⟨row, col⟩, pendingWrap := pending }.WellFormed :=
  ⟨h.length_lines, h.length_line, hr, hc, h.top_le, h.bottom_lt⟩

/-- Shifting the lines of a range that is there. -/
theorem shiftLinesUp (h : s.WellFormed) {first last : Nat} (hle : first ≤ last)
    (hlt : last < s.dims.rows) (n : Nat) : (s.shiftLinesUp first last n).WellFormed := by
  refine h.withLines (length_shiftUp hle (h.length_lines ▸ hlt) ..) fun l hl => ?_
  rcases mem_of_mem_shiftUp hl with hl | rfl
  · exact h.length_line l hl
  · exact Line.length_empty _

/-- Shifting the lines of a range the other way. -/
theorem shiftLinesDown (h : s.WellFormed) {first last : Nat} (hle : first ≤ last)
    (hlt : last < s.dims.rows) (n : Nat) : (s.shiftLinesDown first last n).WellFormed := by
  refine h.withLines (length_shiftDown hle (h.length_lines ▸ hlt) ..) fun l hl => ?_
  rcases mem_of_mem_shiftDown hl with hl | rfl
  · exact h.length_line l hl
  · exact Line.length_empty _

/-- The margins lie inside the grid, so their region can be shifted. -/
theorem scrollUp (h : s.WellFormed) (n : Nat) : (s.scrollUp n).WellFormed :=
  h.shiftLinesUp h.top_le h.bottom_lt n

theorem scrollDown (h : s.WellFormed) (n : Nat) : (s.scrollDown n).WellFormed :=
  h.shiftLinesDown h.top_le h.bottom_lt n

/-! ### Motion -/

/-- The cursor is clamped wherever it is sent. -/
theorem moveCursor (h : s.WellFormed) (row col : Nat) : (s.moveCursor row col).WellFormed :=
  h.withCursor (Dimensions.row_clamp_lt h.rows_pos _) (Dimensions.col_clamp_lt h.cols_pos _) _

/-- Moving up stops at the top margin or at the first row. -/
theorem cursorUp (h : s.WellFormed) (n : Nat) : (s.cursorUp n).WellFormed := by
  refine h.withCursor ?_ h.col_lt false
  have := h.row_lt
  split <;> omega

/-- Moving down stops at the bottom margin or at the last row. -/
theorem cursorDown (h : s.WellFormed) (n : Nat) : (s.cursorDown n).WellFormed := by
  refine h.withCursor ?_ h.col_lt false
  have := h.row_lt
  have := h.bottom_lt
  split <;> omega

/-- Moving right stops at the last column. -/
theorem cursorForward (h : s.WellFormed) (n : Nat) : (s.cursorForward n).WellFormed := by
  refine h.withCursor h.row_lt ?_ false
  have := h.col_lt
  omega

/-- Moving left stops at the first column. -/
theorem cursorBackward (h : s.WellFormed) (n : Nat) : (s.cursorBackward n).WellFormed :=
  h.withCursor h.row_lt (Nat.lt_of_le_of_lt (Nat.sub_le ..) h.col_lt) false

theorem carriageReturn (h : s.WellFormed) : s.carriageReturn.WellFormed :=
  h.withCursor h.row_lt h.cols_pos false

/-- A tab stop behind the last column is the last column. -/
theorem tab? (h : s.WellFormed) (hs : s.tab? = some s') : s'.WellFormed := by
  obtain ⟨stop, rfl⟩ := tab?_eq_some hs
  refine h.withCursor h.row_lt ?_ false
  have := h.col_lt
  omega

/-- At the bottom margin the region is shifted, elsewhere the cursor moves down if it can. -/
theorem indexDown (h : s.WellFormed) : s.indexDown.WellFormed := by
  unfold Screen.indexDown
  split
  · exact h.scrollUp 1
  · split
    · exact h.withCursor ‹_› h.col_lt s.pendingWrap
    · exact h

/-- At the top margin the region is shifted, elsewhere the cursor moves up. -/
theorem indexUp (h : s.WellFormed) : s.indexUp.WellFormed := by
  unfold Screen.indexUp
  split
  · exact h.scrollDown 1
  · exact h.withCursor (Nat.lt_of_le_of_lt (Nat.sub_le ..) h.row_lt) h.col_lt
      s.pendingWrap

theorem lineFeed (h : s.WellFormed) : s.lineFeed.WellFormed :=
  (h.withCursor h.row_lt h.col_lt false).indexDown

theorem reverseIndex (h : s.WellFormed) : s.reverseIndex.WellFormed :=
  (h.withCursor h.row_lt h.col_lt false).indexUp

/-- A wrap goes to the first column, which is there, and down. -/
theorem wrap (h : s.WellFormed) : s.wrap.WellFormed :=
  (h.withCursor h.row_lt h.cols_pos false).indexDown

/-- Setting margins that lie inside the grid in order. -/
theorem withMargins (h : s.WellFormed) {top bottom : Nat} (hle : top ≤ bottom)
    (hlt : bottom < s.dims.rows) : { s with margins := ⟨top, bottom⟩ }.WellFormed :=
  ⟨h.length_lines, h.length_line, h.row_lt, h.col_lt, hle, hlt⟩

/-- Margins that are not in order are replaced by the whole screen. -/
theorem setMargins (h : s.WellFormed) (top bottom : Nat) : (s.setMargins top bottom).WellFormed := by
  have := h.rows_pos
  unfold Screen.setMargins
  dsimp only
  split
  · exact (h.withMargins (by omega) (by omega)).moveCursor 0 0
  · exact (h.withMargins (Nat.zero_le _) (by omega)).moveCursor 0 0

/-- What was saved at another size is clamped when it is restored. -/
theorem restoreCursor (h : s.WellFormed) : s.restoreCursor.WellFormed := by
  unfold Screen.restoreCursor
  split
  · exact ⟨h.length_lines, h.length_line, Dimensions.row_clamp_lt h.rows_pos _,
      Dimensions.col_clamp_lt h.cols_pos _, h.top_le, h.bottom_lt⟩
  · have h' := h.moveCursor 0 0
    exact ⟨h'.length_lines, h'.length_line, h'.row_lt, h'.col_lt, h'.top_le, h'.bottom_lt⟩

/-! ### Writing -/

/-- A step back for a character of some width stays in the line. -/
theorem makeRoom (h : s.WellFormed) {width : Nat} (hw : 0 < width) (reach : Nat) :
    (s.makeRoom width reach).WellFormed := by
  unfold Screen.makeRoom
  split
  · split
    · exact h.wrap
    · exact h.withCursor h.row_lt
        (Nat.sub_lt h.cols_pos hw) s.pendingWrap
  · exact h

/-- Behind the last column the cursor stays on it. -/
theorem place (h : s.WellFormed) (width : Nat) (c : Char) : (s.place width c).WellFormed := by
  have h' := h.modifyCursorLine (f := fun line => Line.put line s.cursor.col width (s.glyph c))
    fun l hl => (Line.length_put ..).trans hl
  unfold Screen.place
  dsimp only
  split
  · exact h'.withCursor h.row_lt (Nat.sub_lt h.cols_pos Nat.one_pos) s.autowrap
  · exact h'.withCursor h.row_lt
      (Nat.lt_of_not_le ‹_›) s.pendingWrap

/-- **Printing** keeps the screen well formed, where it has a result. -/
theorem write? (h : s.WellFormed) {c : Char} (hs : s.write? c = some s') : s'.WellFormed := by
  obtain rfl | ⟨width, s₀, -, hpos, -, hs₀, rfl⟩ := write?_eq_some hs
  · exact h
  · have h₀ : s₀.WellFormed := by
      rcases hs₀ with rfl | rfl
      · exact h
      · exact h.wrap
    exact (h₀.makeRoom hpos _).place width c

/-! ### Editing -/

/-- Filled cells stay in their places. -/
theorem fill (h : s.WellFormed) (first last : Position) (c : Cell) :
    (s.fill first last c).WellFormed := by
  refine h.withLines (List.length_mapIdx ..) fun l hl => ?_
  obtain ⟨i, hi, rfl⟩ := List.mem_mapIdx.mp hl
  simp only [List.length_mapIdx]
  exact h.length_line _ (List.getElem_mem hi)

/-- Lines come in between the cursor and the bottom margin, if the cursor is in the region. -/
theorem insertLines (h : s.WellFormed) (n : Nat) : (s.insertLines n).WellFormed := by
  unfold Screen.insertLines
  split
  · rename_i hin
    simp only [cursorInMargins, Bool.and_eq_true, decide_eq_true_eq] at hin
    exact (h.shiftLinesDown hin.2 h.bottom_lt n).carriageReturn
  · exact h

/-- Lines go out at the cursor, and blank ones come in at the bottom margin. -/
theorem deleteLines (h : s.WellFormed) (n : Nat) : (s.deleteLines n).WellFormed := by
  unfold Screen.deleteLines
  split
  · rename_i hin
    simp only [cursorInMargins, Bool.and_eq_true, decide_eq_true_eq] at hin
    exact (h.shiftLinesUp hin.2 h.bottom_lt n).carriageReturn
  · exact h

/-- The cells that an edit reaches lie in the cursor's line. -/
theorem col_add_reach_le (h : s.WellFormed) (n : Nat) :
    s.cursor.col + s.reach n ≤ s.dims.cols := by
  have := h.col_lt
  unfold reach
  omega

/-- An edit of the cursor's line, mended. -/
theorem edit (h : s.WellFormed) {f : Line → Nat → Nat → Cell → Line}
    (hf : ∀ {l : Line} {col n : Nat}, col + n ≤ l.length → ∀ c, (f l col n c).length = l.length)
    (n : Nat) :
    (s.modifyCursorLine fun line =>
      Line.mend (f line s.cursor.col (s.reach n) s.erased)).WellFormed :=
  h.modifyCursorLine fun l hl => by
    rw [Line.length_mend, hf (hl ▸ h.col_add_reach_le n), hl]

/-- No more cells are inserted than the line has right of the cursor. -/
theorem insertChars (h : s.WellFormed) (n : Nat) : (s.insertChars n).WellFormed :=
  (h.edit (f := Line.insertBlanks) Line.length_insertBlanks n).withCursor h.row_lt h.col_lt false

/-- No more cells are deleted than the line has right of the cursor. -/
theorem deleteChars (h : s.WellFormed) (n : Nat) : (s.deleteChars n).WellFormed :=
  (h.edit (f := Line.deleteCells) Line.length_deleteCells n).withCursor h.row_lt h.col_lt false

/-- No more cells are blanked than the line has right of the cursor. -/
theorem eraseChars (h : s.WellFormed) (n : Nat) : (s.eraseChars n).WellFormed :=
  h.edit (f := Line.blankCells) Line.length_blankCells n

/-- Nothing but the grid, the cursor and the margins bears on the shape. -/
theorem of_eq (h : s.WellFormed) (hd : s'.dims = s.dims) (hl : s'.lines = s.lines)
    (hc : s'.cursor = s.cursor) (hm : s'.margins = s.margins) : s'.WellFormed := by
  obtain ⟨h₁, h₂, h₃, h₄, h₅, h₆⟩ := h
  constructor <;> simp_all

/-- A cell is put into the grid, or nothing is done. -/
theorem putCell? (h : s.WellFormed) {row col : Nat} {c : Cell}
    (hs : s.putCell? row col c = some s') : s'.WellFormed := by
  unfold Screen.putCell? at hs
  split at hs
  · obtain rfl := Option.some.inj hs
    refine h.withLines (List.length_modify ..) fun l hl => ?_
    obtain ⟨l', hl', rfl | rfl⟩ := exists_of_mem_modify hl
    · exact h.length_line l hl'
    · rw [List.length_set]
      exact h.length_line l' hl'
  · cases hs

/-- **Resizing** makes a grid of the new size, with the cursor clamped into it and full margins. -/
theorem resize? (h : s.WellFormed) {d : Dimensions} (hs : s.resize? d = some s') :
    s'.WellFormed := by
  obtain ⟨⟨hr, hc⟩, rfl | rfl⟩ := resize?_eq_some hs
  · exact h
  · refine ⟨?_, fun l hl => ?_, Dimensions.row_clamp_lt hr _, Dimensions.col_clamp_lt hc _,
      Nat.zero_le _, Nat.sub_lt hr Nat.one_pos⟩
    · simp only [resizeGrid, List.length_append, List.length_map, List.length_take,
        List.length_replicate]
      omega
    · obtain ⟨l', -, rfl⟩ | rfl := mem_resizeGrid hl
      · exact Line.length_resize l' d.cols
      · exact Line.length_empty d.cols

/-! ### Instructions -/

/-- **Every instruction keeps the shape.** -/
theorem obey? (h : s.WellFormed) {i : Instruction} (hs : i.obey? s = some s') :
    s'.WellFormed := by
  cases i with
  | print c => exact h.write? hs
  | tab => exact h.tab? hs
  | bell | title _ => exact Option.some.inj hs ▸ h
  | rendition _ | saveCursor | setVisible _ | setAutowrap _ | setLink _ | setMark _ =>
    exact Option.some.inj hs ▸ h.of_eq rfl rfl rfl rfl
  | backspace => exact Option.some.inj hs ▸ h.cursorBackward 1
  | lineFeed | index => exact Option.some.inj hs ▸ h.lineFeed
  | reverseIndex => exact Option.some.inj hs ▸ h.reverseIndex
  | carriageReturn => exact Option.some.inj hs ▸ h.carriageReturn
  | cursorUp n => exact Option.some.inj hs ▸ h.cursorUp n
  | cursorDown n => exact Option.some.inj hs ▸ h.cursorDown n
  | cursorForward n => exact Option.some.inj hs ▸ h.cursorForward n
  | cursorBackward n => exact Option.some.inj hs ▸ h.cursorBackward n
  | moveToRow _ | moveToColumn _ | moveCursor _ _ => exact Option.some.inj hs ▸ h.moveCursor _ _
  | erase region => exact Option.some.inj hs ▸ h.fill _ _ _
  | insertLines n => exact Option.some.inj hs ▸ h.insertLines n
  | deleteLines n => exact Option.some.inj hs ▸ h.deleteLines n
  | insertChars n => exact Option.some.inj hs ▸ h.insertChars n
  | deleteChars n => exact Option.some.inj hs ▸ h.deleteChars n
  | eraseChars n => exact Option.some.inj hs ▸ h.eraseChars n
  | scrollUp n => exact Option.some.inj hs ▸ h.scrollUp n
  | scrollDown n => exact Option.some.inj hs ▸ h.scrollDown n
  | setMargins _ _ => exact Option.some.inj hs ▸ h.setMargins _ _
  | restoreCursor => exact Option.some.inj hs ▸ h.restoreCursor
  | reset => exact Option.some.inj hs ▸ .blank s.dims

/-- **A run of instructions** keeps the screen well formed. -/
theorem obeyAll? (h : s.WellFormed) {is : List Instruction} (hs : s.obeyAll? is = some s') :
    s'.WellFormed := by
  induction is generalizing s with
  | nil => exact Option.some.inj hs ▸ h
  | cons i is ih =>
    obtain ⟨s₁, h₁, h₂⟩ := Option.bind_eq_some_iff.mp hs
    exact ih (h.obey? h₁) h₂

end WellFormed

end Screen

end VirtualTerminal
