import VirtualTerminal.Proofs.Raster.Refinement

/-!
# Raster — Bounds

**No run leaves the vector of cells** (`afterAll_stays_in_bounds`).  Whatever an emulator is asked
for, in whatever order, no step on its raster asks for a place outside the vector; and where the run
has a result, the raster is in shape: it has a row and a column, as many cells as rows times
columns, its cursor on the grid, and its scroll region within the rows.

That the run keeps inside is read off `Raster.Refinement`, since a screen without result stands for
an overflow and for nothing else.  The shape is that of `Screen.WellFormed`.
-/

namespace VirtualTerminal.Raster

/-- The shape of a raster. -/
structure Shaped (r : Raster) : Prop where
  one_le_rows : 1 ≤ r.dims.rows
  one_le_cols : 1 ≤ r.dims.cols
  length_cells : r.cells.length = r.dims.rows * r.dims.cols
  row_lt : r.cursor.row < r.dims.rows
  col_lt : r.cursor.col < r.dims.cols
  top_le : r.margins.top ≤ r.margins.bottom
  bottom_lt : r.margins.bottom < r.dims.rows

/-- What can be read from a raster is there: each cell, each row, its text, and all rows. -/
structure Readable (r : Raster) : Prop where
  cell : ∀ row col, ∃ c, r.cell? row col = .ok c
  row : ∀ row, ∃ line, r.row? row = .ok line
  text : ∀ row, ∃ text, r.rowText row = .ok text
  rows : ∃ lines, r.rows = .ok lines

/-- The raster after operations on an emulator of this size. -/
def afterAll (d : Dimensions) (ops : List Operation) : Except Fault Raster :=
  blank d >>= changeAll (Reader.fresh.operateAll ops).2

/-- Whatever a screen comes to, it is no place outside of the vector. -/
theorem ofScreen?_ne_bounds (o : Option Screen) : ofScreen? o ≠ .error .bounds := by
  cases o <;> simp [ofScreen?]

/-- The raster of a well-formed screen has its shape. -/
theorem shaped_raster {s : Screen} (h : s.WellFormed) : s.raster.Shaped where
  one_le_rows := h.rows_pos
  one_le_cols := h.cols_pos
  length_cells := h.length_lines ▸ length_flatten_lines h.length_line
  row_lt := h.row_lt
  col_lt := h.col_lt
  top_le := h.top_le
  bottom_lt := h.bottom_lt

theorem readable_raster {s : Screen} (h : s.WellFormed) : s.raster.Readable where
  cell row col := ⟨_, Screen.cell?_eq h row col⟩
  row row := ⟨_, Screen.row?_eq h row⟩
  text row := by
    have htext := Screen.rowText_eq h row
    cases hrow : s.raster.rowText row with
    | ok text => exact ⟨text, rfl⟩
    | error fault => rw [hrow] at htext; cases htext
  rows := ⟨_, Screen.rows_eq h⟩

section Run
variable {d : Dimensions} (hd : d.Fits) {ops : List Operation} (hops : ∀ op ∈ ops, op.Fits)
include hd hops

/-- The raster after a run is that of the emulator's screen. -/
theorem afterAll_eq :
    afterAll d ops = ofScreen? (((Emulator.ofDimensions d).operateAll? ops).map Emulator.screen) := by
  have hrun : (((Emulator.ofDimensions d).operateAll? ops).map Emulator.screen) =
      (Screen.blank d).changeAll? (Reader.fresh.operateAll ops).2 := by
    rw [Emulator.operateAll?_eq, Option.map_map]
    exact Option.map_id'
  rw [hrun, afterAll, Screen.blank_eq, Fault.ok_bind]
  exact Screen.changeAll_eq (.blank d) hd.raised (Reader.fits_operateAll hops _)

/-- **No run leaves the vector of cells**, and every run that has a result keeps the raster in
shape. -/
theorem afterAll_stays_in_bounds :
    afterAll d ops ≠ .error .bounds ∧
      ∀ e, (Emulator.ofDimensions d).operateAll? ops = some e →
        afterAll d ops = .ok e.screen.raster ∧ e.screen.raster.Shaped ∧
          e.screen.raster.Readable := by
  -- a screen with or without a value stands for no fault but an overflow
  refine ⟨afterAll_eq hd hops ▸ ofScreen?_ne_bounds _, ?_⟩
  intro e he
  have hrun := he
  rw [Emulator.operateAll?_eq] at hrun
  obtain ⟨s, hs, rfl⟩ := Option.map_eq_some_iff.mp hrun
  have h : s.WellFormed := (Screen.WellFormed.blank d).changeAll? hs
  refine ⟨?_, shaped_raster h, readable_raster h⟩
  rw [afterAll_eq hd hops, he]
  rfl

end Run

/-- Two wide glyphs around a scroll region and inserted lines, a smaller size, and a cell that is
overwritten directly. -/
def glyphsAndResize : List Operation :=
  [.call (.feed [228, 184, 173, 27, 91, 50, 59, 51, 114, 27, 91, 50, 76, 230, 150, 135]),
    .call (.resize ⟨3, 4⟩), .change (.putCell 2 3 { character := '#' }), .call .finish]

theorem fits_glyphsAndResize : ∀ op ∈ glyphsAndResize, op.Fits := by
  simp only [glyphsAndResize, List.forall_mem_cons]
  exact ⟨trivial, ⟨by decide, by decide⟩, trivial, trivial, by simp⟩

/-- The run of `glyphsAndResize` has a result, and keeps the raster in shape. -/
theorem afterAll_glyphsAndResize_in_bounds :
    (⟨0, 5⟩ : Dimensions).Fits ∧ (∀ op ∈ glyphsAndResize, op.Fits) ∧
      afterAll ⟨0, 5⟩ glyphsAndResize ≠ .error .bounds ∧
      ∃ e, (Emulator.ofDimensions ⟨0, 5⟩).operateAll? glyphsAndResize = some e ∧
        afterAll ⟨0, 5⟩ glyphsAndResize = .ok e.screen.raster ∧ e.screen.raster.Shaped ∧
          e.screen.raster.Readable := by
  have hd : (⟨0, 5⟩ : Dimensions).Fits := ⟨by decide, by decide⟩
  have hsome : ((Emulator.ofDimensions ⟨0, 5⟩).operateAll? glyphsAndResize).isSome = true := by
    decide +kernel
  obtain ⟨e, he⟩ := Option.isSome_iff_exists.mp hsome
  obtain ⟨hbounds, hshape⟩ := afterAll_stays_in_bounds hd fits_glyphsAndResize
  exact ⟨hd, fits_glyphsAndResize, hbounds, e, he, hshape e he⟩

end VirtualTerminal.Raster
