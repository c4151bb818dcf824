import VirtualTerminal.Proofs.Raster.Edit

/-!
# Raster — Rows

How a vector of cells falls into rows.  Where all lines have the same length, the rows of a raster
lie at the multiples of that length, and taking or dropping lines takes or drops their cells.

A raster that works on one row is written `Screen.focus s row line`: the raster of the screen `s`
with its row `row` replaced by `line`.  In it, reading and writing the cells of that row is reading
and writing the cells of the line (`fetch_focus`, `update_focus`, `store_focus`, `within_focus`).
-/

namespace VirtualTerminal

/-! ### A vector inside a vector -/

namespace Cells

variable {cells : Cells} {i : Nat}

/-- A cell inside the vector is read without a fault. -/
theorem fetch_eq {c : Cell} (h : cells[i]? = some c) : cells.fetch i = .ok c := by
  rw [fetch, h]

/-- A cell inside the vector is written without a fault. -/
theorem store_eq (h : i < cells.length) (c : Cell) : cells.store i c = .ok (cells.set i c) :=
  if_pos h

/-- A cell inside the vector is changed without a fault. -/
theorem update_eq (h : i < cells.length) (f : Cell → Cell) :
    cells.update i f = .ok (cells.modify i f) := by
  rw [update, fetch_eq (List.getElem?_eq_getElem h), Fault.ok_bind, store_eq h,
    List.modify_eq_set, List.getElem?_eq_getElem h]
  rfl

/-- A slice inside the vector is what lies between its ends. -/
theorem slice_eq {start stop : Nat} (h : start ≤ stop) (h' : stop ≤ cells.length) :
    cells.slice start stop = .ok ((cells.take stop).drop start) :=
  if_pos ⟨h, h'⟩

/-- A change of a slice inside the vector leaves what lies around the slice. -/
theorem within_eq {start stop : Nat} (h : start ≤ stop) (h' : stop ≤ cells.length)
    (f : Cells → Except Fault Cells) :
    cells.within start stop f =
      (f ((cells.take stop).drop start)).map fun part =>
        cells.take start ++ part ++ cells.drop stop := by
  rw [within, slice_eq h h', Fault.ok_bind]

/-- A slice inside the vector is filled without a fault. -/
theorem fill_eq {start stop : Nat} (h : start ≤ stop) (h' : stop ≤ cells.length) (c : Cell) :
    cells.fill start stop c =
      .ok (cells.take start ++ List.replicate (stop - start) c ++ cells.drop stop) := by
  rw [fill, within_eq h h', Fault.map_ok, List.length_drop, List.length_take_of_le h']

/-- A rotation by no more than the length moves the front part behind the rest. -/
theorem rotateLeft_eq (h : i ≤ cells.length) :
    cells.rotateLeft i = .ok (cells.drop i ++ cells.take i) :=
  if_pos h

/-- A rotation by no more than the length moves the last part before the rest. -/
theorem rotateRight_eq (h : i ≤ cells.length) :
    cells.rotateRight i =
      .ok (cells.drop (cells.length - i) ++ cells.take (cells.length - i)) :=
  if_pos h

section Middle
variable (front middle back : Cells)

/-- A place counted from the start of the middle part is read there. -/
theorem fetch_middle (h : i < middle.length) :
    fetch (front ++ middle ++ back) (front.length + i) = fetch middle i := by
  rw [fetch, fetch, List.append_assoc, List.getElem?_append_right (Nat.le_add_right ..),
    Nat.add_sub_cancel_left, List.getElem?_append_left h]

/-- Writing in the middle part leaves the parts around it. -/
theorem store_middle (h : i < middle.length) (c : Cell) :
    store (front ++ middle ++ back) (front.length + i) c =
      (store middle i c).map fun middle => front ++ middle ++ back := by
  have hi : front.length + i < (front ++ middle ++ back).length := by
    simp only [List.length_append]; omega
  rw [store_eq hi, store_eq h, Fault.map_ok, List.append_assoc, List.set_append_right _ _
    (Nat.le_add_right ..), Nat.add_sub_cancel_left, List.set_append_left _ _ h,
    ← List.append_assoc]

/-- Changing a cell of the middle part leaves the parts around it. -/
theorem update_middle (h : i < middle.length) (f : Cell → Cell) :
    update (front ++ middle ++ back) (front.length + i) f =
      (update middle i f).map fun middle => front ++ middle ++ back := by
  rw [update, update, fetch_middle front middle back h, fetch_eq (List.getElem?_eq_getElem h),
    Fault.ok_bind, Fault.ok_bind, store_middle front middle back h]

variable {start stop : Nat} (hle : start ≤ stop) (hlt : stop ≤ middle.length)
include hle hlt

/-- A slice that starts and ends in the middle part is a slice of it. -/
theorem slice_middle :
    slice (front ++ middle ++ back) (front.length + start) (front.length + stop) =
      slice middle start stop := by
  have h : front.length + stop ≤ (front ++ middle ++ back).length := by
    simp only [List.length_append]; omega
  rw [slice_eq (by omega) h, slice_eq hle hlt, List.append_assoc, List.take_length_add_append,
    List.drop_length_add_append, List.take_append_of_le_length hlt]

/-- A change within the middle part is made there, and faults as it would there. -/
theorem within_middle (f : Cells → Except Fault Cells) :
    within (front ++ middle ++ back) (front.length + start) (front.length + stop) f =
      (within middle start stop f).map fun middle => front ++ middle ++ back := by
  rw [within, slice_middle front middle back hle hlt, slice_eq hle hlt, Fault.ok_bind,
    within_eq hle hlt, List.append_assoc front, List.take_length_add_append,
    List.drop_length_add_append, List.take_append_of_le_length (Nat.le_trans hle hlt),
    List.drop_append_of_le_length hlt]
  cases f ((middle.take stop).drop start) with
  | error e => rfl
  | ok part => simp only [Fault.map_ok, List.append_assoc]

end Middle

end Cells

/-! ### Lines of one length -/

section Uniform
variable {lines : List Line} {cols : Nat} (h : ∀ l ∈ lines, l.length = cols)
include h

/-- Rows of one length take up that length each. -/
theorem length_flatten_lines : lines.flatten.length = lines.length * cols := by
  rw [List.length_flatten, List.map_congr_left h, List.map_const', List.sum_replicate_nat]

/-- The first `n` rows are the first `n * cols` cells. -/
theorem take_flatten_lines (n : Nat) : (lines.take n).flatten = lines.flatten.take (n * cols) := by
  induction n generalizing lines with
  | zero => simp
  | succ n ih =>
    cases lines with
    | nil => simp
    | cons l lines =>
      have hl : l.length = cols := h l List.mem_cons_self
      rw [List.take_succ_cons, List.flatten_cons, List.flatten_cons,
        ih fun l' hl' => h l' (List.mem_cons_of_mem _ hl'), Nat.succ_mul, Nat.add_comm, ← hl,
        List.take_length_add_append]

/-- The rows behind the first `n` are the cells behind the first `n * cols`. -/
theorem drop_flatten_lines (n : Nat) : (lines.drop n).flatten = lines.flatten.drop (n * cols) := by
  induction n generalizing lines with
  | zero => simp
  | succ n ih =>
    cases lines with
    | nil => simp
    | cons l lines =>
      have hl : l.length = cols := h l List.mem_cons_self
      rw [List.drop_succ_cons, List.flatten_cons,
        ih fun l' hl' => h l' (List.mem_cons_of_mem _ hl'), Nat.succ_mul, Nat.add_comm, ← hl,
        List.drop_length_add_append]

/-- The cell of a row and a column. -/
theorem getElem?_flatten_lines {row col : Nat} (hc : col < cols) :
    lines.flatten[row * cols + col]? = (lines[row]?).bind fun l => l[col]? := by
  -- with the rows above dropped, the row is the first one
  have hr : lines[row]? = (lines.drop row)[0]? := by rw [List.getElem?_drop, Nat.add_zero]
  rw [← List.getElem?_drop, ← drop_flatten_lines h, hr]
  cases hd : lines.drop row with
  | nil => rfl
  | cons l rest =>
    have hl : l.length = cols := h l (List.mem_of_mem_drop (hd ▸ List.mem_cons_self))
    rw [List.flatten_cons, List.getElem?_append_left (hl ▸ hc)]
    rfl

/-- Row `n` starts at place `n * cols`. -/
theorem length_take_flatten {n : Nat} (hn : n ≤ lines.length) :
    (lines.take n).flatten.length = n * cols := by
  rw [length_flatten_lines fun l hl => h l (List.mem_of_mem_take hl), List.length_take_of_le hn]

end Uniform

/-! ### One row of a raster -/

namespace Screen

/-- The raster of a screen with one of its rows replaced. -/
def focus (s : Screen) (row : Nat) (line : Line) : Raster :=
  { s with lines := s.lines.set row line }.raster

@[simp] theorem dims_raster (s : Screen) : s.raster.dims = s.dims := rfl

@[simp] theorem cursor_raster (s : Screen) : s.raster.cursor = s.cursor := rfl

@[simp] theorem saved_raster (s : Screen) : s.raster.saved = s.saved := rfl

@[simp] theorem margins_raster (s : Screen) : s.raster.margins = s.margins := rfl

@[simp] theorem pendingWrap_raster (s : Screen) : s.raster.pendingWrap = s.pendingWrap := rfl

@[simp] theorem autowrap_raster (s : Screen) : s.raster.autowrap = s.autowrap := rfl

@[simp] theorem style_raster (s : Screen) : s.raster.style = s.style := rfl

@[simp] theorem cursor_focus (s : Screen) (row : Nat) (line : Line) :
    (s.focus row line).cursor = s.cursor := rfl

/-- A raster focussed on a row it has is the raster. -/
theorem raster_eq_focus {s : Screen} {row : Nat} {line : Line} (h : s.lines[row]? = some line) :
    s.raster = s.focus row line := by
  obtain ⟨hlt, rfl⟩ := List.getElem?_eq_some_iff.mp h
  rw [focus, List.set_getElem_self]

/-- Changing the cursor's line replaces its row. -/
theorem raster_modifyCursorLine {s : Screen} {line : Line} (f : Line → Line)
    (h : s.lines[s.cursor.row]? = some line) :
    (s.modifyCursorLine f).raster = s.focus s.cursor.row (f line) := by
  rw [modifyCursorLine, focus, List.modify_eq_set, h]
  rfl

section Focus
variable {s : Screen} {row col : Nat} {line : Line} (h : s.WellFormed) (hr : row < s.dims.rows)
include h hr

/-- The cells of a focussed raster: those above the row, the row's own, those below. -/
theorem cells_focus (line : Line) :
    (s.focus row line).cells =
      (s.lines.take row).flatten ++ line ++ (s.lines.drop (row + 1)).flatten := by
  have hlt : row < s.lines.length := h.length_lines ▸ hr
  simp only [focus, raster, List.set_eq_take_append_cons_drop, if_pos hlt, List.flatten_append,
    List.flatten_cons, List.append_assoc]

/-- Where the cells of the row begin. -/
theorem index_focus (line : Line) (col : Nat) :
    (s.focus row line).index row col = (s.lines.take row).flatten.length + col := by
  rw [length_take_flatten h.length_line (h.length_lines ▸ Nat.le_of_lt hr)]
  rfl

/-- The raster with other cells in the row. -/
theorem withCells_focus (g : Except Fault Cells) :
    (s.focus row line).withCells (g.map fun line =>
      (s.lines.take row).flatten ++ line ++ (s.lines.drop (row + 1)).flatten) =
      g.map (s.focus row) := by
  cases g with
  | error e => rfl
  | ok line' => rw [Fault.map_ok, Fault.map_ok, ← cells_focus h hr]; rfl

/-- Reading in a focussed row reads that row alone. -/
theorem fetch_focus (hc : col < line.length) :
    (s.focus row line).cells.fetch ((s.focus row line).index row col) = Cells.fetch line col := by
  rw [index_focus h hr, cells_focus h hr, Cells.fetch_middle _ _ _ hc]

/-- Writing in a focussed row replaces that row alone. -/
theorem store_focus (hc : col < line.length) (c : Cell) :
    (s.focus row line).withCells
      ((s.focus row line).cells.store ((s.focus row line).index row col) c) =
      (Cells.store line col c).map (s.focus row) := by
  rw [index_focus h hr, cells_focus h hr, Cells.store_middle _ _ _ hc, withCells_focus h hr]

/-- Changing a cell of a focussed row changes that row alone. -/
theorem update_focus (hc : col < line.length) (f : Cell → Cell) :
    (s.focus row line).withCells
      ((s.focus row line).cells.update ((s.focus row line).index row col) f) =
      (Cells.update line col f).map (s.focus row) := by
  rw [index_focus h hr, cells_focus h hr, Cells.update_middle _ _ _ hc, withCells_focus h hr]

/-- A change within a focussed row is a change of that row, with the faults it has there. -/
theorem within_focus {start stop : Nat} (hle : start ≤ stop) (hlt : stop ≤ line.length)
    (f : Cells → Except Fault Cells) :
    (s.focus row line).withCells
      ((s.focus row line).cells.within ((s.focus row line).index row start)
        ((s.focus row line).index row stop) f) =
      (Cells.within line start stop f).map (s.focus row) := by
  rw [index_focus h hr, index_focus h hr, cells_focus h hr, Cells.within_middle _ _ _ hle hlt,
    withCells_focus h hr]

end Focus

/-- The first cells of a row. -/
theorem slice_row {s : Screen} (h : s.WellFormed) {row width : Nat} {line : Line}
    (hget : s.lines[row]? = some line) (hw : width ≤ s.dims.cols) :
    s.raster.cells.slice (s.raster.index row 0) (s.raster.index row 0 + width) =
      .ok (line.take width) := by
  have hr : row < s.dims.rows := h.length_lines ▸ (List.getElem?_eq_some_iff.mp hget).1
  have hw' : width ≤ line.length := h.length_line line (List.mem_of_getElem? hget) ▸ hw
  rw [raster_eq_focus hget, index_focus h hr, cells_focus h hr]
  refine (Cells.slice_middle _ _ _ (Nat.zero_le width) hw').trans ?_
  rw [Cells.slice_eq (Nat.zero_le width) hw', List.drop_zero]

/-- A row of the raster is the line of the screen, without a fault also past the last one. -/
theorem row?_eq {s : Screen} (h : s.WellFormed) (row : Nat) :
    s.raster.row? row = .ok s.lines[row]? := by
  rw [Raster.row?, dims_raster]
  by_cases hr : row < s.dims.rows
  · obtain ⟨line, hget, hl⟩ := h.exists_line hr
    rw [if_pos hr, slice_row h hget (Nat.le_refl _), ← hl, List.take_length, hget]
    rfl
  · rw [if_neg hr, List.getElem?_eq_none (h.length_lines ▸ Nat.le_of_not_lt hr)]

/-! ### Reading -/

end Screen

namespace Cells

/-- The trimmed line is what is significant of it. -/
theorem take_significant (line : Line) : line.take (significant line) = Line.trimmed line := by
  rw [Line.trimmed, List.dropWhile_eq_drop_findIdx_not, List.reverse_drop, List.reverse_reverse,
    List.length_reverse]
  rfl

/-- The raster's text of a row is the line's. -/
theorem text_eq (line : Line) : text line = .ok (Line.text line) := by
  have hle : significant line ≤ line.length := Nat.sub_le ..
  rw [text, slice_eq (Nat.zero_le _) hle, List.drop_zero, take_significant]
  rfl

/-- Rows of one length are found again in the vector. -/
theorem chunks_flatten {lines : List Line} {cols : Nat} (hc : 0 < cols)
    (h : ∀ l ∈ lines, l.length = cols) : chunks cols lines.flatten = lines := by
  induction lines with
  | nil => simp [chunks]
  | cons l lines ih =>
    have hl : l.length = cols := h l List.mem_cons_self
    have hne : ¬ (cols = 0 ∨ (l ++ lines.flatten).isEmpty = true) := by
      rw [List.isEmpty_iff, List.append_eq_nil_iff]
      rintro (hzero | ⟨rfl, -⟩)
      · omega
      · exact absurd hl (Nat.ne_of_lt hc)
    rw [List.flatten_cons, chunks, if_neg hne, List.take_left' hl, List.drop_left' hl,
      ih fun l' hl' => h l' (List.mem_cons_of_mem _ hl')]

end Cells

namespace Screen

variable {s : Screen} (h : s.WellFormed)
include h

/-- A cell is looked up without a fault, also outside the screen. -/
theorem cell?_eq (row col : Nat) : s.raster.cell? row col = .ok (s.cell? row col) := by
  rw [Raster.cell?, cell?, dims_raster]
  by_cases hin : row < s.dims.rows ∧ col < s.dims.cols
  · obtain ⟨line, hget, hl⟩ := h.exists_line hin.1
    have hc : col < line.length := hl ▸ hin.2
    rw [if_pos hin, raster_eq_focus hget, fetch_focus h hin.1 hc,
      Cells.fetch_eq (List.getElem?_eq_getElem hc), hget, Option.bind_some,
      List.getElem?_eq_getElem hc]
    rfl
  · rw [if_neg hin]
    by_cases hr : row < s.dims.rows
    · obtain ⟨line, hget, hl⟩ := h.exists_line hr
      rw [hget, Option.bind_some, List.getElem?_eq_none (by omega)]
    · rw [List.getElem?_eq_none (h.length_lines ▸ Nat.le_of_not_lt hr), Option.bind_none]

/-- The text of a row is read without a fault. -/
theorem rowText_eq (row : Nat) :
    (s.raster.rowText row).map String.ofList = .ok (s.rowText row) := by
  rw [Raster.rowText, row?_eq h, Fault.ok_bind, rowText]
  cases s.lines[row]? with
  | none => rfl
  | some line => rw [Option.map_some, Option.getD_some, Cells.text_eq]; rfl

/-- **The rows of the raster** are the lines of the screen. -/
theorem rows_eq : s.raster.rows = .ok s.lines := by
  have hpos := h.cols_pos
  rw [Raster.rows, dims_raster, if_neg (Nat.ne_of_gt hpos), raster,
    Cells.chunks_flatten hpos h.length_line]

end Screen

end VirtualTerminal
