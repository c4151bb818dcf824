import VirtualTerminal.Proofs.Pairing.Screen
import VirtualTerminal.Proofs.Raster.Refinement

/-!
# Rows — shifting and erasing, row by row

What shifting a range of rows leaves in each row (`Screen.MovedUp`, `Screen.MovedDown`), and what
erasing leaves in each place (`Screen.Erased`).  The row or the place is read off the screen as it
was before, so nothing is said of the order in which cells are moved.

A raster turns a slice of its vector round and fills a part of it.  It comes to the same rows
(`Screen.shifts_and_erases_by_rows`).
-/

namespace VirtualTerminal

/-! ### Ranges of lines -/

section Shift
variable {lines : List Line} {first last : Nat} (hle : first ≤ last) (hlt : last < lines.length)
include hle hlt

/-- Other lines in the place of a range. -/
theorem getElem?_splice {middle : List Line} (hm : middle.length = last + 1 - first) (row : Nat) :
    (lines.take first ++ middle ++ lines.drop (last + 1))[row]? =
      if first ≤ row ∧ row ≤ last then middle[row - first]? else lines[row]? := by
  have hfront : (lines.take first).length = first := List.length_take_of_le (by omega)
  rw [List.getElem?_append, List.getElem?_append, List.length_append, hfront, hm]
  by_cases habove : row < first
  · rw [if_pos (by omega), if_pos habove, if_neg (by omega), List.getElem?_take_of_lt habove]
  · by_cases hin : row ≤ last
    · rw [if_pos (by omega), if_neg habove, if_pos ⟨by omega, hin⟩]
    · rw [if_neg (by omega), if_neg (by omega), List.getElem?_drop]
      congr 1
      omega

/-- Each row after a shift up: of the range, of the blanks that came in, or as it was. -/
theorem getElem?_shiftUp (n : Nat) (blank : Line) (row : Nat) :
    (shiftUp lines first last n blank)[row]? =
      if first ≤ row ∧ row ≤ last then
        if row + min n (last + 1 - first) ≤ last then lines[row + min n (last + 1 - first)]?
        else some blank
      else lines[row]? := by
  have hk : min n (last + 1 - first) ≤ last + 1 - first := Nat.min_le_right ..
  simp only [shiftUp]
  generalize min n (last + 1 - first) = k at hk ⊢
  have hkept : (((lines.drop first).take (last + 1 - first)).drop k).length =
      last + 1 - first - k := by
    simp only [List.length_drop, List.length_take]
    omega
  rw [getElem?_splice hle hlt (by rw [List.length_append, hkept, List.length_replicate]; omega)]
  split
  · next hin =>
    rw [List.getElem?_append, hkept]
    by_cases hkeep : row + k ≤ last
    · rw [if_pos (by omega), if_pos hkeep, List.getElem?_drop, List.getElem?_take_of_lt (by omega),
        List.getElem?_drop]
      congr 1
      omega
    · rw [if_neg (by omega), if_neg hkeep, List.getElem?_replicate, if_pos (by omega)]
  · rfl

/-- Each row after a shift down. -/
theorem getElem?_shiftDown (n : Nat) (blank : Line) (row : Nat) :
    (shiftDown lines first last n blank)[row]? =
      if first ≤ row ∧ row ≤ last then
        if first + min n (last + 1 - first) ≤ row then lines[row - min n (last + 1 - first)]?
        else some blank
      else lines[row]? := by
  have hk : min n (last + 1 - first) ≤ last + 1 - first := Nat.min_le_right ..
  simp only [shiftDown]
  generalize min n (last + 1 - first) = k at hk ⊢
  have hkept : (((lines.drop first).take (last + 1 - first)).take
      (last + 1 - first - k)).length = last + 1 - first - k := by
    simp only [List.length_take, List.length_drop]
    omega
  rw [getElem?_splice hle hlt (by rw [List.length_append, hkept, List.length_replicate]; omega)]
  split
  · next hin =>
    rw [List.getElem?_append, List.length_replicate]
    by_cases hkeep : first + k ≤ row
    · rw [if_neg (by omega), if_pos hkeep, List.getElem?_take_of_lt (by omega),
        List.getElem?_take_of_lt (by omega), List.getElem?_drop]
      congr 1
      omega
    · rw [if_pos (by omega), if_neg hkeep, List.getElem?_replicate, if_pos (by omega)]
  · rfl

end Shift

/-! ### Places that erasing names -/

/-- The region has the place; where it is the cursor's, whichever region it is. -/
def EraseRegion.Names (region : EraseRegion) (cursor : Position) (row col : Nat) : Prop :=
  match region with
  | .lineToEnd => row = cursor.row ∧ cursor.col ≤ col
  | .lineFromStart => row = cursor.row ∧ col ≤ cursor.col
  | .wholeLine => row = cursor.row
  | .screenToEnd => cursor.row < row ∨ row = cursor.row ∧ cursor.col ≤ col
  | .screenFromStart => row < cursor.row ∨ row = cursor.row ∧ col ≤ cursor.col
  | .wholeScreen => True

instance (region : EraseRegion) (cursor : Position) (row col : Nat) :
    Decidable (region.Names cursor row col) :=
  match region with
  | .lineToEnd => inferInstanceAs (Decidable (_ ∧ _))
  | .lineFromStart => inferInstanceAs (Decidable (_ ∧ _))
  | .wholeLine => inferInstanceAs (Decidable (_ = _))
  | .screenToEnd => inferInstanceAs (Decidable (_ ∨ _))
  | .screenFromStart => inferInstanceAs (Decidable (_ ∨ _))
  | .wholeScreen => inferInstanceAs (Decidable True)

/-- Every region names the cursor's own place. -/
theorem EraseRegion.names_cursor (region : EraseRegion) (cursor : Position) :
    region.Names cursor cursor.row cursor.col := by
  cases region <;> simp [Names]

namespace Screen

variable {s : Screen}

/-- On the grid, the places between the ends of a region in reading order are those it names. -/
theorem between_bounds_iff (region : EraseRegion) {d : Dimensions} (cursor : Position)
    {row col : Nat} (hrow : row < d.rows) (hcol : col < d.cols) :
    between (region.bounds d cursor).1 (region.bounds d cursor).2 row col = true ↔
      region.Names cursor row col := by
  rw [between_eq_true_iff]
  cases region <;> simp only [EraseRegion.bounds, EraseRegion.Names, Position.origin, iff_true] <;>
    omega

/-- Filling replaces the cells between its ends in reading order. -/
theorem cell?_fill (s : Screen) (first last : Position) (c : Cell) (row col : Nat) :
    (s.fill first last c).cell? row col =
      (s.cell? row col).map fun old => if between first last row col then c else old := by
  simp only [cell?, fill, List.getElem?_mapIdx, Option.bind_map, Option.map_bind,
    Function.comp_def]
  rfl

/-- A row that the range does not reach. -/
theorem getElem?_fill_of_outside {first last : Position} {row : Nat}
    (hout : ∀ col, between first last row col = false) (c : Cell) :
    (s.fill first last c).lines[row]? = s.lines[row]? := by
  rw [fill, List.getElem?_mapIdx]
  cases s.lines[row]? with
  | none => rfl
  | some l =>
    refine congrArg some (List.ext_getElem? fun col => ?_)
    rw [List.getElem?_mapIdx]
    cases l[col]? with
    | none => rfl
    | some old => exact congrArg some (if_neg (Bool.eq_false_iff.mp (hout col)))

theorem WellFormed.lt_of_cell? (h : s.WellFormed) {row col : Nat} {c : Cell}
    (hc : s.cell? row col = some c) : row < s.dims.rows ∧ col < s.dims.cols := by
  obtain ⟨line, hline, hcell⟩ := Option.bind_eq_some_iff.mp hc
  obtain ⟨hrow, -⟩ := List.getElem?_eq_some_iff.mp hline
  obtain ⟨hcol, -⟩ := List.getElem?_eq_some_iff.mp hcell
  exact ⟨h.length_lines ▸ hrow, h.length_line line (List.mem_of_getElem? hline) ▸ hcol⟩

/-! ### The screen afterwards -/

/-- The rows from `first` to `last` have moved up by `n`, or by their number where that is less: a
row holds what was that far below it, or nothing where that is behind the range.  All else is as it
was. -/
def MovedUp (s : Screen) (first last n : Nat) (s' : Screen) : Prop :=
  s' = { s with lines := s'.lines } ∧ ∀ row, s'.lines[row]? =
    if first ≤ row ∧ row ≤ last then
      if row + min n (last + 1 - first) ≤ last then s.lines[row + min n (last + 1 - first)]?
      else some (Line.empty s.dims.cols)
    else s.lines[row]?

/-- The rows from `first` to `last` have moved down by `n`, or by their number where that is less: a
row holds what was that far above it, or nothing where that is before the range.  All else is as it
was. -/
def MovedDown (s : Screen) (first last n : Nat) (s' : Screen) : Prop :=
  s' = { s with lines := s'.lines } ∧ ∀ row, s'.lines[row]? =
    if first ≤ row ∧ row ≤ last then
      if first + min n (last + 1 - first) ≤ row then s.lines[row - min n (last + 1 - first)]?
      else some (Line.empty s.dims.cols)
    else s.lines[row]?

/-- The cells that the region names are spaces that carry only the background colour.  All else is
as it was. -/
def Erased (s : Screen) (region : EraseRegion) (s' : Screen) : Prop :=
  s' = { s with lines := s'.lines } ∧ ∀ row col, s'.cell? row col =
    (s.cell? row col).map fun old =>
      if region.Names s.cursor row col then Cell.erased s.style.background else old

section Range
variable (h : s.WellFormed) {first last : Nat} (hle : first ≤ last) (hlt : last < s.dims.rows)
include h hle hlt

theorem movedUp_shiftLinesUp (n : Nat) : s.MovedUp first last n (s.shiftLinesUp first last n) :=
  ⟨rfl, getElem?_shiftUp hle (h.length_lines ▸ hlt) n (Line.empty s.dims.cols)⟩

theorem movedDown_shiftLinesDown (n : Nat) :
    s.MovedDown first last n (s.shiftLinesDown first last n) :=
  ⟨rfl, getElem?_shiftDown hle (h.length_lines ▸ hlt) n (Line.empty s.dims.cols)⟩

end Range

/-- **Erasing** blanks the cells that the region names, and no other. -/
theorem erased_erase (h : s.WellFormed) (region : EraseRegion) :
    s.Erased region (s.erase region) := by
  refine ⟨rfl, fun row col => ?_⟩
  have herase : (s.erase region).cell? row col =
      (s.cell? row col).map fun old =>
        if between (region.bounds s.dims s.cursor).1 (region.bounds s.dims s.cursor).2 row col then
          s.erased else old :=
    cell?_fill ..
  rw [herase]
  cases hc : s.cell? row col with
  | none => rfl
  | some old =>
    obtain ⟨hrow, hcol⟩ := h.lt_of_cell? hc
    simp only [Option.map_some, between_bounds_iff region s.cursor hrow hcol]
    rfl

section InMargins
variable (h : s.WellFormed)
include h

/-- Inserting lines moves the rest of the region down, below the cursor in its first column. -/
theorem movedDown_insertLines (hin : s.margins.top ≤ s.cursor.row ∧ s.cursor.row ≤ s.margins.bottom)
    (n : Nat) :
    { s with cursor := ⟨s.cursor.row, 0⟩, pendingWrap := false }.MovedDown s.cursor.row
      s.margins.bottom n (s.insertLines n) := by
  have hmargins : s.cursorInMargins = true := by simpa [cursorInMargins] using hin
  rw [insertLines, if_pos hmargins]
  exact movedDown_shiftLinesDown h.carriageReturn hin.2 h.bottom_lt n

/-- Deleting lines moves the rest of the region up. -/
theorem movedUp_deleteLines (hin : s.margins.top ≤ s.cursor.row ∧ s.cursor.row ≤ s.margins.bottom)
    (n : Nat) :
    { s with cursor := ⟨s.cursor.row, 0⟩, pendingWrap := false }.MovedUp s.cursor.row
      s.margins.bottom n (s.deleteLines n) := by
  have hmargins : s.cursorInMargins = true := by simpa [cursorInMargins] using hin
  rw [deleteLines, if_pos hmargins]
  exact movedUp_shiftLinesUp h.carriageReturn hin.2 h.bottom_lt n

omit h in
/-- Outside of the scroll region lines are neither inserted nor deleted. -/
theorem insertLines_deleteLines_outside
    (hout : ¬ (s.margins.top ≤ s.cursor.row ∧ s.cursor.row ≤ s.margins.bottom)) (n : Nat) :
    s.insertLines n = s ∧ s.deleteLines n = s := by
  have hmargins : ¬ s.cursorInMargins = true := by simpa [cursorInMargins] using hout
  exact ⟨if_neg hmargins, if_neg hmargins⟩

end InMargins

/-- Four lettered rows, the last three of them a scroll region with the cursor in its middle. -/
def lettered : Screen :=
  { blank ⟨4, 2⟩ with
    lines := ["ab", "cd", "ef", "gh"].map fun row => row.toList.map Cell.ofChar
    cursor := ⟨2, 1⟩
    margins := ⟨1, 3⟩
    style := { background := .palette 4 } }

theorem wellFormed_lettered : lettered.WellFormed := by
  constructor <;> decide

end Screen

end VirtualTerminal
