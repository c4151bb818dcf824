import VirtualTerminal.Screen.Motion

/-!
# Screen — Edit

Erasing parts of the screen, and inserting and deleting lines and characters at the cursor.  Erased
cells keep nothing but the current background colour.
-/

namespace VirtualTerminal

/-- A part of the screen that erasing clears, by its place relative to the cursor; the cursor's cell
belongs to each of them. -/
inductive EraseRegion where
  | lineToEnd
  | lineFromStart
  | wholeLine
  | screenToEnd
  | screenFromStart
  | wholeScreen
deriving DecidableEq, Repr

/-- Reading order: by rows, and from left to right within a row. -/
def Position.le (p q : Position) : Bool := p.row < q.row || (p.row == q.row && p.col ≤ q.col)

/-- The first and the last cell of a region, in reading order. -/
def EraseRegion.bounds (region : EraseRegion) (d : Dimensions) (cursor : Position) :
    Position × Position :=
  match region with
  | .lineToEnd => (cursor, ⟨cursor.row, d.cols - 1⟩)
  | .lineFromStart => (⟨cursor.row, 0⟩, cursor)
  | .wholeLine => (⟨cursor.row, 0⟩, ⟨cursor.row, d.cols - 1⟩)
  | .screenToEnd => (cursor, ⟨d.rows - 1, d.cols - 1⟩)
  | .screenFromStart => (.origin, cursor)
  | .wholeScreen => (.origin, ⟨d.rows - 1, d.cols - 1⟩)

namespace Screen

/-- Replaces the cells from the first to the last position in reading order. -/
def fill (s : Screen) (first last : Position) (c : Cell) : Screen :=
  { s with
    lines := s.lines.mapIdx fun row line =>
      line.mapIdx fun col old =>
        if first.le ⟨row, col⟩ && Position.le ⟨row, col⟩ last then c else old }

/-- Erases a part of the screen. -/
def erase (s : Screen) (region : EraseRegion) : Screen :=
  let (first, last) := region.bounds s.dims s.cursor
  s.fill first last s.erased

/-- The cursor's row lies in the scroll region. -/
def cursorInMargins (s : Screen) : Bool :=
  s.margins.top ≤ s.cursor.row && s.cursor.row ≤ s.margins.bottom

/-- Inserts lines at the cursor's row, within the scroll region. -/
def insertLines (s : Screen) (n : Nat) : Screen :=
  if s.cursorInMargins then (s.shiftLinesDown s.cursor.row s.margins.bottom n).carriageReturn else s

/-- Deletes lines at the cursor's row, within the scroll region. -/
def deleteLines (s : Screen) (n : Nat) : Screen :=
  if s.cursorInMargins then (s.shiftLinesUp s.cursor.row s.margins.bottom n).carriageReturn else s

/-- The number of cells that an edit of `n` cells at the cursor reaches. -/
def reach (s : Screen) (n : Nat) : Nat := min n (s.dims.cols - s.cursor.col)

/-- Inserts blanks at the cursor; cells pushed over the right edge are lost. -/
def insertChars (s : Screen) (n : Nat) : Screen :=
  { s.modifyCursorLine fun line =>
      Line.mend (Line.insertBlanks line s.cursor.col (s.reach n) s.erased) with
    pendingWrap := false }

/-- Deletes cells at the cursor; blanks enter at the right edge. -/
def deleteChars (s : Screen) (n : Nat) : Screen :=
  { s.modifyCursorLine fun line =>
      Line.mend (Line.deleteCells line s.cursor.col (s.reach n) s.erased) with
    pendingWrap := false }

/-- Blanks cells from the cursor on. -/
def eraseChars (s : Screen) (n : Nat) : Screen :=
  s.modifyCursorLine fun line =>
    Line.mend (Line.blankCells line s.cursor.col (s.reach n) s.erased)

end Screen

end VirtualTerminal
