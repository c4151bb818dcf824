import VirtualTerminal.Geometry
import VirtualTerminal.Screen.Line

/-!
# Screen — the grid and its cursor

A screen is a grid of lines with a cursor, a scroll region, and the style, link and mark given to
the next character.  Writing into the last column does not move the cursor past the edge: it arms a
pending wrap, which the next character carries out.
-/

namespace VirtualTerminal

/-- What restoring the cursor brings back. -/
structure SavedCursor where
  position : Position
  style : Style
  pendingWrap : Bool
deriving DecidableEq, Repr, Inhabited

/-- The first and the last row that scrolling moves. -/
structure Margins where
  top : Nat
  bottom : Nat
deriving DecidableEq, Repr, Inhabited

/-- A grid of cells with the state of its cursor. -/
structure Screen where
  dims : Dimensions
  lines : List Line
  cursor : Position
  visible : Bool
  saved : Option SavedCursor
  margins : Margins
  pendingWrap : Bool
  autowrap : Bool
  style : Style
  link : Option String
  mark : Option BlockMark
deriving DecidableEq, Repr, Inhabited

namespace Screen

/-- A blank screen; zero rows or columns are raised to one. -/
def blank (d : Dimensions) : Screen :=
  let d := d.raised
  { dims := d
    lines := List.replicate d.rows (Line.empty d.cols)
    cursor := .origin
    visible := true
    saved := none
    margins := ⟨0, d.rows - 1⟩
    pendingWrap := false
    autowrap := true
    style := .plain
    link := none
    mark := none }

/-- The cell at a place of the grid. -/
def cell? (s : Screen) (row col : Nat) : Option Cell :=
  (s.lines[row]?).bind fun l => l[col]?

/-- Overwrites one cell of the grid. -/
def putCell? (s : Screen) (row col : Nat) (c : Cell) : Option Screen :=
  if row < s.dims.rows ∧ col < s.dims.cols then
    some { s with lines := s.lines.modify row fun line => line.set col c }
  else none

/-- Changes the cursor's line. -/
def modifyCursorLine (s : Screen) (f : Line → Line) : Screen :=
  { s with lines := s.lines.modify s.cursor.row f }

/-- What erasing leaves behind. -/
def erased (s : Screen) : Cell := Cell.erased s.style.background

/-- The characters of a row up to its last cell that shows something. -/
def rowText (s : Screen) (row : Nat) : String :=
  String.ofList (((s.lines[row]?).map Line.text).getD [])

/-- The text of all rows, joined by line feeds. -/
def content (s : Screen) : String :=
  "\n".intercalate (s.lines.map fun line => String.ofList (Line.text line))

/-- Shows or hides the cursor. -/
def setVisible (s : Screen) (on : Bool) : Screen := { s with visible := on }

/-- Turns wrapping at the right edge on or off; off disarms a pending wrap. -/
def setAutowrap (s : Screen) (on : Bool) : Screen :=
  { s with autowrap := on, pendingWrap := on && s.pendingWrap }

/-- Sets the style of the next character. -/
def setStyle (s : Screen) (style : Style) : Screen := { s with style := style }

/-- Sets or clears the link of the next character. -/
def setLink (s : Screen) (link : Option String) : Screen := { s with link := link }

/-- Sets or clears the mark of the next character. -/
def setMark (s : Screen) (mark : Option BlockMark) : Screen := { s with mark := mark }

/-- A blank screen of the same size. -/
def reset (s : Screen) : Screen := blank s.dims

end Screen

end VirtualTerminal
