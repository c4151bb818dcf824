import VirtualTerminal.Screen.Scroll

/-!
# Screen — Motion

Moving the cursor.  Every motion disarms a pending wrap.  Vertical motion stops at the margin of
the scroll region if it starts on the inner side of it, and at the edge of the screen otherwise; a
line feed on the bottom margin scrolls instead of moving.
-/

namespace VirtualTerminal.Screen

/-- Puts the cursor on a place, or on the nearest one the grid has. -/
def moveCursor (s : Screen) (row col : Nat) : Screen :=
  { s with cursor := s.dims.clamp ⟨row, col⟩, pendingWrap := false }

/-- Puts the cursor on a row of its column. -/
def moveToRow (s : Screen) (row : Nat) : Screen := s.moveCursor row s.cursor.col

/-- Puts the cursor on a column of its row. -/
def moveToColumn (s : Screen) (col : Nat) : Screen := s.moveCursor s.cursor.row col

/-- Moves the cursor up. -/
def cursorUp (s : Screen) (n : Nat) : Screen :=
  let limit := if s.margins.top ≤ s.cursor.row then s.margins.top else 0
  { s with cursor := ⟨max (s.cursor.row - n) limit, s.cursor.col⟩, pendingWrap := false }

/-- Moves the cursor down. -/
def cursorDown (s : Screen) (n : Nat) : Screen :=
  let limit := if s.cursor.row ≤ s.margins.bottom then s.margins.bottom else s.dims.rows - 1
  { s with cursor := ⟨min (s.cursor.row + n) limit, s.cursor.col⟩, pendingWrap := false }

/-- Moves the cursor right. -/
def cursorForward (s : Screen) (n : Nat) : Screen :=
  { s with
    cursor := ⟨s.cursor.row, min (s.cursor.col + n) (s.dims.cols - 1)⟩, pendingWrap := false }

/-- Moves the cursor left. -/
def cursorBackward (s : Screen) (n : Nat) : Screen :=
  { s with cursor := ⟨s.cursor.row, s.cursor.col - n⟩, pendingWrap := false }

/-- Moves the cursor left by one column. -/
def backspace (s : Screen) : Screen := s.cursorBackward 1

/-- Moves the cursor to the first column. -/
def carriageReturn (s : Screen) : Screen :=
  { s with cursor := ⟨s.cursor.row, 0⟩, pendingWrap := false }

/-- The distance of tab stops. -/
def tabWidth : Nat := 8

/-- Moves the cursor to the next tab stop, or to the last column; no value if the stop is no
sixteen-bit column. -/
def tab? (s : Screen) : Option Screen := do
  let next ← Word.add? (s.cursor.col / tabWidth) 1
  let stop ← Word.mul? next tabWidth
  return { s with cursor := ⟨s.cursor.row, min stop (s.dims.cols - 1)⟩, pendingWrap := false }

/-- Moves the cursor down by one row, scrolling up on the bottom margin. -/
def indexDown (s : Screen) : Screen :=
  if s.cursor.row = s.margins.bottom then s.scrollUp 1
  else if s.cursor.row + 1 < s.dims.rows then { s with cursor := ⟨s.cursor.row + 1, s.cursor.col⟩ }
  else s

/-- Moves the cursor up by one row, scrolling down on the top margin. -/
def indexUp (s : Screen) : Screen :=
  if s.cursor.row = s.margins.top then s.scrollDown 1
  else { s with cursor := ⟨s.cursor.row - 1, s.cursor.col⟩ }

/-- Obeys a line feed. -/
def lineFeed (s : Screen) : Screen := { s with pendingWrap := false }.indexDown

/-- Obeys a reverse line feed. -/
def reverseIndex (s : Screen) : Screen := { s with pendingWrap := false }.indexUp

/-- Continues on the next line. -/
def wrap (s : Screen) : Screen :=
  { s with cursor := ⟨s.cursor.row, 0⟩, pendingWrap := false }.indexDown

/-- Sets the scroll region and homes the cursor.  Margins that are out of order or outside the
screen make the whole screen the region. -/
def setMargins (s : Screen) (top bottom : Nat) : Screen :=
  let last := s.dims.rows - 1
  { s with margins := if top < bottom ∧ bottom ≤ last then ⟨top, bottom⟩ else ⟨0, last⟩ }.moveCursor
    0 0

/-- Keeps the cursor's position, style and pending wrap. -/
def saveCursor (s : Screen) : Screen :=
  { s with saved := some ⟨s.cursor, s.style, s.pendingWrap⟩ }

/-- Brings back what was kept; with nothing kept, homes the cursor and resets the style. -/
def restoreCursor (s : Screen) : Screen :=
  match s.saved with
  | some saved =>
    { s with
      cursor := s.dims.clamp saved.position, style := saved.style, pendingWrap := saved.pendingWrap }
  | none => { s.moveCursor 0 0 with style := .plain }

end VirtualTerminal.Screen
