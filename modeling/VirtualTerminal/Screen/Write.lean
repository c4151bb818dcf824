import VirtualTerminal.Screen.Motion

/-!
# Screen — Write

Showing a character at the cursor.  A character of no or zero width, or one wider than the screen,
changes nothing.  A character that does not fit in the columns left goes to the next line, or, with
wrapping off, to the last columns in which it fits.
-/

namespace VirtualTerminal.Screen

/-- The cell of a character in the current style. -/
def glyph (s : Screen) (c : Char) : Cell :=
  { character := c, style := s.style, link := s.link, mark := s.mark }

/-- Puts a character of this width at the cursor and moves the cursor behind it. -/
def place (s : Screen) (width : Nat) (c : Char) : Screen :=
  let col := s.cursor.col
  let s := s.modifyCursorLine fun line => Line.put line col width (s.glyph c)
  if s.dims.cols ≤ col + width then
    { s with cursor := ⟨s.cursor.row, s.dims.cols - 1⟩, pendingWrap := s.autowrap }
  else { s with cursor := ⟨s.cursor.row, col + width⟩ }

/-- Makes room for a character of this width whose end would lie behind `reach` columns. -/
def makeRoom (s : Screen) (width reach : Nat) : Screen :=
  if s.dims.cols < reach then
    if s.autowrap then s.wrap else { s with cursor := ⟨s.cursor.row, s.dims.cols - width⟩ }
  else s

/-- Shows a character of this width; no value if the column behind it is no sixteen-bit number. -/
def writeWide? (s : Screen) (width : Nat) (c : Char) : Option Screen := do
  let s := if s.pendingWrap then s.wrap else s
  let reach ← Word.add? s.cursor.col width
  return (s.makeRoom width reach).place width c

/-- Shows a character; no value if the column behind it is no sixteen-bit number. -/
def write? (s : Screen) (c : Char) : Option Screen :=
  match Width.columns? c with
  | none => some s
  | some width => if width = 0 ∨ s.dims.cols < width then some s else s.writeWide? width c

end VirtualTerminal.Screen
