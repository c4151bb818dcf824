import VirtualTerminal.Style

/-!
# Cell — one place of the grid

A cell holds a character with its style, hyperlink and block mark.  A wide glyph takes two cells:
the first holds the character, the second is a *spacer* and shows nothing of its own.
-/

namespace VirtualTerminal

/-- What a block of shell text is, as the shell announces it. -/
inductive BlockMark where
  | prompt
  | input
  | output
deriving DecidableEq, Repr, Inhabited

/-- The name of a mark. -/
def BlockMark.name : BlockMark → String
  | .prompt => "prompt"
  | .input => "input"
  | .output => "output"

/-- One place of the grid. -/
structure Cell where
  character : Char := ' '
  style : Style := .plain
  link : Option String := none
  mark : Option BlockMark := none
  spacer : Bool := false
deriving DecidableEq, Repr, Inhabited

namespace Cell

/-- An unwritten cell: a space in the plain style. -/
def empty : Cell := {}

/-- A cell with this character in the plain style. -/
def ofChar (c : Char) : Cell := { character := c }

/-- A cell with this character and style. -/
def styled (c : Char) (s : Style) : Cell := { character := c, style := s }

/-- The cell that erasing leaves behind: a space that carries only the background colour. -/
def erased (background : Color) : Cell := { style := { background := background } }

/-- A cell that shows nothing: a plain space without link and mark, and no spacer. -/
def isBlank (c : Cell) : Bool :=
  c.character == ' ' && !c.spacer && c.style.isPlain && c.link.isNone && c.mark.isNone

/-- Two cells of one run agree in style, link and mark. -/
def sameRun (a b : Cell) : Bool :=
  a.style == b.style && a.link == b.link && a.mark == b.mark

/-- The cell with its character replaced by a space. -/
def withoutGlyph (c : Cell) : Cell := { c with character := ' ' }

/-- The cell as no spacer. -/
def unspaced (c : Cell) : Cell := { c with spacer := false }

end Cell

end VirtualTerminal
