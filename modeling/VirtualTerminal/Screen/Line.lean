import VirtualTerminal.Cell
import VirtualTerminal.Text.Width

/-!
# Screen — Line

A line is a list of cells.  Writing over one half of a wide glyph blanks the other half, so that no
half is left alone; after cells have been shifted or blanked, `mend` restores the same rule for a
whole line.
-/

namespace VirtualTerminal

/-- One row of the grid. -/
abbrev Line := List Cell

namespace Line

/-- A line of unwritten cells. -/
def empty (cols : Nat) : Line := List.replicate cols Cell.empty

/-- The column holds a spacer. -/
def spacerAt (l : Line) (col : Nat) : Bool := l[col]?.any Cell.spacer

/-- Blanks the other half of the wide glyph that has a half in this column. -/
def release (l : Line) (col : Nat) : Line :=
  if spacerAt l col then
    (if 0 < col then l.modify (col - 1) Cell.withoutGlyph else l).modify col Cell.unspaced
  else if spacerAt l (col + 1) then
    l.modify (col + 1) fun c => c.withoutGlyph.unspaced
  else l

/-- Puts a glyph of this width into a column, followed by its spacer if it takes two columns. -/
def put (l : Line) (col width : Nat) (glyph : Cell) : Line :=
  if width = 2 then
    ((release (release l col) (col + 1)).set (col + 1)
      { glyph with character := ' ', spacer := true }).set col glyph
  else (release l col).set col glyph

/-- The cell is the first half of a wide glyph, if its neighbour is the second. -/
def leads (c : Cell) : Bool := !c.spacer && Width.isWide c.character

/-- Blanks the halves of wide glyphs that lost their partner; `previous` is the cell before the
line. -/
def mendAfter (previous : Option Cell) : Line → Line
  | [] => []
  | c :: rest =>
    let mended :=
      if c.spacer then if previous.any leads then c else c.withoutGlyph.unspaced
      else if leads c && !rest.head?.any Cell.spacer then c.withoutGlyph
      else c
    mended :: mendAfter (some mended) rest

/-- Blanks the halves of wide glyphs that lost their partner. -/
def mend (l : Line) : Line := mendAfter none l

/-- Inserts blanks at a column and drops as many cells at the end. -/
def insertBlanks (l : Line) (col n : Nat) (blank : Cell) : Line :=
  l.take col ++ (List.replicate n blank ++ (l.drop col).take (l.length - col - n))

/-- Deletes cells at a column and appends as many blanks. -/
def deleteCells (l : Line) (col n : Nat) (blank : Cell) : Line :=
  l.take col ++ (l.drop (col + n) ++ List.replicate n blank)

/-- Overwrites cells from a column on with blanks. -/
def blankCells (l : Line) (col n : Nat) (blank : Cell) : Line :=
  l.take col ++ (List.replicate n blank ++ l.drop (col + n))

/-- The first half of a wide glyph in the last place becomes a space. -/
def closeEdge (l : Line) : Line :=
  l.modify (l.length - 1) fun c => if leads c then c.withoutGlyph else c

/-- The line cut or padded to another length. -/
def resize (l : Line) (cols : Nat) : Line :=
  if cols < l.length then closeEdge (l.take cols)
  else l ++ List.replicate (cols - l.length) Cell.empty

/-- The line up to its last cell that shows something. -/
def trimmed (l : Line) : Line := (l.reverse.dropWhile Cell.isBlank).reverse

/-- The cells of the trimmed line that are not spacers. -/
def shown (l : Line) : List Cell := (trimmed l).filter fun c => !c.spacer

/-- The characters of the line up to its last cell that shows something. -/
def text (l : Line) : List Char := (shown l).map Cell.character

end Line

end VirtualTerminal
