import VirtualTerminal.Proofs.Raster.Basic

/-!
# Raster — Edit

The operations of a raster that change cells one by one or in slices of a row: writing, erasing,
inserting and deleting characters, and another size; and from these and `Raster.Basic` what a raster
makes of an instruction and of a change.
-/

namespace VirtualTerminal.Raster

/-! ### Writing -/

/-- The cell of a character in the current style. -/
def glyph (r : Raster) (c : Char) : Cell :=
  { character := c, style := r.style, link := r.link, mark := r.mark }

/-- Blanks the other half of the wide glyph that has a half in this place. -/
def release (r : Raster) (row col : Nat) : Except Fault Raster := do
  let place := r.index row col
  let c ← r.cells.fetch place
  let r ←
    (if c.spacer then
      if 0 < col then do
        let before ← Word.minus col 1
        r.withCells (r.cells.update (r.index row before) Cell.withoutGlyph)
      else .ok r
    else do
      let next ← Word.plus col 1
      if next < r.dims.cols then do
        let n ← r.cells.fetch (place + 1)
        if n.spacer then
          r.withCells (r.cells.update (place + 1) fun c => c.withoutGlyph.unspaced)
        else .ok r
      else .ok r)
  r.withCells (r.cells.update place Cell.unspaced)

/-- Puts a glyph of this width at the cursor, followed by its spacer if it takes two columns. -/
def put (r : Raster) (width : Nat) (glyph : Cell) : Except Fault Raster := do
  let row := r.cursor.row
  let col := r.cursor.col
  let r ← r.release row col
  let r ←
    (if width = 2 then do
      let next ← Word.plus col 1
      let r ← r.release row next
      r.withCells (r.cells.store (r.index row next) { glyph with character := ' ', spacer := true })
    else .ok r)
  r.withCells (r.cells.store (r.index row col) glyph)

/-- Puts a character of this width at the cursor and moves the cursor behind it. -/
def place (r : Raster) (width : Nat) (c : Char) : Except Fault Raster := do
  let row := r.cursor.row
  let col := r.cursor.col
  let r ← r.put width (r.glyph c)
  let next ← Word.plus col width
  if r.dims.cols ≤ next then
    let last ← Word.minus r.dims.cols 1
    .ok { r with cursor := ⟨row, last⟩, pendingWrap := r.autowrap }
  else .ok { r with cursor := ⟨row, next⟩ }

/-- Makes room for a character of this width whose end would lie behind `reach` columns. -/
def makeRoom (r : Raster) (width reach : Nat) : Except Fault Raster :=
  if r.dims.cols < reach then
    if r.autowrap then r.wrap
    else do
      let col ← Word.minus r.dims.cols width
      .ok { r with cursor := ⟨r.cursor.row, col⟩ }
  else .ok r

/-- Shows a character of this width. -/
def writeWide (r : Raster) (width : Nat) (c : Char) : Except Fault Raster := do
  let r ← (if r.pendingWrap then r.wrap else .ok r)
  let reach ← Word.plus r.cursor.col width
  let r ← r.makeRoom width reach
  r.place width c

/-- Shows a character. -/
def write (r : Raster) (c : Char) : Except Fault Raster :=
  match Width.columns? c with
  | none => .ok r
  | some width => if width = 0 ∨ r.dims.cols < width then .ok r else r.writeWide width c

/-! ### Erasing -/

/-- Replaces the cells from the first to the last position in reading order. -/
def fill (r : Raster) (first last : Position) (c : Cell) : Except Fault Raster :=
  r.withCells (r.cells.fill (r.index first.row first.col) (r.index last.row last.col + 1) c)

/-- Erases a part of the screen. -/
def erase (r : Raster) (region : EraseRegion) : Except Fault Raster :=
  match region with
  | .lineToEnd => do r.fill r.cursor ⟨r.cursor.row, ← Word.minus r.dims.cols 1⟩ r.erased
  | .lineFromStart => r.fill ⟨r.cursor.row, 0⟩ r.cursor r.erased
  | .wholeLine => do r.fill ⟨r.cursor.row, 0⟩ ⟨r.cursor.row, ← Word.minus r.dims.cols 1⟩ r.erased
  | .screenToEnd => do
    r.fill r.cursor ⟨← Word.minus r.dims.rows 1, ← Word.minus r.dims.cols 1⟩ r.erased
  | .screenFromStart => r.fill .origin r.cursor r.erased
  | .wholeScreen => do
    r.fill .origin ⟨← Word.minus r.dims.rows 1, ← Word.minus r.dims.cols 1⟩ r.erased

/-! ### Inserting and deleting -/

/-- The cursor's row lies in the scroll region. -/
def cursorInMargins (r : Raster) : Bool :=
  r.margins.top ≤ r.cursor.row && r.cursor.row ≤ r.margins.bottom

/-- Inserts lines at the cursor's row, within the scroll region. -/
def insertLines (r : Raster) (n : Nat) : Except Fault Raster :=
  if r.cursorInMargins then
    (r.shiftRowsDown r.cursor.row r.margins.bottom n).map carriageReturn
  else .ok r

/-- Deletes lines at the cursor's row, within the scroll region. -/
def deleteLines (r : Raster) (n : Nat) : Except Fault Raster :=
  if r.cursorInMargins then
    (r.shiftRowsUp r.cursor.row r.margins.bottom n).map carriageReturn
  else .ok r

/-- Changes the cells of the cursor's row from the cursor on, and mends the row. -/
def editTail (r : Raster) (f : Cells → Except Fault Cells) : Except Fault Raster := do
  let start := r.index r.cursor.row 0
  let r ← r.withCells
    (r.cells.within (r.index r.cursor.row r.cursor.col) (start + r.dims.cols) f)
  r.withCells (r.cells.within start (start + r.dims.cols) fun line => line.mendFrom 0 r.dims.cols)

/-- Inserts blanks at the cursor; cells pushed over the right edge are lost. -/
def insertChars (r : Raster) (n : Nat) : Except Fault Raster := do
  let r ← r.editTail fun tail => do
    let n := Nat.min n tail.length
    let tail ← tail.rotateRight n
    tail.fill 0 n r.erased
  .ok { r with pendingWrap := false }

/-- Deletes cells at the cursor; blanks enter at the right edge. -/
def deleteChars (r : Raster) (n : Nat) : Except Fault Raster := do
  let r ← r.editTail fun tail => do
    let n := Nat.min n tail.length
    let tail ← tail.rotateLeft n
    tail.fill (tail.length - n) tail.length r.erased
  .ok { r with pendingWrap := false }

/-- Blanks cells from the cursor on. -/
def eraseChars (r : Raster) (n : Nat) : Except Fault Raster :=
  r.editTail fun tail => tail.fill 0 (Nat.min n tail.length) r.erased

/-! ### Cells and sizes -/

/-- Overwrites one cell of the grid; a place outside it is refused. -/
def putCell (r : Raster) (row col : Nat) (c : Cell) : Except Fault Raster :=
  if row < r.dims.rows ∧ col < r.dims.cols then
    r.withCells (r.cells.store (r.index row col) c)
  else .ok r

/-- Copies the first `width` cells of a row into the grid of another size.  A wide glyph whose spacer
stays behind becomes a space. -/
def copyRow (r : Raster) (d : Dimensions) (width row : Nat) (cells : Cells) :
    Except Fault Cells := do
  let old ← r.cells.slice (r.index row 0) (r.index row 0 + width)
  cells.within (row * d.cols) (row * d.cols + width) fun part =>
    if part.length = old.length then do
      let edge ← Word.minus width 1
      let last ← old.fetch edge
      if width < r.dims.cols && Line.leads last then old.store edge last.withoutGlyph else .ok old
    else .error .bounds

/-- Copies the first `width` cells of `n` rows, from `row` on. -/
def copyRows (r : Raster) (d : Dimensions) (width row : Nat) (cells : Cells) :
    Nat → Except Fault Cells
  | 0 => .ok cells
  | n + 1 => r.copyRow d width row cells >>= fun cells => copyRows r d width (row + 1) cells n

/-- The raster in another size; an empty size is refused. -/
def resize (r : Raster) (d : Dimensions) : Except Fault Raster :=
  if d.isEmpty then .ok r
  else if d = r.dims then .ok r
  else do
    let cells ← r.copyRows d (Nat.min r.dims.cols d.cols) 0
      (List.replicate d.cellCount Cell.empty) (Nat.min r.dims.rows d.rows)
    let last ← Word.minus d.rows 1
    .ok { r with
      dims := d
      cells := cells
      cursor := d.clamp r.cursor
      margins := ⟨0, last⟩
      pendingWrap := false }

/-! ### Instructions and changes -/

/-- Obeys an instruction. -/
def obey (r : Raster) : Instruction → Except Fault Raster
  | .print c => r.write c
  | .bell => .ok r
  | .backspace => .ok (r.cursorBackward 1)
  | .tab => r.tab
  | .lineFeed => r.lineFeed
  | .index => r.lineFeed
  | .reverseIndex => r.reverseIndex
  | .carriageReturn => .ok r.carriageReturn
  | .cursorUp n => .ok (r.cursorUp n)
  | .cursorDown n => r.cursorDown n
  | .cursorForward n => r.cursorForward n
  | .cursorBackward n => .ok (r.cursorBackward n)
  | .moveToRow row => do .ok (r.moveCursor (← Word.minus row 1) r.cursor.col)
  | .moveToColumn col => do .ok (r.moveCursor r.cursor.row (← Word.minus col 1))
  | .moveCursor row col => do .ok (r.moveCursor (← Word.minus row 1) (← Word.minus col 1))
  | .erase region => r.erase region
  | .insertLines n => r.insertLines n
  | .deleteLines n => r.deleteLines n
  | .insertChars n => r.insertChars n
  | .deleteChars n => r.deleteChars n
  | .eraseChars n => r.eraseChars n
  | .scrollUp n => r.scrollUp n
  | .scrollDown n => r.scrollDown n
  | .setMargins top bottom => do
    let top ← Word.minus top 1
    let bottom ← Word.minus (if bottom = 0 then r.dims.rows else bottom) 1
    r.setMargins top bottom
  | .rendition groups => do
    let style ← Rendition.restyleAll r.style groups
    .ok { r with style := style }
  | .saveCursor => .ok r.saveCursor
  | .restoreCursor => .ok r.restoreCursor
  | .setVisible on => .ok { r with visible := on }
  | .setAutowrap on => .ok { r with autowrap := on, pendingWrap := on && r.pendingWrap }
  | .setLink link => .ok { r with link := link }
  | .setMark mark => .ok { r with mark := mark }
  | .title _ => .ok r
  | .reset => blank r.dims

/-- Makes a change. -/
def change (r : Raster) : Screen.Change → Except Fault Raster
  | .obey i => r.obey i
  | .setStyle style => .ok { r with style := style }
  | .putCell row col c => r.putCell row col c
  | .resize d => r.resize d

/-- Makes changes one after another. -/
def changeAll : List Screen.Change → Raster → Except Fault Raster
  | [], r => .ok r
  | c :: rest, r => r.change c >>= changeAll rest

end VirtualTerminal.Raster
