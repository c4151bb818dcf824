import VirtualTerminal.Proofs.Run

/-!
# Raster — Basic

A raster keeps the cells of a screen in one vector, row after row, and computes every place in it
from a row and a column.  Two things can go wrong in that, and a raster says which: a sixteen-bit
sum, difference or product leaves its range (`Fault.overflow`), or a place or a slice lies outside
the vector (`Fault.bounds`).

Every operation of a screen has its counterpart here, which reads and writes the vector through the
checked functions of this module only.  `Raster.Refinement` relates the two.
-/

namespace VirtualTerminal

/-- What can go wrong in a raster. -/
inductive Fault where
  /-- A sixteen-bit number left its range. -/
  | overflow
  /-- A place or a slice outside the vector was asked for. -/
  | bounds
deriving DecidableEq, Repr

namespace Fault

variable {α β : Type}

/-- What follows a step without a fault goes on from its answer. -/
@[simp] theorem ok_bind (a : α) (f : α → Except Fault β) : (Except.ok a >>= f) = f a := rfl

/-- A step without a fault stays one under `map`. -/
@[simp] theorem map_ok (f : α → β) (a : α) :
    (Except.ok a : Except Fault α).map f = Except.ok (f a) := rfl

end Fault

/-! ### Sixteen-bit arithmetic -/

namespace Word

/-- The sum of sixteen-bit numbers. -/
def plus (a b : Nat) : Except Fault Nat := if a + b < limit then .ok (a + b) else .error .overflow

/-- The difference of sixteen-bit numbers. -/
def minus (a b : Nat) : Except Fault Nat := if b ≤ a then .ok (a - b) else .error .overflow

/-- The product of sixteen-bit numbers. -/
def times (a b : Nat) : Except Fault Nat := if a * b < limit then .ok (a * b) else .error .overflow

/-- The sum, or the largest sixteen-bit number where there is none. -/
def saturatingPlus (a b : Nat) : Nat := Nat.min (a + b) max

variable {a b : Nat}

/-- A sum within sixteen bits is the sum. -/
theorem plus_eq (h : a + b < limit) : plus a b = .ok (a + b) := if_pos h

/-- A difference that is not negative is the difference of natural numbers. -/
theorem minus_eq (h : b ≤ a) : minus a b = .ok (a - b) := if_pos h

end Word

/-! ### Vectors of cells -/

/-- Cells row after row. -/
abbrev Cells := List Cell

namespace Cells

/-- The cell at a place. -/
def fetch (cells : Cells) (i : Nat) : Except Fault Cell :=
  match cells[i]? with
  | some c => .ok c
  | none => .error .bounds

/-- Overwrites the cell at a place. -/
def store (cells : Cells) (i : Nat) (c : Cell) : Except Fault Cells :=
  if i < cells.length then .ok (cells.set i c) else .error .bounds

/-- Changes the cell at a place. -/
def update (cells : Cells) (i : Nat) (f : Cell → Cell) : Except Fault Cells :=
  cells.fetch i >>= fun c => cells.store i (f c)

/-- The cells from `start` up to, but not including, `stop`. -/
def slice (cells : Cells) (start stop : Nat) : Except Fault Cells :=
  if start ≤ stop ∧ stop ≤ cells.length then .ok ((cells.take stop).drop start)
  else .error .bounds

/-- Changes the cells from `start` up to `stop` as a vector of their own. -/
def within (cells : Cells) (start stop : Nat) (f : Cells → Except Fault Cells) :
    Except Fault Cells :=
  cells.slice start stop >>= fun part =>
    (f part).map fun part => cells.take start ++ part ++ cells.drop stop

/-- Overwrites the cells from `start` up to `stop` with one cell. -/
def fill (cells : Cells) (start stop : Nat) (c : Cell) : Except Fault Cells :=
  cells.within start stop fun part => .ok (List.replicate part.length c)

/-- Turns the vector round, so that its first `n` cells become the last. -/
def rotateLeft (cells : Cells) (n : Nat) : Except Fault Cells :=
  if n ≤ cells.length then .ok (cells.drop n ++ cells.take n) else .error .bounds

/-- Turns the vector round, so that its last `n` cells become the first. -/
def rotateRight (cells : Cells) (n : Nat) : Except Fault Cells :=
  if n ≤ cells.length then
    .ok (cells.drop (cells.length - n) ++ cells.take (cells.length - n))
  else .error .bounds

/-- Blanks the cell at a place if it is half of a wide glyph that lost its partner. -/
def mendAt (cells : Cells) (col : Nat) : Except Fault Cells := do
  let c ← cells.fetch col
  if c.spacer then
    let led ← (if 0 < col then (cells.fetch (col - 1)).map Line.leads else .ok false)
    if led then .ok cells else cells.store col c.withoutGlyph.unspaced
  else if Width.isWide c.character && !cells[col + 1]?.any Cell.spacer then
    cells.store col c.withoutGlyph
  else .ok cells

/-- The vector cut into pieces of `n` cells. -/
def chunks (n : Nat) (cells : Cells) : List Cells :=
  if n = 0 ∨ cells.isEmpty then [] else cells.take n :: chunks n (cells.drop n)
termination_by cells.length
decreasing_by
  rename_i h
  have := List.length_pos_iff.mpr fun hnil => h (Or.inr (List.isEmpty_iff.mpr hnil))
  simp only [List.length_drop]
  omega

/-- The number of cells up to the last one that shows something. -/
def significant (line : Cells) : Nat :=
  line.length - line.reverse.findIdx fun c => !c.isBlank

/-- The characters of the significant cells that are no spacers. -/
def text (line : Cells) : Except Fault (List Char) :=
  (line.slice 0 (significant line)).map fun shown =>
    (shown.filter fun c => !c.spacer).map Cell.character

/-- Mends `n` cells one after another, from `col` on. -/
def mendFrom (line : Cells) (col : Nat) : Nat → Except Fault Cells
  | 0 => .ok line
  | n + 1 => line.mendAt col >>= fun line => mendFrom line (col + 1) n

end Cells

/-! ### Renditions -/

namespace Rendition

/-- The style after a code other than 38 and 48, with the palette entry computed from the code. -/
def restyle (s : Style) (code : Nat) (kind : Option Nat) : Except Fault Style :=
  if 30 ≤ code ∧ code ≤ 37 then do
    let entry ← Word.minus code 30
    .ok { s with foreground := .palette (UInt8.ofNat entry) }
  else if 40 ≤ code ∧ code ≤ 47 then do
    let entry ← Word.minus code 40
    .ok { s with background := .palette (UInt8.ofNat entry) }
  else if 90 ≤ code ∧ code ≤ 97 then do
    let entry ← Word.plus (← Word.minus code 90) 8
    .ok { s with foreground := .palette (UInt8.ofNat entry) }
  else if 100 ≤ code ∧ code ≤ 107 then do
    let entry ← Word.plus (← Word.minus code 100) 8
    .ok { s with background := .palette (UInt8.ofNat entry) }
  else .ok (applyCode s code kind)

/-- The style after a non-empty list of groups. -/
def restyleGroups (s : Style) : List (List Nat) → Except Fault Style
  | [] => .ok s
  | [] :: rest => restyleGroups s rest
  | (code :: members) :: rest =>
    if code = 38 ∨ code = 48 then
      if members.isEmpty then
        restyleGroups (colored s code (semicolonColor? rest).1) (semicolonColor? rest).2
      else
        restyleGroups (colored s code (colonColor? members)) rest
    else
      restyle s code members.head? >>= fun s => restyleGroups s rest
termination_by groups => groups.length
decreasing_by
  · simp
  · have := length_semicolonColor? rest
    simp only [List.length_cons]
    omega
  · simp
  · simp

/-- The style after the groups; no group at all resets it. -/
def restyleAll (s : Style) (groups : List (List Nat)) : Except Fault Style :=
  if groups.isEmpty then .ok .plain else restyleGroups s groups

end Rendition

/-! ### Rasters -/

/-- A screen whose cells are stored in one vector. -/
structure Raster where
  dims : Dimensions
  cells : Cells
  cursor : Position
  visible : Bool
  saved : Option SavedCursor
  margins : Margins
  pendingWrap : Bool
  autowrap : Bool
  style : Style
  link : Option String
  mark : Option BlockMark
deriving DecidableEq, Repr

/-- The raster of a screen: its lines one after another. -/
def Screen.raster (s : Screen) : Raster :=
  { dims := s.dims
    cells := s.lines.flatten
    cursor := s.cursor
    visible := s.visible
    saved := s.saved
    margins := s.margins
    pendingWrap := s.pendingWrap
    autowrap := s.autowrap
    style := s.style
    link := s.link
    mark := s.mark }

namespace Raster

/-- A blank raster; zero rows or columns are raised to one. -/
def blank (d : Dimensions) : Except Fault Raster := do
  let d := d.raised
  let last ← Word.minus d.rows 1
  .ok
    { dims := d
      cells := List.replicate d.cellCount Cell.empty
      cursor := .origin
      visible := true
      saved := none
      margins := ⟨0, last⟩
      pendingWrap := false
      autowrap := true
      style := .plain
      link := none
      mark := none }

/-- Where the cell of a row and a column is stored. -/
def index (r : Raster) (row col : Nat) : Nat := row * r.dims.cols + col

/-- What erasing leaves behind. -/
def erased (r : Raster) : Cell := Cell.erased r.style.background

/-- The cells of a row, if there is such a row. -/
def row? (r : Raster) (row : Nat) : Except Fault (Option Cells) :=
  if row < r.dims.rows then
    (r.cells.slice (r.index row 0) (r.index row 0 + r.dims.cols)).map some
  else .ok none

/-- The cell of a row and a column, if there is one. -/
def cell? (r : Raster) (row col : Nat) : Except Fault (Option Cell) :=
  if row < r.dims.rows ∧ col < r.dims.cols then (r.cells.fetch (r.index row col)).map some
  else .ok none

/-- The characters of a row; none if there is no such row. -/
def rowText (r : Raster) (row : Nat) : Except Fault (List Char) :=
  r.row? row >>= fun line => (line.map Cells.text).getD (.ok [])

/-- All rows; a vector cannot be cut into pieces of no cell. -/
def rows (r : Raster) : Except Fault (List Cells) :=
  if r.dims.cols = 0 then .error .bounds else .ok (r.cells.chunks r.dims.cols)

/-- Changes the cells. -/
def withCells (r : Raster) (cells : Except Fault Cells) : Except Fault Raster :=
  cells.map fun cells => { r with cells := cells }

/-! ### Scrolling -/

/-- Overwrites `count` rows from `first` on. -/
def fillRows (r : Raster) (first count : Nat) (c : Cell) : Except Fault Raster :=
  r.withCells (r.cells.fill (r.index first 0) (r.index first 0 + count * r.dims.cols) c)

/-- Moves the rows from `top` to `bottom` up by `n`. -/
def shiftRowsUp (r : Raster) (top bottom n : Nat) : Except Fault Raster := do
  let height ← Word.plus (← Word.minus bottom top) 1
  let n := Nat.min n height
  if n = 0 then .ok r
  else
    let r ← r.withCells (r.cells.within (r.index top 0) (r.index bottom 0 + r.dims.cols)
      fun part => part.rotateLeft (n * r.dims.cols))
    let first ← Word.minus (← Word.plus bottom 1) n
    r.fillRows first n .empty

/-- Moves the rows from `top` to `bottom` down by `n`. -/
def shiftRowsDown (r : Raster) (top bottom n : Nat) : Except Fault Raster := do
  let height ← Word.plus (← Word.minus bottom top) 1
  let n := Nat.min n height
  if n = 0 then .ok r
  else
    let r ← r.withCells (r.cells.within (r.index top 0) (r.index bottom 0 + r.dims.cols)
      fun part => part.rotateRight (n * r.dims.cols))
    r.fillRows top n .empty

/-- Moves the rows of the scroll region up. -/
def scrollUp (r : Raster) (n : Nat) : Except Fault Raster :=
  r.shiftRowsUp r.margins.top r.margins.bottom n

/-- Moves the rows of the scroll region down. -/
def scrollDown (r : Raster) (n : Nat) : Except Fault Raster :=
  r.shiftRowsDown r.margins.top r.margins.bottom n

/-! ### Motion -/

/-- Puts the cursor on a place, or on the nearest one the grid has. -/
def moveCursor (r : Raster) (row col : Nat) : Raster :=
  { r with cursor := r.dims.clamp ⟨row, col⟩, pendingWrap := false }

/-- Moves the cursor up. -/
def cursorUp (r : Raster) (n : Nat) : Raster :=
  let limit := if r.margins.top ≤ r.cursor.row then r.margins.top else 0
  { r with cursor := ⟨Nat.max (r.cursor.row - n) limit, r.cursor.col⟩, pendingWrap := false }

/-- Moves the cursor down. -/
def cursorDown (r : Raster) (n : Nat) : Except Fault Raster := do
  let limit ←
    (if r.cursor.row ≤ r.margins.bottom then .ok r.margins.bottom else Word.minus r.dims.rows 1)
  .ok { r with
    cursor := ⟨Nat.min (Word.saturatingPlus r.cursor.row n) limit, r.cursor.col⟩
    pendingWrap := false }

/-- Moves the cursor right. -/
def cursorForward (r : Raster) (n : Nat) : Except Fault Raster := do
  let last ← Word.minus r.dims.cols 1
  .ok { r with
    cursor := ⟨r.cursor.row, Nat.min (Word.saturatingPlus r.cursor.col n) last⟩
    pendingWrap := false }

/-- Moves the cursor left. -/
def cursorBackward (r : Raster) (n : Nat) : Raster :=
  { r with cursor := ⟨r.cursor.row, r.cursor.col - n⟩, pendingWrap := false }

/-- Moves the cursor to the first column. -/
def carriageReturn (r : Raster) : Raster :=
  { r with cursor := ⟨r.cursor.row, 0⟩, pendingWrap := false }

/-- Moves the cursor to the next tab stop, or to the last column. -/
def tab (r : Raster) : Except Fault Raster := do
  let next ← Word.plus (r.cursor.col / Screen.tabWidth) 1
  let stop ← Word.times next Screen.tabWidth
  let last ← Word.minus r.dims.cols 1
  .ok { r with cursor := ⟨r.cursor.row, Nat.min stop last⟩, pendingWrap := false }

/-- Moves the cursor down by one row, scrolling up on the bottom margin. -/
def indexDown (r : Raster) : Except Fault Raster :=
  if r.cursor.row = r.margins.bottom then r.scrollUp 1
  else do
    let next ← Word.plus r.cursor.row 1
    if next < r.dims.rows then .ok { r with cursor := ⟨next, r.cursor.col⟩ } else .ok r

/-- Moves the cursor up by one row, scrolling down on the top margin. -/
def indexUp (r : Raster) : Except Fault Raster :=
  if r.cursor.row = r.margins.top then r.scrollDown 1
  else if 0 < r.cursor.row then do
    let next ← Word.minus r.cursor.row 1
    .ok { r with cursor := ⟨next, r.cursor.col⟩ }
  else .ok r

/-- Obeys a line feed. -/
def lineFeed (r : Raster) : Except Fault Raster := { r with pendingWrap := false }.indexDown

/-- Obeys a reverse line feed. -/
def reverseIndex (r : Raster) : Except Fault Raster := { r with pendingWrap := false }.indexUp

/-- Continues on the next line. -/
def wrap (r : Raster) : Except Fault Raster :=
  { r with cursor := ⟨r.cursor.row, 0⟩, pendingWrap := false }.indexDown

/-- Sets the scroll region and homes the cursor. -/
def setMargins (r : Raster) (top bottom : Nat) : Except Fault Raster := do
  let last ← Word.minus r.dims.rows 1
  .ok ({ r with margins := if top < bottom ∧ bottom ≤ last then ⟨top, bottom⟩ else ⟨0, last⟩
       }.moveCursor 0 0)

/-- Keeps the cursor's position, style and pending wrap. -/
def saveCursor (r : Raster) : Raster :=
  { r with saved := some ⟨r.cursor, r.style, r.pendingWrap⟩ }

/-- Brings back what was kept; with nothing kept, homes the cursor and resets the style. -/
def restoreCursor (r : Raster) : Raster :=
  match r.saved with
  | some saved =>
    { r with
      cursor := r.dims.clamp saved.position, style := saved.style, pendingWrap := saved.pendingWrap }
  | none => { r.moveCursor 0 0 with style := .plain }

end Raster

end VirtualTerminal
