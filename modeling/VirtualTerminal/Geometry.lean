/-!
# Geometry — positions and sizes

A position counts rows and columns from zero at the top left corner; a size counts them from one.
Coordinates are natural numbers that stay below `2 ^ 16`: sums and products that could leave that
range are taken with `Word.add?` and `Word.mul?`, which have no value beyond it.
-/

namespace VirtualTerminal

namespace Word

/-- The number of values of a sixteen-bit coordinate. -/
def limit : Nat := 65536

/-- The largest sixteen-bit coordinate. -/
def max : Nat := 65535

/-- The sum, if it is a sixteen-bit number. -/
def add? (a b : Nat) : Option Nat :=
  if a + b < limit then some (a + b) else none

/-- The product, if it is a sixteen-bit number. -/
def mul? (a b : Nat) : Option Nat :=
  if a * b < limit then some (a * b) else none

end Word

/-- A place on the grid, counted from the top left corner. -/
structure Position where
  row : Nat
  col : Nat
deriving DecidableEq, Repr, Inhabited

namespace Position

/-- The top left corner. -/
def origin : Position := ⟨0, 0⟩

end Position

/-- The size of a grid. -/
structure Dimensions where
  rows : Nat
  cols : Nat
deriving DecidableEq, Repr, Inhabited

namespace Dimensions

/-- The size used where none is given: 24 rows of 80 columns. -/
def standard : Dimensions := ⟨24, 80⟩

/-- The number of cells of a grid of this size. -/
def cellCount (d : Dimensions) : Nat := d.rows * d.cols

/-- A size without rows or without columns holds no cell. -/
def isEmpty (d : Dimensions) : Bool := d.rows == 0 || d.cols == 0

/-- The size with zero rows and zero columns raised to one. -/
def raised (d : Dimensions) : Dimensions := ⟨Nat.max d.rows 1, Nat.max d.cols 1⟩

/-- The nearest position inside the grid. -/
def clamp (d : Dimensions) (p : Position) : Position :=
  ⟨Nat.min p.row (d.rows - 1), Nat.min p.col (d.cols - 1)⟩

/-- Columns before rows, as in `80x24`. -/
def text (d : Dimensions) : String := s!"{d.cols}x{d.rows}"

end Dimensions

end VirtualTerminal
