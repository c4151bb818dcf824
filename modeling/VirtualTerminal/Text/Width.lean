import VirtualTerminal.Text.Width.Ranges

/-!
# Text — Width

The number of columns a character takes.  A control character has no width, which is told apart
from a width of zero columns.
-/

namespace VirtualTerminal

namespace Width

/-- Some range of the list holds the number. -/
def covers (ranges : List (Nat × Nat)) (n : Nat) : Bool :=
  ranges.any fun r => r.1 ≤ n && n ≤ r.2

/-- Control characters: C0, DEL and C1. -/
def isControl (c : Char) : Bool :=
  c.toNat < 0x20 || (0x7f ≤ c.toNat && c.toNat < 0xa0)

/-- The columns of a character; a control character has no width.  The Khmer sign beyyal is the
only character of three columns. -/
def columns? (c : Char) : Option Nat :=
  let n := c.toNat
  if isControl c then none
  else if n < 0x7f then some 1
  else if n = 0x17d8 then some 3
  else if covers zeroRanges n then some 0
  else if covers wideRanges n then some 2
  else some 1

/-- A wide character takes more than one column. -/
def isWide (c : Char) : Bool :=
  match columns? c with
  | some w => 1 < w
  | none => false

end Width

end VirtualTerminal
