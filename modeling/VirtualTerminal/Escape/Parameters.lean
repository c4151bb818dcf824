/-!
# Escape — Parameters

The numeric parameters of a control sequence, collected digit by digit.  Semicolons separate
groups, colons the members of a group.  At most 32 members are kept, and a number stops growing at
65535.
-/

namespace VirtualTerminal.Escape

/-- The parameters read so far. -/
structure Parameters where
  /-- The groups that a semicolon has closed. -/
  groups : List (List Nat) := []
  /-- The members of the open group that a colon has closed. -/
  members : List Nat := []
  /-- The number being read; no digit at all reads as zero. -/
  number : Nat := 0
deriving DecidableEq, Repr, Inhabited

namespace Parameters

/-- The most members a sequence may have. -/
def limit : Nat := 32

/-- The members closed so far, in all groups. -/
def count (p : Parameters) : Nat := p.groups.flatten.length + p.members.length

/-- No further member has room. -/
def isFull (p : Parameters) : Bool := p.count == limit

/-- Appends a digit to the number being read. -/
def digit (p : Parameters) (d : Nat) : Parameters :=
  { p with number := min 65535 (p.number * 10 + d) }

/-- Ends the number and its group. -/
def closeGroup (p : Parameters) : Parameters :=
  { groups := p.groups ++ [p.members ++ [p.number]] }

/-- Ends the number within its group. -/
def closeMember (p : Parameters) : Parameters :=
  { p with members := p.members ++ [p.number], number := 0 }

end Parameters

end VirtualTerminal.Escape
