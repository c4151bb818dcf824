/-!
# Escape — Command

The body of an operating-system command, collected byte by byte and cut at its semicolons into at
most 16 arguments.  What follows the sixteenth semicolon is dropped, and so is what follows the
1024th byte that is no semicolon.
-/

namespace VirtualTerminal.Escape

/-- The body read so far. -/
structure Command where
  /-- The arguments that a semicolon has closed. -/
  closed : List (List UInt8) := []
  /-- The bytes of the open argument. -/
  current : Array UInt8 := #[]
deriving DecidableEq, Repr, Inhabited

namespace Command

/-- The most arguments a command may have. -/
def limit : Nat := 16

/-- The most bytes the arguments may have together. -/
def byteLimit : Nat := 1024

/-- The bytes kept so far. -/
def size (c : Command) : Nat := c.closed.flatten.length + c.current.size

/-- No further argument has room. -/
def isFull (c : Command) : Bool := c.closed.length == limit

/-- Ends the open argument, if it has room. -/
def close (c : Command) : Command :=
  if c.isFull then c else { closed := c.closed ++ [c.current.toList] }

/-- Reads a byte of the body. -/
def put (c : Command) (b : UInt8) : Command :=
  if c.isFull || c.size == byteLimit then c
  else if b = 0x3b then c.close
  else { c with current := c.current.push b }

/-- All arguments of the finished body. -/
def arguments (c : Command) : List (List UInt8) := c.close.closed

end Command

end VirtualTerminal.Escape
