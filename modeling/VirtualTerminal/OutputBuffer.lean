/-!
# OutputBuffer — the text a session remembers

A buffer keeps at most a given number of bytes of text, as the pieces that were appended.  To make
room it drops its oldest pieces whole; of a text that is too large on its own it keeps the end.
-/

namespace VirtualTerminal

/-- Text within a bound. -/
structure OutputBuffer where
  /-- The pieces kept, oldest first. -/
  pieces : List String := []
  /-- The bytes of the pieces. -/
  size : Nat := 0
  /-- The most bytes kept. -/
  maxSize : Nat
  /-- Something was ever dropped. -/
  truncated : Bool := false
deriving DecidableEq, Repr, Inhabited

namespace OutputBuffer

/-- An empty buffer. -/
def ofMaxSize (maxSize : Nat) : OutputBuffer := { maxSize := maxSize }

/-- The text kept. -/
def contents (b : OutputBuffer) : String := String.join b.pieces

/-- Drops characters from the front until at least so many bytes are gone. -/
def dropBytes : Nat → List Char → List Char
  | 0, cs => cs
  | _, [] => []
  | excess + 1, c :: cs => dropBytes (excess + 1 - c.utf8Size) cs

/-- The longest end of a text that has at most so many bytes. -/
def ending (text : String) (maxSize : Nat) : String :=
  String.ofList (dropBytes (text.utf8ByteSize - maxSize) text.toList)

/-- Drops the oldest pieces until so many bytes fit beside the others. -/
def evict (maxSize extra : Nat) : List String → Nat → Bool → List String × Nat × Bool
  | [], size, truncated => ([], size, truncated)
  | p :: rest, size, truncated =>
    if maxSize < size + extra then evict maxSize extra rest (size - p.utf8ByteSize) true
    else (p :: rest, size, truncated)

/-- Keeps a text that fits on its own. -/
def store (b : OutputBuffer) (text : String) : OutputBuffer :=
  let (pieces, size, truncated) := evict b.maxSize text.utf8ByteSize b.pieces b.size b.truncated
  if text.isEmpty then { b with pieces := pieces, size := size, truncated := truncated }
  else
    { b with
      pieces := pieces ++ [text], size := size + text.utf8ByteSize, truncated := truncated }

/-- Drops all text; that something was dropped before is not forgotten. -/
def clear (b : OutputBuffer) : OutputBuffer := { b with pieces := [], size := 0 }

/-- Appends a text and tells the part of it that was kept. -/
def append (b : OutputBuffer) (text : String) : OutputBuffer × String :=
  if b.maxSize < text.utf8ByteSize then
    let kept := ending text b.maxSize
    ({ b.clear with truncated := true }.store kept, kept)
  else (b.store text, text)

end OutputBuffer

end VirtualTerminal
