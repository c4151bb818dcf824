/-!
# Backend — Chunks

Cutting the output of a command into chunks.  An interrupted read is repeated.  A read without any
byte ends the stream, and so does the error that a pseudo-terminal gives once nobody holds its other
side; every other error is passed on.
-/

namespace VirtualTerminal

/-- What a read of the underlying stream gives. -/
inductive ReadResult where
  | data (bytes : List UInt8)
  | interrupted
  /-- The other side of a pseudo-terminal is gone. -/
  | hangup
  | failed (reason : String)
deriving DecidableEq, Repr, Inhabited

/-- A chunk, the end of the stream, or an error. -/
abbrev ChunkResult := Except String (Option (List UInt8))

/-- Bytes cut into blocks of a positive size; the last block may be shorter. -/
def blocks (size : Nat) (bytes : List UInt8) : List (List UInt8) :=
  go bytes.length bytes
where
  /-- Cuts off at most so many blocks. -/
  go : Nat → List UInt8 → List (List UInt8)
    | 0, _ => []
    | fuel + 1, bytes =>
      if bytes.isEmpty then [] else bytes.take size :: go fuel (bytes.drop size)

namespace ReadResult

/-- The next chunk of at most `bufferSize` bytes from results that come one after another, and the
results left.  Data that does not fit the buffer stays in front. -/
def readChunk (bufferSize : Nat) : List ReadResult → ChunkResult × List ReadResult
  | [] => (.ok none, [])
  | .interrupted :: rest => readChunk bufferSize rest
  | .hangup :: rest => (.ok none, rest)
  | .failed reason :: rest => (.error reason, rest)
  | .data bytes :: rest =>
    if bytes.isEmpty then (.ok none, rest)
    else
      (.ok (some (bytes.take bufferSize)),
        if bytes.length ≤ bufferSize then rest else .data (bytes.drop bufferSize) :: rest)

/-- The size of the buffer for a requested size of chunks. -/
def bufferSize (chunkSize : Nat) : Nat := max chunkSize 1

end ReadResult

end VirtualTerminal
