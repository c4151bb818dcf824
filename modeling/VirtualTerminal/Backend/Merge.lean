import VirtualTerminal.Backend.Chunks

/-!
# Backend — Merge

One stream of chunks out of several pipes.  Each pipe is pumped on its own: every block that is read
becomes a message, and the end of the pipe or its error is the pump's last message.  The messages of
all pumps arrive in one order, and the merged stream ends once every pipe has ended.
-/

namespace VirtualTerminal

/-- What a pump tells. -/
inductive PipeMessage where
  | data (bytes : List UInt8)
  | closed
  | failed (reason : String)
deriving DecidableEq, Repr, Inhabited

namespace PipeMessage

/-- The messages of the pump of a pipe whose reads give these results.  An interrupted read is
repeated, and a read without any byte ends the pipe, as does the end of the results. -/
def pump (bufferSize : Nat) : List ReadResult → List PipeMessage
  | [] => [.closed]
  | .interrupted :: rest => pump bufferSize rest
  | .hangup :: _ => [.failed "Input/output error (os error 5)"]
  | .failed reason :: _ => [.failed reason]
  | .data bytes :: rest =>
    if bytes.isEmpty then [.closed]
    else (blocks (max bufferSize 1) bytes).map .data ++ pump bufferSize rest

end PipeMessage

/-- The reading side of merged pipes. -/
structure MergedReader where
  /-- The messages that have arrived. -/
  arrived : List PipeMessage := []
  /-- The pipes whose end has not been read yet. -/
  openPipes : Nat := 2
deriving DecidableEq, Repr, Inhabited

namespace MergedReader

/-- A message arrives. -/
def send (r : MergedReader) (m : PipeMessage) : MergedReader :=
  { r with arrived := r.arrived ++ [m] }

/-- Reads from messages while pipes are open; nothing is read while the next message has not
arrived. -/
def readFrom : Nat → List PipeMessage → Option ChunkResult × MergedReader
  | 0, ms => (some (.ok none), ⟨ms, 0⟩)
  | n + 1, [] => (none, ⟨[], n + 1⟩)
  | n + 1, .data bytes :: rest => (some (.ok (some bytes)), ⟨rest, n + 1⟩)
  | n + 1, .closed :: rest => readFrom n rest
  | n + 1, .failed reason :: rest => (some (.error reason), ⟨rest, n⟩)

/-- The next chunk, if it can be told. -/
def readChunk (r : MergedReader) : Option ChunkResult × MergedReader :=
  readFrom r.openPipes r.arrived

end MergedReader

end VirtualTerminal
