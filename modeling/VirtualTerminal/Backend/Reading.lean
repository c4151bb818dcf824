import VirtualTerminal.Backend.Local
import VirtualTerminal.Text.Lines
import VirtualTerminal.Text.Utf8

/-!
# Backend — Reading

Reading the output of a local command until there is enough of it.  Where a chunk has to be waited
for, time passes until the command goes on; the reading stops where it never would.
-/

namespace VirtualTerminal

/-- A command, and what was read of its output. -/
structure Reading where
  command : LocalCommand
  /-- The bytes that were read and not yet taken. -/
  unread : List UInt8 := []
  /-- The sizes of the chunks, the latest first. -/
  sizes : List Nat := []
  /-- The error that ended the reading. -/
  fault : Option String := none
  /-- Nothing has come yet where the next chunk should be. -/
  starved : Bool := false
deriving Inhabited

namespace Reading

/-- Reads at most so many chunks, while the bytes do not pass a test. -/
def readChunks (enough : List UInt8 → Bool) : Nat → Reading → Reading
  | 0, r => r
  | fuel + 1, r =>
    if enough r.unread then r
    else
      let (result, c) := r.command.readChunk
      let r := { r with command := c }
      match result with
      | some (.ok (some chunk)) =>
        readChunks enough fuel
          { r with unread := r.unread ++ chunk, sizes := chunk.length :: r.sizes }
      | some (.ok none) => r
      | some (.error reason) => { r with fault := some reason }
      | none => { r with starved := true }

/-- Reads what has come, while the bytes do not pass a test. -/
def readArrived (enough : List UInt8 → Bool) (r : Reading) : Reading :=
  readChunks enough (r.command.backlog + 2) { r with starved := false }

/-- Reads until the bytes pass a test or no more can come, and lets time pass at most so often. -/
def readFor (enough : List UInt8 → Bool) : Nat → Reading → Reading
  | 0, r => r
  | fuel + 1, r =>
    let r := readArrived enough r
    if r.starved && r.command.process.isAsleep then
      readFor enough fuel { r with command := r.command.elapse }
    else r

/-- How often time passes while a command is waited for. -/
def patience : Nat := 10000

/-- Reads until the bytes pass a test, or no more can come. -/
def readUntil (r : Reading) (enough : List UInt8 → Bool) : Reading :=
  readFor enough patience { r with sizes := [], fault := none }

/-- Reads to the end of the output. -/
def readAll (r : Reading) : Reading := r.readUntil fun _ => false

/-- The text occurs among the bytes. -/
def shows (text : String) (bytes : List UInt8) : Bool :=
  (placeOf? (Utf8.encode text.toList) bytes).isSome

/-- Takes the bytes up to the end of a text, or all of them where it does not occur. -/
def takeThrough (r : Reading) (text : String) : List UInt8 × Reading :=
  let needle := Utf8.encode text.toList
  let n := (placeOf? needle r.unread).elim r.unread.length (· + needle.length)
  (r.unread.take n, { r with unread := r.unread.drop n })

end Reading

/-- Lets time pass, at most so often, until the command is over. -/
def LocalCommand.elapseUntilOver : Nat → LocalCommand → LocalCommand
  | 0, c => c
  | fuel + 1, c =>
    if c.process.isAsleep && !c.isOver then elapseUntilOver fuel c.elapse else c

/-- Waits until the command is over, or does not go on by itself. -/
def LocalCommand.waitUntilOver (c : LocalCommand) : LocalCommand :=
  elapseUntilOver Reading.patience c

end VirtualTerminal
