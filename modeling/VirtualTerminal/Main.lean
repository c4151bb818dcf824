import VirtualTerminal.Runner

/-!
# Main — the program

Reads the configuration file and standard input as far as the arguments ask for them, and writes the
report of the run.
-/

namespace VirtualTerminal.Main

/-- The bytes of a stream from now on, behind those read before. -/
partial def readAll (s : IO.FS.Stream) (before : ByteArray) : IO ByteArray := do
  let chunk ← s.read 4096
  if chunk.isEmpty then return before else readAll s (before ++ chunk)

/-- Why a file cannot be read. -/
def reason : IO.Error → String
  | .noFileOrDirectory .. => "No such file or directory (os error 2)"
  | .permissionDenied .. => "Permission denied (os error 13)"
  | .inappropriateType .. => "Is a directory (os error 21)"
  | e => toString e

/-- The text of a file, or why it cannot be read. -/
def readFile (path : String) : IO (Except String String) := do
  try
    return .ok (← IO.FS.readFile path)
  catch e => return .error (reason e)

/-- Carries out what the arguments ask for. -/
def run (o : Options) : IO UInt32 := do
  let text ← match o.config with
    | some path => readFile path
    | none => pure (.error "")
  let stdin ← if o.stdin then readAll (← IO.getStdin) .empty else pure .empty
  let report := o.run (fun _ => text) .linux stdin.toList
  IO.print report.output
  IO.eprint report.errors
  match report.result with
  | .ok code => return UInt32.ofNat (code % 256).toNat
  | .error e =>
    IO.eprintln s!"ptyrender: {e.message}"
    return 1

end VirtualTerminal.Main

/-- Reads the arguments and carries them out. -/
def main (args : List String) : IO UInt32 := do
  match VirtualTerminal.Options.read args with
  | .ok o => VirtualTerminal.Main.run o
  | .error r =>
    if r.exitCode = 0 then IO.print r.message else IO.eprint r.message
    return UInt32.ofNat r.exitCode
