import VirtualTerminal.Backend.Builtin
import VirtualTerminal.Backend.Merge
import VirtualTerminal.Shell.Machine

/-!
# Backend — local commands

A host that runs the commands of the built-in backends.  A command on a pseudo-terminal reads what
the terminal's line discipline hands over and writes to the terminal; a command with plain pipes has
its two outputs merged.
-/

namespace VirtualTerminal

open Shell (Process)

/-- What connects a command with its host. -/
inductive Connection where
  /-- A pseudo-terminal, and the bytes that have reached the host's side. -/
  | terminal (arrived : List UInt8)
  /-- Pipes; the one to the command may be closed. -/
  | pipes (reader : MergedReader) (inputOpen : Bool)
deriving Inhabited

/-- A command of a built-in backend. -/
structure LocalCommand where
  backend : Backend
  process : Process
  connection : Connection
  readerTaken : Bool := false
  /-- The most bytes of one chunk. -/
  chunkSize : Nat
deriving Inhabited

/-- A host of local commands. -/
structure LocalHost where
  /-- The commands started, in order. -/
  commands : List LocalCommand := []
  /-- The session names given out. -/
  issued : Nat := 0
deriving Inhabited

namespace LocalCommand

/-! ### Starting -/

/-- How the operating system words that a program cannot be started. -/
def launchReason : Process.LaunchFault → String
  | .missing => "No such file or directory (os error 2)"
  | .denied => "Permission denied (os error 13)"

/-- The environment of a command: first what the backend sets, then what the request adds. -/
def environment (b : Backend) (r : ExecRequest) : List (String × String) :=
  let size :=
    if b.kind = .subprocess then
      [("COLUMNS", toString r.dimensions.cols), ("LINES", toString r.dimensions.rows)]
    else []
  let path := [("HOME", "/root"), ("PATH", "/usr/local/bin:/usr/bin:/bin")]
  ((path ++ ("TERM", r.term) :: size) ++ r.env).reverse

/-- The directory in which a command starts.  The portable layer falls back to the home directory. -/
def directory (b : Backend) (r : ExecRequest) : Except Process.LaunchFault String :=
  match r.cwd with
  | none => .ok "/root"
  | some d =>
    if Process.isDirectory d then .ok (Process.trimPath d)
    else if b.kind = .emulatedPty then .ok "/root"
    else .error .missing

/-- How the portable layer words that a program cannot be started. -/
def portableReason (command : String) : Process.LaunchFault → String
  | .missing =>
    s!"Unable to spawn {command} because it doesn't exist on the filesystem " ++
      if command.startsWith "/" then "(ENOENT: No such file or directory)"
      else "and was not found in PATH"
  | .denied => launchReason .denied

/-- Why a command does not start. -/
def startReason (b : Backend) (r : ExecRequest) (f : Process.LaunchFault) : String :=
  if b.kind = .emulatedPty then "Failed to spawn command: " ++ portableReason r.command f
  else s!"spawn '{r.command}' failed: {launchReason f}"

/-- The program and the directory of a request. -/
def located (b : Backend) (r : ExecRequest) : Except Process.LaunchFault (String × String) := do
  let d ← directory b r
  let program ← Process.locate r.command
  return (program, d)

/-- Starts a command. -/
def start (b : Backend) (r : ExecRequest) : Except Error LocalCommand :=
  match located b r with
  | .error f => .error (.backendStart b.name (startReason b r f))
  | .ok (program, d) =>
    let isPty := b.kind ≠ .subprocess
    .ok
      { backend := b
        process := Process.launch program r.command r.args (environment b r) d
          (if isPty then some r.dimensions else none)
        connection := if isPty then .terminal [] else .pipes {} true
        chunkSize := ReadResult.bufferSize r.chunkSize }

/-! ### Running -/

/-- Hands what the process has written over to the host's side. -/
def deliver (c : LocalCommand) : LocalCommand :=
  let p := { c.process with written := [] }
  match c.connection with
  | .terminal arrived =>
    { c with process := p, connection := .terminal (arrived ++ c.process.written.reverse.flatten) }
  | .pipes reader inputOpen =>
    let blocks := c.process.written.reverse.flatMap (blocks c.chunkSize)
    let reader := blocks.foldl (fun r b => r.send (.data b)) reader
    { c with process := p, connection := .pipes reader inputOpen }

/-- The pipes end with the process. -/
def hangUp (c : LocalCommand) : LocalCommand :=
  match c.connection with
  | .pipes reader inputOpen =>
    { c with connection := .pipes ((reader.send .closed).send .closed) inputOpen }
  | _ => c

/-- Lets the process go on until it has to wait. -/
def settle (c : LocalCommand) : LocalCommand :=
  let wasOver := c.process.ended.isSome
  let c := { c with process := c.process.settle }.deliver
  if !wasOver && c.process.ended.isSome then c.hangUp else c

/-- Sends a signal. -/
def signal (c : LocalCommand) (s : Shell.Signal) : LocalCommand :=
  let wasOver := c.process.ended.isSome
  let c := { c with process := c.process.signal s }
  if !wasOver && c.process.ended.isSome then c.hangUp else c.settle

/-- Lets time pass until those who sleep have woken up. -/
def elapse (c : LocalCommand) : LocalCommand := { c with process := c.process.elapse }.settle

/-- The process is over. -/
def isOver (c : LocalCommand) : Bool := c.process.ended.isSome

/-- The exit code that the backend tells. -/
def exitCode? (c : LocalCommand) : Option Int :=
  c.process.ended.map fun
    | .exited code => code
    | .killed s => if c.backend.kind = .emulatedPty then 1 else 128 + s.number

/-! ### Requests -/

/-- Takes the reader. -/
def takeReader (c : LocalCommand) : Except Error LocalCommand :=
  if c.readerTaken then
    .error (.pty (if c.backend.kind = .subprocess then "subprocess reader already taken"
      else "PTY reader already taken"))
  else .ok { c with readerTaken := true }

/-- The next chunk of output, if it can be told. -/
def readChunk (c : LocalCommand) : Option ChunkResult × LocalCommand :=
  match c.connection with
  | .terminal arrived =>
    if !arrived.isEmpty then
      (some (.ok (some (arrived.take c.chunkSize))),
        { c with connection := .terminal (arrived.drop c.chunkSize) })
    else if c.isOver then (some (.ok none), c)
    else (none, c)
  | .pipes reader inputOpen =>
    let (r, reader) := reader.readChunk
    (r, { c with connection := .pipes reader inputOpen })

/-- At least as many chunks as are waiting. -/
def backlog (c : LocalCommand) : Nat :=
  match c.connection with
  | .terminal arrived => arrived.length
  | .pipes reader _ => reader.arrived.length

/-- Writes to the command. -/
def write (c : LocalCommand) (data : List UInt8) : Except Error Nat × LocalCommand :=
  match c.connection with
  | .terminal _ =>
    if c.isOver then (.ok data.length, c)
    else (.ok data.length, { c with process := data.foldl Process.type c.process }.settle)
  | .pipes _ false => (.error (.pty "subprocess stdin closed"), c)
  | .pipes _ true =>
    if c.isOver && !data.isEmpty then (.error (.io "Broken pipe (os error 32)"), c)
    else
      let p := { c.process with input := c.process.input ++ data.map some }
      (.ok data.length, { c with process := p }.settle)

/-- Changes the size of the terminal, which the process is told of. -/
def resize (c : LocalCommand) (d : Dimensions) : Except Error Unit × LocalCommand :=
  match c.process.terminal with
  | none => (.error (.pty "subprocess backend cannot resize"), c)
  | some tty =>
    match d.validate with
    | .error e => (.error e, c)
    | .ok () =>
      if tty.size = d then (.ok (), c)
      else
        let p := { c.process with terminal := some { tty with size := d } }
        (.ok (), { c with process := p }.signal .resized)

/-- Lets time pass while the command goes on by itself, at most so many milliseconds and so often. -/
def grant (time : Nat) : Nat → LocalCommand → LocalCommand
  | 0, c => c
  | fuel + 1, c =>
    match c.process.delay? with
    | none => c
    | some delay => if delay ≤ time then grant (time - delay) fuel c.elapse else c

/-- The milliseconds that a command gets to end on its own. -/
def grace (b : Backend) : Nat := if b.kind = .emulatedPty then 200 else 250

/-- Stops the command.  On a terminal it is first told that the terminal is gone, and killed if it
does not end soon; with pipes its input ends and it is killed at once. -/
def terminate (c : LocalCommand) : LocalCommand :=
  match c.connection with
  | .terminal _ =>
    if c.isOver then c
    else
      let c := grant (grace c.backend) (grace c.backend) (c.signal .hangUp)
      if c.isOver then c else c.signal .kill
  | .pipes reader _ =>
    let p := { c.process with inputClosed := true }
    let c := { c with process := p, connection := .pipes reader false }
    if c.isOver then c else c.signal .kill

/-- Gives the command up, which kills it. -/
def abandon (c : LocalCommand) : LocalCommand := if c.isOver then c else c.signal .kill

end LocalCommand

namespace LocalHost

/-- Replaces a command. -/
def set (h : LocalHost) (handle : Nat) (c : LocalCommand) : LocalHost :=
  { h with commands := h.commands.set handle c }

/-- Lets a command do something. -/
def on {α : Type} (h : LocalHost) (handle : Nat) (missing : α)
    (f : LocalCommand → α × LocalCommand) : α × LocalHost :=
  match h.commands[handle]? with
  | none => (missing, h)
  | some c =>
    let (a, c) := f c
    (a, h.set handle c)

/-- Starts a command on a backend. -/
def start (h : LocalHost) (place : Nat) (r : ExecRequest) : Except Error Nat × LocalHost :=
  match Backend.builtin[place]? with
  | none => (.error (.pty "no backend"), h)
  | some b =>
    match LocalCommand.start b r with
    | .error e => (.error e, h)
    | .ok c => (.ok h.commands.length, { h with commands := h.commands ++ [c.settle] })

/-- The error for a command that was never started. -/
def unknown : Error := .pty "no command"

instance : Host LocalHost Nat where
  probe _ h := (true, h)
  start place r h := h.start place r
  takeReader handle h := h.on handle (.error unknown) fun c =>
    match c.takeReader with
    | .error e => (.error e, c)
    | .ok c => (.ok (), c)
  write handle data h := h.on handle (.error unknown) fun c => c.write data
  resize handle d h := h.on handle (.error unknown) fun c => c.resize d
  tryWait handle h := h.on handle (.error unknown) fun c => (.ok c.exitCode?, c)
  terminate handle h := h.on handle (.error unknown) fun c => (.ok (), c.terminate)
  now h := (0.0, h)
  freshId h := (.ofRandom (BitVec.ofNat 128 (h.issued + 1)), { h with issued := h.issued + 1 })

end LocalHost

end VirtualTerminal
