import VirtualTerminal.Shell.Expansion
import VirtualTerminal.Shell.Filter
import VirtualTerminal.Shell.Format
import VirtualTerminal.Shell.Reader
import VirtualTerminal.Shell.Tty

/-!
# Shell — Process

The state of a running command: a stack of tasks, the environment of the script, the input that has
arrived, and the output that was written.
-/

namespace VirtualTerminal.Shell

/-- Where a descriptor leads. -/
inductive Sink where
  | input
  | output
  | error
  /-- To whoever captures the output, or from there. -/
  | pipe
  /-- A file without content that swallows everything. -/
  | null
  | closed
deriving DecidableEq, Repr, Inhabited

/-- What an environment of its own gives back when it is left. -/
structure Enclosure where
  scope : Scope
  functions : List (String × Command)
  descriptors : List (Nat × Sink)
  traps : List (Signal × String)
  directory : String
deriving Inhabited

/-- What a process has to do. -/
inductive Task where
  | run (c : Command)
  /-- Runs a command if the last one ended as wanted. -/
  | provided (success : Bool) (c : Command)
  | negate
  | branch (yes no : Command)
  /-- Begins the next round of a loop. -/
  | again (reversed : Bool) (condition body : Command)
  /-- Looks at the condition of a loop. -/
  | test (reversed : Bool) (condition body : Command)
  | each (name : String) (values : List String) (body : Command)
  | restore (descriptors : List (Nat × Sink))
  /-- Sets variables back to what they were. -/
  | withdraw (names : List String) (before : Scope)
  /-- Leaves a function. -/
  | endCall (positional : List String)
  | leave (outer : Enclosure)
  | status (n : Nat)
  /-- Tells that a command died of a signal. -/
  | report (s : Signal)
  /-- Hands what was captured over to a command. -/
  | connect (c : Command)
  /-- Drops what a command was to read. -/
  | disconnect
  /-- Puts what was captured in its place within a command. -/
  | fill (c : Command)
  /-- Reads a line into variables. -/
  | receive (names : List String) (raw : Bool) (line : List UInt8)
  /-- Copies input to output, at most so many bytes. -/
  | copy (limit : Option Nat)
  /-- Copies so many lines of input to output. -/
  | copyLines (n : Nat)
  /-- Writes a line as long as someone takes it. -/
  | reiterate (line : List UInt8)
  /-- Reads the whole input for a program. -/
  | gather (f : Filter) (bytes : List UInt8)
  /-- Asks for a line of a script. -/
  | prompt
  /-- Reads a script from the input, line by line. -/
  | script (interactive : Bool) (line : List UInt8)
  /-- Sleeps for so many milliseconds. -/
  | sleep (time : Nat)
  /-- Waits for the commands in the background. -/
  | wait
deriving Inhabited

/-- A sleeping command in the background. -/
structure Job where
  id : Nat
  /-- The milliseconds left. -/
  time : Nat
deriving DecidableEq, Repr, Inhabited

/-- A running command. -/
structure Process where
  scope : Scope
  functions : List (String × Command) := []
  tasks : List Task
  directory : String
  descriptors : List (Nat × Sink) := [(0, .input), (1, .output), (2, .error)]
  /-- What is done about signals; nothing at all is written for those that are ignored. -/
  traps : List (Signal × String) := []
  /-- Signals whose trap has still to run. -/
  pending : List Signal := []
  /-- What is done at the end. -/
  atExit : Option String := none
  jobs : List Job := []
  /-- The terminal, if there is one. -/
  terminal : Option Tty
  /-- The input that has arrived; an end of input stands for no byte. -/
  input : List (Option UInt8) := []
  inputClosed : Bool := false
  /-- The outputs that are being captured, the innermost first, and in each the latest write
  first. -/
  captured : List (List (List UInt8)) := []
  /-- What the commands of pipelines still have to read, the innermost first. -/
  piped : List (List UInt8) := []
  /-- What has reached the other side, the latest first. -/
  written : List (List UInt8) := []
  ended : Option Ending := none
deriving Inhabited

namespace Process

/-! ### Descriptors -/

/-- Where a descriptor leads. -/
def sink (p : Process) (n : Nat) : Sink :=
  ((p.descriptors.find? fun d => d.1 == n).map Prod.snd).getD .closed

/-- Lets a descriptor lead somewhere else. -/
def redirect (p : Process) (n : Nat) (s : Sink) : Process :=
  { p with descriptors := (n, s) :: p.descriptors.filter fun d => d.1 != n }

/-- Sets the status of the last command. -/
def withStatus (p : Process) (n : Nat) : Process :=
  { p with scope := { p.scope with status := n } }

/-- Pushes a task. -/
def push (p : Process) (t : Task) : Process := { p with tasks := t :: p.tasks }

/-- Bytes reach the other side, through the terminal if there is one. -/
def emit (p : Process) (bs : List UInt8) : Process :=
  if bs.isEmpty then p
  else { p with written := (p.terminal.elim bs fun t => t.cook bs) :: p.written }

/-- Adds to the innermost captured output. -/
def capture (p : Process) (bs : List UInt8) : Process :=
  { p with captured := p.captured.modifyHead fun writes => bs :: writes }

/-- Writes bytes to a descriptor and succeeds if it is open. -/
def write (p : Process) (n : Nat) (bs : List UInt8) : Process :=
  match p.sink n with
  | .closed => p.withStatus 1
  | .null => p.withStatus 0
  | .pipe => (p.capture bs).withStatus 0
  | _ => (p.emit bs).withStatus 0

/-- Writes a text to the standard output. -/
def print (p : Process) (text : String) : Process := p.write 1 (Format.bytes text.toList)

/-- Complains and fails. -/
def complain (p : Process) (text : String) (status : Nat) : Process :=
  (p.write 2 (Format.bytes (text ++ "\n").toList)).withStatus status

/-- Complains in the name of the shell. -/
def object (p : Process) (text : String) (status : Nat) : Process :=
  p.complain s!"{p.scope.zero}: 1: {text}" status

/-- The terminal to which a descriptor leads. -/
def terminalOf? (p : Process) (n : Nat) : Option Tty :=
  if [Sink.input, .output, .error].contains (p.sink n) then p.terminal else none

/-! ### Environments -/

/-- The environment as it is. -/
def enclosure (p : Process) : Enclosure :=
  ⟨p.scope, p.functions, p.descriptors, p.traps, p.directory⟩

/-- Goes back to an environment; only the status stays. -/
def restore (p : Process) (outer : Enclosure) : Process :=
  { p with
    scope := { outer.scope with status := p.scope.status }
    functions := outer.functions, descriptors := outer.descriptors, traps := outer.traps
    directory := outer.directory }

/-- Runs a command in an environment of its own. -/
def enclose (p : Process) (c : Command) : Process :=
  { p with tasks := .run c :: .leave p.enclosure :: p.tasks }

/-- The tasks from the end of the innermost environment on. -/
def outerTasks (p : Process) : List Task :=
  p.tasks.dropWhile fun
    | .leave _ => false
    | _ => true

/-- Ends the process, or the innermost environment of its own. -/
def exit (p : Process) (code : Nat) : Process :=
  match p.outerTasks with
  | .leave outer :: rest => { p with tasks := rest }.withStatus code |>.restore outer
  | _ =>
    match p.atExit.bind Command.ofText? with
    | some c => { p with atExit := none, tasks := [.run c, .status code] }.withStatus code
    | none => { p with tasks := [], ended := some (.exited (code % 256)) }

/-! ### Signals -/

/-- What a list of traps does about a signal. -/
def action? (traps : List (Signal × String)) (s : Signal) : Option String :=
  (traps.find? fun t => t.1 == s).map Prod.snd

/-- The environments that have still to be left, the innermost first, each with the tasks behind
it. -/
def enclosures : List Task → List (Enclosure × List Task)
  | [] => []
  | .leave outer :: rest => (outer, rest) :: enclosures rest
  | _ :: rest => enclosures rest

/-- The traps of the process itself, whatever runs within it now. -/
def mainTraps (p : Process) : List (Signal × String) :=
  ((enclosures p.tasks).getLast?).elim p.traps fun e => e.1.traps

/-- Something runs within the process, or has just died, so its traps have to wait. -/
def isOccupied (p : Process) : Bool :=
  !(enclosures p.tasks).isEmpty ||
    match p.tasks with
    | .report _ :: _ => true
    | _ => false

/-- A signal arrives. -/
def signal (p : Process) (s : Signal) : Process :=
  if p.ended.isSome then p
  else if s = .kill then { p with ended := some (.killed s) }
  else
    match action? p.mainTraps s with
    | some "" => p
    | some _ => { p with pending := p.pending ++ [s] }
    | none => if s.isFatal then { p with ended := some (.killed s) } else p

/-- What runs in an environment of its own dies of a signal. -/
def die (p : Process) (s : Signal) (e : Enclosure × List Task) : Process :=
  { p with tasks := .leave e.1 :: .report s :: e.2 }.withStatus (128 + s.number)

/-- A signal from the terminal arrives, which a program that runs within the process gets, too. -/
def signalFromTerminal (p : Process) (s : Signal) : Process :=
  let q := p.signal s
  match (enclosures p.tasks).getLast? with
  | none => q
  | some e => if q.ended.isSome || action? p.traps s == some "" then q else q.die s e

/-- A script sends a signal to the process that carries it out. -/
def signalToSelf (p : Process) (s : Signal) : Process :=
  match (enclosures p.tasks).find? fun e => e.1.scope.processId ≠ p.scope.processId with
  | none => p.signal s
  | some e =>
    match action? p.traps s with
    | some action =>
      if s = .kill then p.die s e
      else
        match Command.ofText? action with
        | some c => { p with tasks := .run c :: .status p.scope.status :: p.tasks }
        | none => p
    | none => if s.isFatal then p.die s e else p

/-- Types one byte at the terminal. -/
def type (p : Process) (b : UInt8) : Process :=
  match p.terminal with
  | none => p
  | some tty =>
    let k := tty.type b
    let p := { p with terminal := some k.tty, input := p.input ++ k.input }
    let p := if k.echo.isEmpty then p else { p with written := k.echo :: p.written }
    match k.signal with
    | some s => { p with input := [] }.signalFromTerminal s
    | none => p

/-! ### Input -/

/-- Takes what was captured last. -/
def takeCaptured (p : Process) : List UInt8 × Process :=
  ((p.captured.head?.getD []).reverse.flatten, { p with captured := p.captured.tail })

/-- What reading one byte gives. -/
inductive Received where
  | byte (b : UInt8)
  | endOfInput
  /-- Nothing has arrived. -/
  | nothing
deriving DecidableEq, Repr, Inhabited

/-- Reads one byte. -/
def receive (p : Process) : Received × Process :=
  match p.sink 0 with
  | .input =>
    match p.input with
    | some b :: rest => (.byte b, { p with input := rest })
    | none :: rest => (.endOfInput, { p with input := rest })
    | [] => (if p.inputClosed then .endOfInput else .nothing, p)
  | .pipe =>
    match p.piped with
    | (b :: bs) :: rest => (.byte b, { p with piped := bs :: rest })
    | _ => (.endOfInput, p)
  | _ => (.endOfInput, p)

/-- Reads up to so many bytes that have arrived, and tells whether the input ended there. -/
def takeInput (p : Process) (limit : Option Nat) : List UInt8 × Bool × Process :=
  match p.sink 0 with
  | .input =>
    let arrived := p.input.takeWhile Option.isSome
    let taken := match limit with
      | some n => arrived.take n
      | none => arrived
    let rest := p.input.drop taken.length
    let bs := taken.filterMap id
    if limit.any (· ≤ bs.length) then (bs, false, { p with input := rest })
    else
      match rest with
      | none :: rest => (bs, true, { p with input := rest })
      | rest => (bs, rest.isEmpty && p.inputClosed, { p with input := rest })
  | .pipe =>
    let bs := p.piped.head?.getD []
    let taken := match limit with
      | some n => bs.take n
      | none => bs
    (taken, taken.length = bs.length,
      { p with piped := p.piped.modifyHead fun bs => bs.drop taken.length })
  | _ => ([], true, p)

end Process

end VirtualTerminal.Shell
