import VirtualTerminal.Shell.Builtin

/-!
# Shell — Machine

A process makes steps until it ends, or until its top task has to wait for input, for time to pass,
or for a signal.
-/

namespace VirtualTerminal.Shell.Process

/-! ### Simple commands -/

/-- Where a redirection leads, if there is such a place. -/
def target? (p : Process) : Target → Option Sink
  | .closed => some .closed
  | .descriptor n => if p.sink n = .closed then none else some (p.sink n)
  | .output w => (p.scope.text? w).map fun path =>
    if path == "/dev/tty" && p.terminal.isSome then .output else .null
  | .input w =>
    match p.scope.text? w with
    | some "/dev/null" => some .null
    | some "/dev/tty" => p.terminal.map fun _ => .input
    | _ => none

/-- Carries out redirections one after another. -/
def redirectAll? (p : Process) : List Redirection → Option Process
  | [] => some p
  | r :: rest => (p.target? r.target).bind fun s => redirectAll? (p.redirect r.descriptor s) rest

/-- Calls a function. -/
def call (p : Process) (body : Command) (args : List String) : Process :=
  { p with
    tasks := .run body :: .endCall p.scope.positional :: p.tasks
    scope := { p.scope with positional := args } }

/-- Carries out a command that has a name. -/
def runNamed (p : Process) (name : String) (args : List String) : Process :=
  match p.functions.find? fun f => f.1 == name with
  | some (_, body) => p.call body args
  | none => (p.runBuiltin? name args).getD (p.runChild name args)

/-- Sets variables for one command. -/
def lend (p : Process) (scope : Scope) (names : List String) : Process :=
  if names.isEmpty then p
  else { p.push (.withdraw names p.scope) with scope := scope.share names }

/-- Carries out a simple command. -/
def runSimple (p : Process) (c : Simple) : Process :=
  match p.scope.arguments? c.words, p.scope.assign? c.assignments with
  | some [], some scope =>
    match { p with scope := scope }.redirectAll? c.redirections with
    | none => p.withStatus 2
    | some q => { q with descriptors := p.descriptors }.withStatus
        (if c.assignments.any fun a => a.2.any fun f => f.fragment matches .value _ then p.scope.status
          else 0)
  | some (name :: args), some scope =>
    match p.redirectAll? c.redirections with
    | none => p.withStatus 2
    | some q =>
      if name == "exec" && args.isEmpty then q.withStatus 0
      else
        let q := if c.redirections.isEmpty then q else q.push (.restore p.descriptors)
        (q.lend scope (c.assignments.map Prod.fst)).runNamed name args
  | _, _ => (p.object "arithmetic expression" 2).exit 2

/-- Runs a command beside what follows.  Only sleeping really takes its time. -/
def runBeside (p : Process) (c : Command) : Process :=
  let id := p.scope.jobId.getD p.scope.processId + 1
  let p := { p with scope := { p.scope with jobId := some id } }
  let apart := { p with tasks := .run c :: .leave p.enclosure :: .status 0 :: p.tasks }
  match c with
  | .simple s =>
    match p.scope.arguments? s.words with
    | some ("sleep" :: times) =>
      { p with jobs := ⟨id, totalMilliseconds times⟩ :: p.jobs }.withStatus 0
    | _ => apart
  | _ => apart

/-! ### Other commands -/

/-- The command of the first case whose pattern describes a text. -/
def chosen? (p : Process) (text : List Char) : List (List Word × Command) → Option Command
  | [] => none
  | (patterns, c) :: rest =>
    if patterns.any fun w => (p.scope.pattern? w).any fun gs => Glob.describes gs text then some c
    else chosen? p text rest

/-- Runs a script and captures its output for a command. -/
def substitute (p : Process) (script : List Char) (c : Command) : Process :=
  match Command.ofText? (String.ofList script) with
  | none => (p.object "Syntax error" 2).exit 2
  | some s =>
    ({ p with tasks := .fill c :: p.tasks, captured := [] :: p.captured }.enclose s).redirect 1 .pipe

/-- Runs a command, no script within which has still to run. -/
def runFilled (p : Process) : Command → Process
  | .simple c => p.runSimple c
  | .sequence cs => { p with tasks := cs.map .run ++ p.tasks }
  | .both a b => { p with tasks := .run a :: .provided true b :: p.tasks }
  | .either a b => { p with tasks := .run a :: .provided false b :: p.tasks }
  | .negated c => { p with tasks := .run c :: .negate :: p.tasks }
  | .pipeline a b =>
    ({ p with tasks := .connect b :: p.tasks, captured := [] :: p.captured }.enclose a).redirect 1
      .pipe
  | .redirected c rs =>
    match p.redirectAll? rs with
    | some q => { q with tasks := .run c :: .restore p.descriptors :: p.tasks }
    | none => p.withStatus 2
  | .enclosed c => p.enclose c
  | .background c => p.runBeside c
  | .choice c yes no => { p with tasks := .run c :: .branch yes no :: p.tasks }
  | .select subject cases =>
    match p.scope.text? subject with
    | some text => (p.withStatus 0).push (.run ((p.chosen? text.toList cases).getD .nothing))
    | none => p.exit 2
  | .loop reversed c body => p.push (.again reversed c body)
  | .each name words body =>
    match words with
    | none => p.push (.each name p.scope.positional body)
    | some ws =>
      match p.scope.arguments? ws with
      | some values => p.push (.each name values body)
      | none => p.exit 2
  | .definition name body =>
    { p with functions := (name, body) :: p.functions.filter fun f => f.1 != name }.withStatus 0

/-- Runs a command. -/
def runCommand (p : Process) (c : Command) : Process :=
  match c.script? with
  | some script => p.substitute script c
  | none => p.runFilled c

/-! ### Input -/

/-- The values of the variables that a line is read into: words, and the rest of the line. -/
def splitLine (line : List Char) : Nat → List (List Char)
  | 0 => []
  | 1 =>
    let trimmed := (line.dropWhile Scope.isSeparator).reverse
    [(trimmed.dropWhile Scope.isSeparator).reverse]
  | n + 1 =>
    let line := line.dropWhile Scope.isSeparator
    let word := line.takeWhile fun c => !Scope.isSeparator c
    word :: splitLine (line.drop word.length) n

/-- Without the backslashes before other characters. -/
def dropBackslashes : List Char → List Char
  | '\\' :: c :: rest => c :: dropBackslashes rest
  | ['\\'] => []
  | c :: rest => c :: dropBackslashes rest
  | [] => []

/-- Sets variables to the words of a line. -/
def assignLine (p : Process) (names : List String) (raw : Bool) (line : List UInt8) : Process :=
  let text := Utf8.decodeLossy line
  let text := if raw then text else dropBackslashes text
  let names := if names.isEmpty then ["REPLY"] else names
  let values := (splitLine text names.length).map String.ofList
  let scope := (names.zip values).foldl (fun (s : Scope) v => s.set v.1 v.2) p.scope
  { p with scope := scope }

/-- Carries out a line of a script. -/
def runLine (p : Process) (interactive : Bool) (line : List UInt8) : Process :=
  let text := String.ofList (Utf8.decodeLossy line)
  match Command.ofText? text with
  | some c => p.push (.run c)
  | none => if interactive then p.object "Syntax error" 2 else (p.object "Syntax error" 2).exit 2

/-! ### Steps -/

/-- Begins the trap of a signal. -/
def beginTrap (p : Process) (s : Signal) : Process :=
  let p := match p.tasks with
    | .wait :: rest => { p with tasks := rest }.withStatus (128 + s.number)
    | _ => p
  match (action? p.traps s).bind Command.ofText? with
  | some c => { p with tasks := .run c :: .status p.scope.status :: p.tasks }
  | none => p

/-- Carries out a task about input, if it can go on. -/
def performInput? (p : Process) : Task → Option Process
  | .receive names raw line =>
    match p.receive with
    | (.byte 10, p) => some ((p.assignLine names raw line).withStatus 0)
    | (.byte b, p) => some (p.push (.receive names raw (line ++ [b])))
    | (.endOfInput, p) => some ((p.assignLine names raw line).withStatus 1)
    | (.nothing, _) => none
  | .copy limit =>
    let (bs, atEnd, q) := p.takeInput limit
    let q := if bs.isEmpty then q.withStatus 0 else q.write 1 bs
    let left := limit.map (· - bs.length)
    if atEnd || left = some 0 then some q
    else if bs.isEmpty then none
    else some (q.push (.copy left))
  | .copyLines 0 => some (p.withStatus 0)
  | .copyLines (n + 1) =>
    match p.receive with
    | (.byte 10, p) => some ((p.write 1 [10]).push (.copyLines n))
    | (.byte b, p) => some ((p.write 1 [b]).push (.copyLines (n + 1)))
    | (.endOfInput, p) => some (p.withStatus 0)
    | (.nothing, _) => none
  | .reiterate line =>
    if p.sink 1 = .pipe && p.captured.head?.any (fun writes => 1024 ≤ writes.length) then
      some (p.withStatus 141)
    else some ((p.write 1 line).push (.reiterate line))
  | .gather f bytes =>
    let (bs, atEnd, q) := p.takeInput none
    if atEnd then some (q.write 1 (f.apply (bytes ++ bs)))
    else if bs.isEmpty then none
    else some (q.push (.gather f (bytes ++ bs)))
  | .script interactive line =>
    match p.receive with
    | (.byte 10, p) =>
      let p := p.push (.script interactive [])
      some ((if interactive then p.push .prompt else p).runLine interactive line)
    | (.byte b, p) => some (p.push (.script interactive (line ++ [b])))
    | (.endOfInput, p) =>
      let p := if interactive then (p.write 2 [10]).withStatus p.scope.status else p
      some (if line.isEmpty then p else p.runLine interactive line)
    | (.nothing, _) => none
  | _ => some p

/-- Carries out the top task, if it can go on. -/
def perform? (p : Process) : Task → Option Process
  | .run c => some (p.runCommand c)
  | .provided success c => some (if (p.scope.status == 0) == success then p.push (.run c) else p)
  | .negate => some (p.withStatus (if p.scope.status = 0 then 1 else 0))
  | .branch yes no => some (p.withStatus 0 |>.push (.run (if p.scope.status = 0 then yes else no)))
  | .again reversed c body => some { p with tasks := .run c :: .test reversed c body :: p.tasks }
  | .test reversed c body =>
    if (p.scope.status == 0) == reversed then some (p.withStatus 0)
    else some { p with tasks := .run body :: .again reversed c body :: p.tasks }
  | .each name values body =>
    match values with
    | [] => some p
    | v :: rest =>
      some { p with
        scope := p.scope.set name v, tasks := .run body :: .each name rest body :: p.tasks }
  | .restore descriptors => some { p with descriptors := descriptors }
  | .withdraw names before =>
    let scope := names.foldl before.setBack p.scope
    some { p with scope := { scope with exported := before.exported } }
  | .endCall positional => some { p with scope := { p.scope with positional := positional } }
  | .leave outer => some (p.restore outer)
  | .status n => some (p.withStatus n)
  | .report s =>
    some (match s.obituary? with
      | some text => p.complain text p.scope.status
      | none => p)
  | .connect c =>
    let (bs, p) := p.takeCaptured
    some (({ p with tasks := .disconnect :: p.tasks, piped := bs :: p.piped }.enclose c).redirect 0
      .pipe)
  | .disconnect => some { p with piped := p.piped.tail }
  | .fill c =>
    let (bs, p) := p.takeCaptured
    let text := (bs.reverse.dropWhile (· = 10)).reverse
    some (p.push (.run (c.fill (Utf8.decodeLossy text))))
  | .sleep _ => none
  | .wait => if p.jobs.isEmpty then some p else none
  | .prompt => some ((p.write 2 [35, 32]).withStatus p.scope.status)
  | t => p.performInput? t

/-- One step of a process that can make one. -/
def step? (p : Process) : Option Process :=
  if p.ended.isSome then none
  else
    match p.pending, p.isOccupied with
    | s :: rest, false => some ({ p with pending := rest }.beginTrap s)
    | _, _ =>
      match p.tasks with
      | [] => some (p.exit p.scope.status)
      | t :: rest => { p with tasks := rest }.perform? t

/-- So much was written that the process has to wait until it is read. -/
def isBlocked (p : Process) : Bool := 1024 ≤ p.written.length

/-- Makes steps as long as possible, at most so many. -/
def run : Nat → Process → Process
  | 0, p => p
  | fuel + 1, p =>
    if p.isBlocked then p
    else
      match p.step? with
      | some q => run fuel q
      | none => p

/-- The most steps between two events. -/
def patience : Nat := 100000

/-- Makes steps until the process ends or has to wait. -/
def settle (p : Process) : Process := p.run patience

/-! ### Time -/

/-- The milliseconds that a process which can go on at once is said to take. -/
def turn : Nat := 10

/-- The milliseconds until the process goes on by itself, if it does. -/
def delay? (p : Process) : Option Nat :=
  if p.ended.isSome then none
  else if p.step?.isSome then some turn
  else
    match p.tasks with
    | .sleep time :: _ => some time
    | .wait :: _ => some ((p.jobs.map Job.time).foldl max 0)
    | _ => none

/-- The process goes on by itself after some time. -/
def isAsleep (p : Process) : Bool := p.delay?.isSome

/-- The commands in the background after some time. -/
def laterJobs (p : Process) (time : Nat) : List Job :=
  (p.jobs.filter fun j => time < j.time).map fun j => { j with time := j.time - time }

/-- Time passes until the process goes on. -/
def elapse (p : Process) : Process :=
  match p.delay? with
  | none => p
  | some time =>
    let q := { p with jobs := p.laterJobs time }
    match p.step?.isSome, p.tasks with
    | false, .sleep _ :: rest => { q with tasks := rest }.withStatus 0
    | _, _ => q

/-- A process that begins with a program, under the name by which it is called. -/
def launch (program name : String) (args : List String) (environment : List (String × String))
    (directory : String) (size : Option Dimensions) : Process :=
  let scope : Scope :=
    { bindings := environment, exported := environment.map Prod.fst, processId := 4711 }
  let p : Process :=
    { scope := scope, tasks := [], directory := directory
      terminal := size.map fun d => { size := d } }
  p.runAnyProgram program name args

end VirtualTerminal.Shell.Process
