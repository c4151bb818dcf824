import VirtualTerminal.Shell.Process

/-!
# Shell — Utility

The programs that can be started, the directories that there are, and what the programs do.
-/

namespace VirtualTerminal.Shell.Process

/-! ### Files -/

/-- The directories. -/
def directories : List String :=
  ["/", "/bin", "/dev", "/etc", "/home", "/lib", "/opt", "/proc", "/root", "/run", "/sbin", "/srv",
   "/sys", "/tmp", "/usr", "/usr/bin", "/usr/lib", "/usr/local", "/usr/local/bin", "/usr/sbin",
   "/usr/share", "/var", "/var/tmp"]

/-- The programs. -/
def programs : List String :=
  ["[", "basename", "bash", "cat", "dash", "dirname", "echo", "env", "false", "head", "id", "kill",
   "printenv", "printf", "pwd", "seq", "sh", "sleep", "sort", "stty", "tail", "test", "tr", "true",
   "tty", "uname", "wc", "yes"]

/-- A path without a slash at its end. -/
def trimPath (path : String) : String :=
  match path.toList.reverse with
  | '/' :: c :: cs => String.ofList (c :: cs).reverse
  | _ => path

/-- There is a directory of this name. -/
def isDirectory (path : String) : Bool := directories.contains (trimPath path)

/-- Why a program cannot be started. -/
inductive LaunchFault where
  | missing
  | denied
deriving DecidableEq, Repr, Inhabited

/-- The program that a name or path stands for. -/
def locate (name : String) : Except LaunchFault String :=
  let find (base : String) : Except LaunchFault String :=
    if programs.contains base then .ok base else .error .missing
  if !name.toList.contains '/' then find name
  else if isDirectory name then .error .denied
  else
    match ["/bin/", "/usr/bin/"].find? fun d => d.toList.isPrefixOf name.toList with
    | some d => find (String.ofList (name.toList.drop d.length))
    | none => .error .missing

/-- There is a file of this name. -/
def isFile (path : String) : Bool :=
  (locate path).toBool || ["/etc/passwd", "/etc/hosts", "/etc/hostname"].contains path

/-! ### Conditions -/

/-- A comparison of numbers. -/
def compare? (op : String) (a b : Int) : Option Bool :=
  match op with
  | "-eq" => some (a = b)
  | "-ne" => some (a ≠ b)
  | "-lt" => some (a < b)
  | "-le" => some (a ≤ b)
  | "-gt" => some (b < a)
  | "-ge" => some (b ≤ a)
  | _ => none

/-- The answer of `test`, if its arguments make sense. -/
def test? (p : Process) : List String → Option Bool
  | [] => some false
  | [a] => some (a ≠ "")
  | "!" :: rest => (test? p rest).map not
  | ["-n", a] => some (a ≠ "")
  | ["-z", a] => some (a = "")
  | ["-t", n] => some (n.toNat?.any fun n => (p.terminalOf? n).isSome)
  | ["-d", path] => some (isDirectory path)
  | ["-e", path] => some (isDirectory path || isFile path)
  | ["-f", path] => some (isFile path)
  | ["-x", path] => some (isDirectory path || (locate path).toBool)
  | [a, "=", b] => some (a = b)
  | [a, "!=", b] => some (a ≠ b)
  | [a, op, b] => do compare? op (← a.toInt?) (← b.toInt?)
  | _ => none

/-- Carries out `test`. -/
def runTest (p : Process) (args : List String) : Process :=
  match p.test? args with
  | some b => p.withStatus (if b then 0 else 1)
  | none => p.withStatus 2

/-! ### Signals -/

/-- Sends a signal to the process itself or to a command in the background. -/
def sendTo (p : Process) (s : Signal) (target : String) : Process :=
  if target == toString p.scope.processId then (p.withStatus 0).signalToSelf s
  else if p.jobs.any fun j => target == toString j.id then
    { p with jobs := p.jobs.filter fun j => target != toString j.id }.withStatus 0
  else p.withStatus 1

/-- Carries out `kill`. -/
def runKill (p : Process) (args : List String) : Process :=
  let (name, targets) := match args with
    | "-s" :: name :: rest => (name, rest)
    | a :: rest =>
      match a.toList with
      | '-' :: cs => (String.ofList cs, rest)
      | _ => ("TERM", a :: rest)
    | [] => ("TERM", [])
  if name == "0" then p.withStatus 0
  else
    match Signal.ofText? name with
    | none => p.withStatus 1
    | some s => targets.foldl (fun p target => p.sendTo s target) p

/-! ### Copying -/

/-- How much `head` is asked for: bytes or lines, and the files. -/
def amount : List String → Bool × Nat × List String
  | "-c" :: n :: rest => (true, n.toNat?.getD 0, rest)
  | "-n" :: n :: rest => (false, n.toNat?.getD 0, rest)
  | a :: rest =>
    match a.toList with
    | '-' :: 'c' :: ds => (true, Digit.leadingNumber 10 ds, rest)
    | '-' :: 'n' :: ds => (false, Digit.leadingNumber 10 ds, rest)
    | '-' :: d :: ds => (false, Digit.leadingNumber 10 (d :: ds), rest)
    | _ => (false, 10, a :: rest)
  | [] => (false, 10, [])

/-- Carries out `head`. -/
def runHead (p : Process) (name : String) (args : List String) : Process :=
  let (inBytes, n, files) := amount args
  match files with
  | ["/dev/zero"] => if inBytes then p.write 1 (List.replicate n 0) else p.withStatus 0
  | ["/dev/null"] => p.withStatus 0
  | [] => p.push (if inBytes then .copy (some n) else .copyLines n)
  | ["-"] => p.push (if inBytes then .copy (some n) else .copyLines n)
  | path :: _ =>
    p.complain s!"{name}: cannot open '{path}' for reading: No such file or directory" 1

/-- Carries out `cat`. -/
def runCat (p : Process) (name : String) (args : List String) : Process :=
  match args with
  | [] => p.push (.copy none)
  | ["-"] => p.push (.copy none)
  | "/dev/null" :: _ => p.withStatus 0
  | path :: _ =>
    if isDirectory path then p.complain s!"{name}: {path}: Is a directory" 1
    else p.complain s!"{name}: {path}: No such file or directory" 1

/-! ### The terminal -/

/-- Carries out `stty`: tells the size, or changes settings. -/
def runStty (p : Process) (name : String) (args : List String) : Process :=
  match p.terminalOf? 0 with
  | none => p.complain s!"{name}: 'standard input': Inappropriate ioctl for device" 1
  | some tty =>
    if args = ["size"] then p.print s!"{tty.size.rows} {tty.size.cols}\n"
    else
      match args.foldlM TtyModes.change? tty.modes with
      | some modes => { p with terminal := some { tty with modes := modes } }.withStatus 0
      | none =>
        let unknown := (args.find? fun a => (tty.modes.change? a).isNone).getD ""
        p.complain s!"{name}: invalid argument '{unknown}'" 1

/-- Carries out `tty`. -/
def runTty (p : Process) : Process :=
  match p.terminalOf? 0 with
  | some _ => p.print "/dev/pts/0\n"
  | none => (p.print "not a tty\n").withStatus 1

/-! ### Texts -/

/-- Carries out `seq` for a last number, and perhaps a first one. -/
def runSeq (p : Process) (args : List String) : Process :=
  match args.map String.toNat? with
  | [some n] => p.print (String.join ((List.range n).map fun i => s!"{i + 1}\n"))
  | [some a, some b] =>
    p.print (String.join ((List.range (b + 1 - a)).map fun i => s!"{a + i}\n"))
  | _ => p.withStatus 1

/-- The part of a path behind its last slash, and the part before it. -/
def splitPath (path : String) : String × String :=
  let cs := (trimPath path).toList.reverse
  let base := (cs.takeWhile (· ≠ '/')).reverse
  let front := (cs.drop (base.length + 1)).reverse
  let parent :=
    if front.isEmpty then if cs.contains '/' then "/" else "." else String.ofList front
  (String.ofList base, parent)

/-- Carries out `printenv` for one variable. -/
def runPrintenv (p : Process) (args : List String) : Process :=
  match args with
  | [name] =>
    match p.scope.get? name with
    | some value => p.print (value ++ "\n")
    | none => p.withStatus 1
  | _ => p.print (String.join (p.scope.bindings.map fun v => s!"{v.1}={v.2}\n"))

/-- Carries out `sh`: a script in the arguments, or one from the input. -/
def runShell (p : Process) (name : String) (args : List String) : Process :=
  let id := if p.isOccupied then p.scope.processId + 100 else p.scope.processId
  let p := { p with scope := { p.scope with zero := name, positional := [], processId := id } }
  match args with
  | "-c" :: text :: rest =>
    let scope := { p.scope with zero := rest.head?.getD name, positional := rest.drop 1 }
    let p := { p with scope := scope }
    match Command.ofText? text with
    | some c => p.push (.run c)
    | none => p.object "Syntax error" 2
  | [] =>
    if (p.terminalOf? 0).isSome && (p.terminalOf? 2).isSome then
      (p.push (.script true [])).push .prompt
    else p.push (.script false [])
  | path :: _ => p.complain s!"{name}: 0: cannot open {path}: No such file" 2

/-! ### Time -/

/-- The milliseconds that a text of seconds stands for. -/
def milliseconds (text : String) : Nat :=
  let cs := text.toList
  let whole := Digit.leading 10 cs
  let fraction := match cs.drop whole.length with
    | '.' :: rest => (Digit.leading 10 rest).take 3
    | _ => []
  Digit.leadingNumber 10 whole * 1000 +
    Digit.leadingNumber 10 (fraction ++ List.replicate (3 - fraction.length) '0')

/-- The milliseconds that several texts of seconds stand for together. -/
def totalMilliseconds (texts : List String) : Nat :=
  texts.foldl (fun total text => total + milliseconds text) 0

/-! ### Programs -/

/-- The variables that arguments set, and the arguments behind them. -/
def settings : List String → List (String × String) × List String
  | [] => ([], [])
  | a :: rest =>
    let name := a.toList.takeWhile (· ≠ '=')
    if name.length < a.length then
      let (vs, args) := settings rest
      ((String.ofList name, String.ofList (a.toList.drop (name.length + 1))) :: vs, args)
    else ([], a :: rest)

/-- Carries out a program under the name by which it was called. -/
def runProgram (p : Process) (program name : String) (args : List String) : Process :=
  match Filter.ofArguments? program args with
  | some f => p.push (.gather f [])
  | none =>
    match program with
    | "true" => p.withStatus 0
    | "false" => p.withStatus 1
    | "echo" => p.write 1 (Format.echo false args)
    | "printf" =>
      match args with
      | format :: args => p.write 1 (Format.printf format args)
      | [] => p.withStatus 2
    | "test" => p.runTest args
    | "[" => if args.getLast? = some "]" then p.runTest args.dropLast else p.withStatus 2
    | "kill" => p.runKill args
    | "pwd" => p.print (p.directory ++ "\n")
    | "cat" => p.runCat name args
    | "head" => p.runHead name args
    | "seq" => p.runSeq args
    | "sleep" => p.push (.sleep (totalMilliseconds args))
    | "stty" => p.runStty name args
    | "tty" => p.runTty
    | "yes" =>
      let text := if args.isEmpty then "y" else " ".intercalate args
      p.push (.reiterate (Format.bytes (text ++ "\n").toList))
    | "uname" => p.print "Linux\n"
    | "id" => if args = ["-u"] then p.print "0\n" else p.withStatus 0
    | "basename" => p.print ((splitPath (args.head?.getD "")).1 ++ "\n")
    | "dirname" => p.print ((splitPath (args.head?.getD "")).2 ++ "\n")
    | "printenv" => p.runPrintenv args
    | "sh" => p.runShell name args
    | "dash" => p.runShell name args
    | "bash" => p.runShell name args
    | _ => p.withStatus 0

/-- The traps that a new program keeps: those of ignored signals. -/
def inheritedTraps (p : Process) : List (Signal × String) := p.traps.filter fun t => t.2 == ""

/-- The process as a new program finds it. -/
def forProgram (p : Process) : Process :=
  { p with scope := p.scope.environment, functions := [], traps := p.inheritedTraps }

/-- Carries out a program that may be called by another one, as `env` does. -/
def runAnyProgram (p : Process) (program name : String) (args : List String) : Process :=
  if program == "env" then
    let (vs, rest) := settings args
    let scope := vs.foldl (fun (s : Scope) v => (s.set v.1 v.2).share [v.1]) p.scope
    let p := { p with scope := scope }
    match rest with
    | [] => p.runPrintenv []
    | called :: args =>
      match locate called with
      | .ok program => p.runProgram program called args
      | .error _ => p.complain s!"{name}: '{called}': No such file or directory" 127
  else p.runProgram program name args

/-- Carries out a program as a child. -/
def runChild (p : Process) (name : String) (args : List String) : Process :=
  match locate name with
  | .ok program =>
    ({ p with tasks := .leave p.enclosure :: p.tasks }).forProgram.runAnyProgram program name args
  | .error .missing => p.object s!"{name}: not found" 127
  | .error .denied => p.object s!"{name}: Permission denied" 126

/-- Replaces everything by a program. -/
def runExec (p : Process) (name : String) (args : List String) : Process :=
  match locate name with
  | .ok program =>
    ({ p with tasks := p.outerTasks, atExit := none }).forProgram.runAnyProgram program name args
  | .error .missing => (p.object s!"exec: {name}: not found" 127).exit 127
  | .error .denied => (p.object s!"exec: {name}: Permission denied" 126).exit 126

end VirtualTerminal.Shell.Process
