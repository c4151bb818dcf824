import VirtualTerminal.Shell.Utility

/-!
# Shell — Builtin

What the shell does itself: commands that change its own environment, its loops and its traps.
-/

namespace VirtualTerminal.Shell.Process

/-- Carries out `trap`. -/
def runTrap (p : Process) (args : List String) : Process :=
  let set (action : Option String) (p : Process) (name : String) : Process :=
    if name == "EXIT" || name == "0" then { p with atExit := action }
    else
      match Signal.ofText? name with
      | none => p.withStatus 1
      | some s =>
        let others := p.traps.filter fun t => t.1 != s
        { p with traps := match action with
          | some text => (s, text) :: others
          | none => others }
  match args with
  | [] => p.withStatus 0
  | "-" :: names => names.foldl (set none) (p.withStatus 0)
  | action :: names => names.foldl (set (some action)) (p.withStatus 0)

/-- The tasks from the next round of the innermost loop on; nothing where there is no loop. -/
def loopTasks? : List Task → Option (List Task)
  | [] => none
  | .again r c b :: rest => some (.again r c b :: rest)
  | .test r c b :: rest => some (.again r c b :: rest)
  | .each n vs b :: rest => some (.each n vs b :: rest)
  | .leave _ :: _ => none
  | .endCall _ :: _ => none
  | _ :: rest => loopTasks? rest

/-- Leaves so many loops. -/
def breakLoops (p : Process) : Nat → Process
  | 0 => p
  | n + 1 =>
    match loopTasks? p.tasks with
    | some (_ :: rest) => breakLoops { p with tasks := rest } n
    | _ => p

/-- Goes on with the next round of a loop. -/
def continueLoop (p : Process) : Process :=
  match loopTasks? p.tasks with
  | some tasks => { p with tasks := tasks }
  | none => p

/-- Leaves the innermost function. -/
def returnFrom (p : Process) : Process :=
  let isInner (t : Task) : Bool := match t with
    | .endCall _ => false
    | .leave _ => false
    | _ => true
  { p with tasks := p.tasks.dropWhile isInner }

/-- Sets variables that programs get. -/
def runExport (p : Process) (args : List String) : Process :=
  let add (s : Scope) (a : String) : Scope :=
    match settings [a] with
    | ([(name, value)], _) => (s.set name value).share [name]
    | _ => s.share [a]
  { p with scope := args.foldl add p.scope }.withStatus 0

/-- Carries out `read`. -/
def runRead (p : Process) (args : List String) : Process :=
  match args with
  | "-r" :: names => p.push (.receive names true [])
  | names => p.push (.receive names false [])

/-- Carries out `cd`. -/
def runCd (p : Process) (args : List String) : Process :=
  let path := args.head?.getD ((p.scope.get? "HOME").getD "/")
  if isDirectory path then { p with directory := trimPath path }.withStatus 0
  else p.object s!"cd: can't cd to {path}" 2

/-- Carries out a text as a command. -/
def runText (p : Process) (text : String) : Process :=
  match Command.ofText? text with
  | some c => (p.withStatus 0).push (.run c)
  | none => (p.object "Syntax error" 2).exit 2

/-- The status in an argument, or else that of the last command. -/
def statusArgument (p : Process) (args : List String) : Nat :=
  (args.head?.bind String.toNat?).getD p.scope.status

/-- Carries out `exit`. -/
def runExit (p : Process) (args : List String) : Process :=
  match args with
  | a :: _ =>
    match a.toNat? with
    | some n => p.exit n
    | none => (p.object s!"exit: Illegal number: {a}" 2).exit 2
  | [] => p.exit p.scope.status

/-- Carries out what the shell itself can do. -/
def runBuiltin? (p : Process) (name : String) (args : List String) : Option Process :=
  match name with
  | ":" => some (p.withStatus 0)
  | "true" => some (p.withStatus 0)
  | "false" => some (p.withStatus 1)
  | "echo" => some (p.write 1 (Format.echo true args))
  | "printf" => some (p.runProgram name name args)
  | "test" => some (p.runTest args)
  | "[" => some (p.runProgram name name args)
  | "kill" => some (p.runKill args)
  | "pwd" => some (p.runProgram name name args)
  | "trap" => some (p.runTrap args)
  | "wait" => some ((p.withStatus 0).push .wait)
  | "exit" => some (p.runExit args)
  | "return" => some (p.returnFrom.withStatus (p.statusArgument args))
  | "break" => some ((p.breakLoops ((args.head?.bind String.toNat?).getD 1)).withStatus 0)
  | "continue" => some (p.continueLoop.withStatus 0)
  | "eval" => some (p.runText (" ".intercalate args))
  | "exec" =>
    match args with
    | [] => some (p.withStatus 0)
    | program :: args => some (p.runExec program args)
  | "read" => some (p.runRead args)
  | "cd" => some (p.runCd args)
  | "shift" =>
    let n := (args.head?.bind String.toNat?).getD 1
    let scope := { p.scope with positional := p.scope.positional.drop n }
    some ({ p with scope := scope }.withStatus 0)
  | "set" =>
    match args with
    | "--" :: rest => some ({ p with scope := { p.scope with positional := rest } }.withStatus 0)
    | _ => some (p.withStatus 0)
  | "export" => some (p.runExport args)
  | "unset" => some ({ p with scope := args.foldl Scope.unset p.scope }.withStatus 0)
  | _ => none

end VirtualTerminal.Shell.Process
