import VirtualTerminal.CommandLine
import VirtualTerminal.Following
import VirtualTerminal.Manager
import VirtualTerminal.Schema.Event
import VirtualTerminal.Streaming

/-!
# Runner — carrying out what the command line asks for

Runs one command in a session and streams its events, or prints the schema or the backends instead.
-/

namespace VirtualTerminal

/-! ### Reports -/

/-- Why nothing was run. -/
inductive RunFault where
  | configuration (e : Error)
  | refused (e : Error)
  | noCommand
deriving DecidableEq, Repr, Inhabited

/-- The wording of a fault, with the causes of its cause. -/
def RunFault.message : RunFault → String
  | .configuration (.io reason) =>
    "failed to load configuration: " ++ (Error.io reason).message ++ ": " ++ reason
  | .configuration e => s!"failed to load configuration: {e.message}"
  | .refused e => e.message
  | .noCommand => "no command given"

/-- What a run leaves behind. -/
structure Report where
  /-- The exit code. -/
  result : Except RunFault Int
  output : String := ""
  /-- The text for the standard error. -/
  errors : String := ""

/-- The lines that tell which backends can be used, each of which is asked again. -/
def Registry.availabilities {ω η : Type} [Host ω η] :
    List String → Registry → StateM ω (List String)
  | [], _ => return []
  | name :: rest, r => do
    let (r, available) ← r.recheck (ω := ω) (η := η) name
    let state := if available.getD false then "available" else "unavailable"
    return s!"{name}: {state}\n" :: (← availabilities rest r)

/-- The list of backends. -/
def Registry.listing (r : Registry) : StateM LocalHost String := do
  let lines ← Registry.availabilities (ω := LocalHost) (η := Nat) r.names r
  return s!"platform: {r.platform.name}\n" ++ String.join lines

/-- The lines that tell why no backend could run a command. -/
def exhaustedText (command : List String) (attempts : List Attempt) : String :=
  let line := " ".intercalate command
  s!"ptyrender: no backend could run '{line}'\n" ++
    String.join (attempts.map fun a => s!"  {a.message}\n")

namespace Options

/-- The registry that the options leave. -/
def registry (o : Options) (config : Config) (platform : Platform) : Except Error Registry :=
  let r := { Registry.builtin platform with disabled := config.disabledBackends }
  match o.backend with
  | none => .ok r
  | some name => r.restrictTo name

/-- The request for the command. -/
def request (o : Options) (m : Manager Nat) (program : String) (args : List String) :
    ExecRequest :=
  let r := (m.request program).withArgs args
  match o.cwd with
  | none => r
  | some d => r.withCwd d

/-- Runs the command and streams its events. -/
def runCommand (o : Options) (m : Manager Nat) (program : String) (args : List String)
    (stdin : List UInt8) : StateM LocalHost Report := do
  match ← m.spawn (o.request m program args) with
  | (_, .error (.backendsExhausted attempts)) =>
    return { result := .ok 1, errors := exhaustedText o.command attempts }
  | (_, .error e) => return { result := .error (.refused e) }
  | (m, .ok (s, r)) =>
    let f ← Following.ofSpawned s r
    let f ← if o.stdin then f.forward (blocks 1024 stdin) else pure f
    let f ← f.complete
    let _ ← (m.update f.session).closeAll
    return { result := .ok (StreamEnd.ofEvents f.events).exitCode, output := Event.lines f.events }

/-- Carries out what the options ask for. -/
def run (o : Options) (file : String → Except String String) (platform : Platform)
    (stdin : List UInt8) : Report :=
  if o.schema then { result := .ok 0, output := Schema.eventDraft07.pretty ++ "\n" }
  else
    match o.loadConfig file with
    | .error e => { result := .error (.configuration e) }
    | .ok config =>
      match o.registry config platform with
      | .error e => { result := .error (.refused e) }
      | .ok registry =>
        if o.listBackends then
          { result := .ok 0, output := (registry.listing {}).1 }
        else
          match o.command with
          | [] => { result := .error .noCommand }
          | program :: args =>
            (o.runCommand { config := config, registry := registry } program args stdin {}).1

end Options

end VirtualTerminal
