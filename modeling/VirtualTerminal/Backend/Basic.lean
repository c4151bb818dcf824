import VirtualTerminal.Error
import VirtualTerminal.Platform

/-!
# Backend — ways of running a command

A backend runs a command behind a stream of bytes.  Backends differ in their kind, which ranks them,
in the platforms they are for, and in what they can do.  What really runs a command is a *host*: a
state in which backends are probed and commands started, written to and stopped.
-/

namespace VirtualTerminal

/-- The kinds of backends, best first. -/
inductive BackendKind where
  /-- The platform's own pseudo-terminal. -/
  | nativePty
  /-- A layer that imitates a pseudo-terminal everywhere. -/
  | emulatedPty
  /-- Plain pipes. -/
  | subprocess
deriving DecidableEq, Repr, Inhabited

namespace BackendKind

/-- The rank of a kind; lower ranks are tried first. -/
def tier : BackendKind → Nat
  | .nativePty => 0
  | .emulatedPty => 1
  | .subprocess => 2

/-- The name of a kind. -/
def name : BackendKind → String
  | .nativePty => "native-pty"
  | .emulatedPty => "emulated-pty"
  | .subprocess => "subprocess"

end BackendKind

/-- What a backend can do besides running a command. -/
structure Capabilities where
  /-- Changes of size reach the command. -/
  resize : Bool
  /-- The command can be signalled. -/
  signal : Bool
  /-- The command sees a terminal. -/
  rawMode : Bool
deriving DecidableEq, Repr, Inhabited

/-- Every capability. -/
def Capabilities.full : Capabilities := ⟨true, true, true⟩

/-- What a registry knows of a backend. -/
structure Backend where
  name : String
  kind : BackendKind
  platforms : List Platform
  capabilities : Capabilities
deriving DecidableEq, Repr, Inhabited

/-- What to run and how. -/
structure ExecRequest where
  command : String
  args : List String := []
  /-- The working directory. -/
  cwd : Option String := none
  /-- Variables added to the environment, in order. -/
  env : List (String × String) := []
  /-- The size of the terminal at the start. -/
  dimensions : Dimensions := .standard
  /-- The terminal's type, as the command is told. -/
  term : String := "xterm-256color"
  /-- The most bytes of one chunk of output. -/
  chunkSize : Nat := 4096
deriving DecidableEq, Repr, Inhabited

namespace ExecRequest

/-- Appends one argument. -/
def withArg (r : ExecRequest) (arg : String) : ExecRequest := { r with args := r.args ++ [arg] }

/-- Appends arguments. -/
def withArgs (r : ExecRequest) (args : List String) : ExecRequest :=
  { r with args := r.args ++ args }

/-- Sets the working directory. -/
def withCwd (r : ExecRequest) (cwd : String) : ExecRequest := { r with cwd := some cwd }

/-- Adds a variable to the environment. -/
def withEnv (r : ExecRequest) (key value : String) : ExecRequest :=
  { r with env := r.env ++ [(key, value)] }

/-- Sets the size of the terminal. -/
def withDimensions (r : ExecRequest) (d : Dimensions) : ExecRequest := { r with dimensions := d }

/-- Sets the terminal's type. -/
def withTerm (r : ExecRequest) (term : String) : ExecRequest := { r with term := term }

/-- Sets the size of chunks; it is at least one. -/
def withChunkSize (r : ExecRequest) (n : Nat) : ExecRequest := { r with chunkSize := max n 1 }

/-- The command line. -/
def display (r : ExecRequest) : String := " ".intercalate (r.command :: r.args)

end ExecRequest

/-- A state in which commands are run.  Backends are named by their place of registration, and a
started command by a handle. -/
class Host (ω : Type) (η : outParam Type) where
  /-- The backend can be used now. -/
  probe (backend : Nat) : StateM ω Bool
  /-- Starts a command. -/
  start (backend : Nat) (request : ExecRequest) : StateM ω (Except Error η)
  /-- Takes the reader of the command's output, which succeeds once. -/
  takeReader (handle : η) : StateM ω (Except Error Unit)
  /-- Writes to the command. -/
  write (handle : η) (data : List UInt8) : StateM ω (Except Error Nat)
  /-- Changes the size of the command's terminal. -/
  resize (handle : η) (size : Dimensions) : StateM ω (Except Error Unit)
  /-- The exit code, if the command has ended. -/
  tryWait (handle : η) : StateM ω (Except Error (Option Int))
  /-- Stops the command. -/
  terminate (handle : η) : StateM ω (Except Error Unit)
  /-- The seconds since 1970. -/
  now : StateM ω Float
  /-- A name that no session has yet. -/
  freshId : StateM ω SessionId

end VirtualTerminal
