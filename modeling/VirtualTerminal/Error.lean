import VirtualTerminal.Geometry
import VirtualTerminal.SessionId

/-!
# Error — what can go wrong

Each kind of failure keeps what caused it; the wording is in the functions called `message`.
-/

namespace VirtualTerminal

/-- Why a backend was passed over. -/
inductive AttemptOutcome where
  /-- It is not for this platform, or cannot be used now. -/
  | unavailable
  /-- The settings exclude it. -/
  | disabled
  /-- Starting the command failed. -/
  | failed (reason : String)
deriving DecidableEq, Repr, Inhabited

/-- A backend that was passed over, and why. -/
structure Attempt where
  backend : String
  outcome : AttemptOutcome
deriving DecidableEq, Repr, Inhabited

/-- The wording of an attempt. -/
def Attempt.message (a : Attempt) : String :=
  match a.outcome with
  | .unavailable => s!"{a.backend}: unavailable"
  | .disabled => s!"{a.backend}: disabled"
  | .failed reason => s!"{a.backend}: {reason}"

/-- What is wrong with a configuration. -/
inductive ConfigFault where
  | noSessions
  | emptyTerminal
  | emptySample
  | nullThreshold
  | controlThreshold
  | noOutput
  | noQueue
  | emptyChunk
  | unknownBackend (name : String)
  /-- The text is no configuration. -/
  | unreadable (reason : String)
deriving DecidableEq, Repr, Inhabited

/-- The wording of a fault. -/
def ConfigFault.message : ConfigFault → String
  | .noSessions => "server.max_sessions must be > 0"
  | .emptyTerminal => "terminal dimensions must be > 0"
  | .emptySample => "gate.sample_size must be > 0"
  | .nullThreshold => "gate.null_threshold must be in (0, 1]"
  | .controlThreshold => "gate.control_threshold must be in (0, 1]"
  | .noOutput => "output.max_size must be > 0"
  | .noQueue => "output.event_queue_capacity must be > 0"
  | .emptyChunk => "output.read_chunk_size must be > 0"
  | .unknownBackend name => s!"unknown backend '{name}'"
  | .unreadable reason => reason

/-- What can go wrong. -/
inductive Error where
  /-- A backend could not start the command. -/
  | backendStart (backend reason : String)
  /-- Every backend was passed over, in this order. -/
  | backendsExhausted (attempts : List Attempt)
  /-- A size has no rows or no columns. -/
  | resizeOutOfBounds (size : Dimensions)
  | sessionNotFound (id : SessionId)
  | sessionLimitReached (max : Nat)
  | sessionTerminated
  /-- The pseudo-terminal or pipe of a command failed. -/
  | pty (reason : String)
  /-- The operating system failed. -/
  | io (reason : String)
  | config (fault : ConfigFault)
deriving DecidableEq, Repr, Inhabited

namespace Error

/-- The wording of an error. -/
def message : Error → String
  | .backendStart backend reason => s!"Backend '{backend}' failed to start: {reason}"
  | .backendsExhausted attempts =>
    "All backends exhausted: " ++ "; ".intercalate (attempts.map Attempt.message)
  | .resizeOutOfBounds size => "Invalid terminal size: " ++ size.text
  | .sessionNotFound id => "Session not found: " ++ id.text
  | .sessionLimitReached max => s!"Session limit reached (max: {max})"
  | .sessionTerminated => "Session already terminated"
  | .pty reason => s!"PTY error: {reason}"
  | .io reason => s!"IO error: {reason}"
  | .config fault => "Configuration error: " ++ fault.message

end Error

/-- Refuses a size without rows or columns. -/
def Dimensions.validate (d : Dimensions) : Except Error Unit :=
  if d.isEmpty then .error (.resizeOutOfBounds d) else .ok ()

end VirtualTerminal
