import VirtualTerminal.Codec.Style
import VirtualTerminal.Error

/-!
# Codec — Error

Errors as JSON objects: the name of the kind, the wording, and the backends that were passed over.
-/

namespace VirtualTerminal

namespace AttemptOutcome

/-- The name of an outcome. -/
def name : AttemptOutcome → String
  | .unavailable => "unavailable"
  | .disabled => "disabled"
  | .failed _ => "failed"

/-- The members of an outcome. -/
def members (o : AttemptOutcome) : Json.Members :=
  ("outcome", .string o.name) ::
    match o with
    | .failed reason => [("reason", .string reason)]
    | _ => []

/-- The outcome of a name; the reason counts where there is one. -/
def ofName (name reason : String) : AttemptOutcome :=
  match name with
  | "unavailable" => .unavailable
  | "disabled" => .disabled
  | _ => .failed reason

end AttemptOutcome

/-- The JSON value of an attempt. -/
def Attempt.toJson (a : Attempt) : Json :=
  .object (("backend", .string a.backend) :: a.outcome.members)

namespace Error

/-- The name of an error's kind. -/
def kind : Error → String
  | .backendStart _ _ => "BackendStart"
  | .backendsExhausted _ => "BackendsExhausted"
  | .resizeOutOfBounds _ => "ResizeOutOfBounds"
  | .sessionNotFound _ => "SessionNotFound"
  | .sessionLimitReached _ => "SessionLimitReached"
  | .sessionTerminated => "SessionTerminated"
  | .pty _ => "Pty"
  | .io _ => "Io"
  | .config _ => "Config"

/-- The attempts that an error lists. -/
def attemptMembers : Error → Json.Members
  | .backendsExhausted attempts => [("attempts", .array (attempts.map Attempt.toJson))]
  | _ => []

/-- The JSON value of an error. -/
def toJson (e : Error) : Json :=
  .object (("error", .string e.kind) :: ("message", .string e.message) :: e.attemptMembers)

/-- A result, or its error. -/
def resultJson {α : Type} (write : α → Json) : Except Error α → Json
  | .ok a => write a
  | .error e => e.toJson

end Error

end VirtualTerminal
