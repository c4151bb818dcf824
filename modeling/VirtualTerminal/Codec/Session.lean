import VirtualTerminal.Codec.Cell
import VirtualTerminal.Codec.Error
import VirtualTerminal.Codec.Event
import VirtualTerminal.Codec.Request
import VirtualTerminal.Session

/-!
# Codec — Session

Sessions and what they tell as sparse JSON values.
-/

namespace VirtualTerminal

/-- The JSON value of a session's state. -/
def SessionStatus.toJson (s : SessionStatus) : Json := .string s.name

/-- The JSON value of an event, with its rows of tokens in sparse form and without the time. -/
def Event.toSparseJson : Event → Json
  | .output o =>
    .object
      [("type", .string "terminal_output"), ("tokens", Token.rowsToJson o.tokens),
       ("token_rows", natJson o.tokens.length), ("content", .string o.content),
       ("truncated", .bool o.truncated), ("terminal_size", o.size.toJson),
       ("backend_name", .string o.backendName)]
  | e => e.toJson

/-- The JSON value of a list of events. -/
def Event.listToJson (events : List Event) : Json := .array (events.map Event.toSparseJson)

/-- The JSON value of a snapshot. -/
def Snapshot.toJson (s : Snapshot) : Json :=
  .object
    [("tokens", Token.rowsToJson s.tokens), ("token_rows", natJson s.tokens.length),
     ("content", .string s.content), ("truncated", .bool s.truncated),
     ("output", .string s.output), ("dims", pairJson s.dims.rows s.dims.cols),
     ("cursor", pairJson s.cursor.row s.cursor.col), ("visible", .bool s.visible),
     ("status", s.status.toJson), ("title", optionJson .string s.title),
     ("exit_code", optionJson .int s.exitCode)]

/-- What a session is: its command, its backend, the backends passed over, and its state. -/
def Session.toJson {η : Type} (s : Session η) : Json :=
  .object
    [("command", .string s.command), ("backend", .string s.backend.name),
     ("kind", .string s.backend.kind.name), ("capabilities", s.backend.capabilities.toJson),
     ("attempts", .array (s.attempts.map Attempt.toJson)), ("status", s.status.toJson),
     ("finished", .bool s.status.isFinished)]

end VirtualTerminal
