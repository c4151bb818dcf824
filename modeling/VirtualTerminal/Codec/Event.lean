import VirtualTerminal.Codec.Token
import VirtualTerminal.Event
import VirtualTerminal.Json.Reader
import VirtualTerminal.Json.Writer

/-!
# Codec — Event

Events as JSON values, and as lines of text.  The member `type` names the kind of the event, and the
parts of the event stand beside it.  An event may also be read from a list that begins with the name
of its kind and goes on with its parts.
-/

namespace VirtualTerminal

namespace TerminalOutput

/-- The parts of a rendering, in the order of their list form. -/
def memberNames : List String :=
  ["tokens", "content", "truncated", "terminal_size", "backend_name", "timestamp"]

/-- The members of a rendering. -/
def members (o : TerminalOutput) : Json.Members :=
  [("tokens", .array (o.tokens.map fun row => .array (row.map Token.toJson))),
   ("content", .string o.content), ("truncated", .bool o.truncated),
   ("terminal_size", o.size.toJson), ("backend_name", .string o.backendName),
   ("timestamp", .float o.timestamp)]

/-- A row of tokens. -/
def rowOfJson? (j : Json) : Option (List Token) := j.array?.bind fun row => row.mapM Token.ofJson?

/-- The rendering that members write. -/
def ofMembers? (ms : Json.Members) : Option TerminalOutput := do
  let tokens ← ms.required? "tokens" fun j => j.array?.bind fun rows => rows.mapM rowOfJson?
  let content ← ms.required? "content" Json.string?
  let truncated ← ms.required? "truncated" Json.bool?
  let size ← ms.required? "terminal_size" Dimensions.ofJson?
  let backendName ← ms.required? "backend_name" Json.string?
  let timestamp ← ms.required? "timestamp" Json.float?
  return { tokens, content, truncated, size, backendName, timestamp }

end TerminalOutput

namespace Event

/-- The members of an event besides its kind. -/
def members : Event → Json.Members
  | .output o => o.members
  | .binary message size => [("message", .string message), ("data_size", natJson size)]
  | .title text => [("title", .string text)]
  | .exited code => [("code", optionJson Json.int code)]
  | .failed reason => [("reason", .string reason)]

/-- The JSON value of an event. -/
def toJson (e : Event) : Json := .object (("type", .string e.kind) :: e.members)

/-- An exit code, if the value is one. -/
def exitCode? (j : Json) : Option Int := j.intIn? (-2147483648) 2147483647

/-- The event of a kind that members write. -/
def ofMembers? (kind : String) (ms : Json.Members) : Option Event :=
  match kind with
  | "terminal_output" => (TerminalOutput.ofMembers? ms).map .output
  | "binary_content" => do
    let message ← ms.required? "message" Json.string?
    let size ← ms.required? "data_size" Json.size?
    return .binary message size
  | "title_changed" => (ms.required? "title" Json.string?).map .title
  | "exited" => (ms.default? "code" (Json.optional? exitCode?) none).map .exited
  | "failed" => (ms.required? "reason" Json.string?).map .failed
  | _ => none

/-- The parts of an event of a kind, in the order of their list form. -/
def memberNames (kind : String) : List String :=
  match kind with
  | "terminal_output" => TerminalOutput.memberNames
  | "binary_content" => ["message", "data_size"]
  | "title_changed" => ["title"]
  | "exited" => ["code"]
  | "failed" => ["reason"]
  | _ => []

/-- The event that a JSON value writes.  In the list form no part may be missing. -/
def ofJson? : Json → Option Event
  | .object ms => do
    let kind ← Json.Members.required? ms "type" Json.string?
    ofMembers? kind (Json.Members.erase ms "type")
  | .array (.string kind :: parts) =>
    let names := memberNames kind
    if parts.length = names.length then ofMembers? kind (names.zip parts) else none
  | _ => none

/-- The event as one line of text, without the line feed. -/
def line (e : Event) : String := e.toJson.compact

/-- The event that a line of text writes. -/
def ofLine? (text : String) : Option Event := (Json.read? text).bind ofJson?

end Event

end VirtualTerminal
