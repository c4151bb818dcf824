import VirtualTerminal.Backend.Scripted
import VirtualTerminal.Codec.Style

/-!
# Codec — Request

What is asked of backends and commands, as JSON values.
-/

namespace VirtualTerminal

/-- The JSON value of what a backend can do. -/
def Capabilities.toJson (c : Capabilities) : Json :=
  .object [("resize", .bool c.resize), ("signal", .bool c.signal), ("raw_mode", .bool c.rawMode)]

/-- The JSON value of a request to run a command. -/
def ExecRequest.toJson (r : ExecRequest) : Json :=
  .object
    [("command", .string r.command), ("args", .array (r.args.map .string)),
     ("cwd", optionJson .string r.cwd),
     ("env", .array (r.env.map fun v => .array [.string v.1, .string v.2])),
     ("dimensions", r.dimensions.toJson), ("term", .string r.term),
     ("chunk_size", natJson r.chunkSize), ("display", .string r.display)]

/-- Bytes as a text of hexadecimal digits. -/
def hexJson (bytes : List UInt8) : Json := .string (String.ofList (Digit.hexBytes bytes))

/-- The JSON value of a request: its name and what it asks for. -/
def Request.toJson : Request → Json
  | .start backend r => .array [.string "start", .string backend, r.toJson]
  | .write data => .array [.string "write", hexJson data]
  | .resize d => .array [.string "resize", natJson d.rows, natJson d.cols]
  | .tryWait => .array [.string "try_wait"]
  | .terminate => .array [.string "terminate"]

end VirtualTerminal
