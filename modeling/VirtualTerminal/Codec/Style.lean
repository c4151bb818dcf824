import VirtualTerminal.Cell
import VirtualTerminal.Geometry
import VirtualTerminal.Json.Basic

/-!
# Codec — Style

Colours, styles, marks and sizes as JSON values.  A colour is the word `default` or an object with
the one member `palette` or `rgb`; a style is an object of its eight parts.
-/

namespace VirtualTerminal

namespace Json

/-- A byte, if the value is one. -/
def byte? (j : Json) : Option UInt8 := (j.natBelow? 256).map UInt8.ofNat

/-- A sixteen-bit number, if the value is one. -/
def word? (j : Json) : Option Nat := j.natBelow? 65536

/-- A natural number of 64 bits, if the value is one. -/
def size? (j : Json) : Option Nat := j.natBelow? UInt64.size

/-- Null reads as no value, everything else as the value that it is. -/
def optional? {α : Type} (read : Json → Option α) : Json → Option (Option α)
  | .null => some none
  | j => (read j).map some

/-- The members of a record: an object as it is, or a list of the values in their order. -/
def record? (names : List String) : Json → Option Members
  | .object members => some members
  | .array items => if items.length ≤ names.length then some (names.zip items) else none
  | _ => none

namespace Members

/-- The value of a member that has to be present. -/
def required? {α : Type} (ms : Members) (name : String) (read : Json → Option α) : Option α :=
  (ms.get? name).bind read

/-- The value of a member, or a default where there is none. -/
def default? {α : Type} (ms : Members) (name : String) (read : Json → Option α) (default : α) :
    Option α :=
  match ms.get? name with
  | none => some default
  | some j => read j

end Members

end Json

/-- A byte as a JSON number. -/
def byteJson (b : UInt8) : Json := .int b.toNat

/-- A natural number as a JSON number. -/
def natJson (n : Nat) : Json := .int n

/-- The value if there is one, and null otherwise. -/
def optionJson {α : Type} (write : α → Json) : Option α → Json
  | none => .null
  | some a => write a

namespace Color

/-- The JSON value of a colour. -/
def toJson : Color → Json
  | .default => .string "default"
  | .palette i => .object [("palette", byteJson i)]
  | .rgb c => .object [("rgb", .object [("r", byteJson c.r), ("g", byteJson c.g), ("b", byteJson c.b)])]

/-- The components in an object. -/
def ofComponents? (ms : Json.Members) : Option Color := do
  let r ← ms.required? "r" Json.byte?
  let g ← ms.required? "g" Json.byte?
  let b ← ms.required? "b" Json.byte?
  return .rgb ⟨r, g, b⟩

/-- The colour that a JSON value writes. -/
def ofJson? : Json → Option Color
  | .string "default" => some .default
  | .object [("default", .null)] => some .default
  | .object [("palette", j)] => (j.byte?).map .palette
  | .object [("rgb", .object ms)] => ofComponents? ms
  | _ => none

end Color

namespace Style

/-- The JSON value of a style. -/
def toJson (s : Style) : Json :=
  .object
    [("bold", .bool s.bold), ("italic", .bool s.italic), ("underline", .bool s.underline),
     ("dim", .bool s.dim), ("inverse", .bool s.inverse), ("strikethrough", .bool s.strikethrough),
     ("foreground", s.foreground.toJson), ("background", s.background.toJson)]

/-- The style that an object writes; what it leaves out is as in the plain style. -/
def ofJson? (j : Json) : Option Style := do
  let ms ← j.object?
  let bold ← ms.default? "bold" Json.bool? false
  let italic ← ms.default? "italic" Json.bool? false
  let underline ← ms.default? "underline" Json.bool? false
  let dim ← ms.default? "dim" Json.bool? false
  let inverse ← ms.default? "inverse" Json.bool? false
  let strikethrough ← ms.default? "strikethrough" Json.bool? false
  let foreground ← ms.default? "foreground" Color.ofJson? .default
  let background ← ms.default? "background" Color.ofJson? .default
  return { bold, italic, underline, dim, inverse, strikethrough, foreground, background }

end Style

namespace BlockMark

/-- The mark with this name. -/
def ofName? : String → Option BlockMark
  | "prompt" => some .prompt
  | "input" => some .input
  | "output" => some .output
  | _ => none

/-- The JSON value of a mark. -/
def toJson (m : BlockMark) : Json := .string m.name

/-- The mark that a JSON value writes. -/
def ofJson? (j : Json) : Option BlockMark := j.string?.bind ofName?

end BlockMark

namespace Dimensions

/-- The JSON value of a size. -/
def toJson (d : Dimensions) : Json := .object [("cols", natJson d.cols), ("rows", natJson d.rows)]

/-- The size that a JSON value writes. -/
def ofJson? (j : Json) : Option Dimensions := do
  let ms ← j.record? ["cols", "rows"]
  let cols ← ms.required? "cols" Json.word?
  let rows ← ms.required? "rows" Json.word?
  return ⟨rows, cols⟩

end Dimensions

end VirtualTerminal
