import VirtualTerminal.Codec.Style
import VirtualTerminal.Token

/-!
# Codec — Token

Tokens as JSON values.  A link and a mark are written only where there is one; everything else is
always written and has to be present.
-/

namespace VirtualTerminal.Token

/-- A member for a text that may be missing. -/
def optionalMember (name : String) : Option String → Json.Members
  | none => []
  | some s => [(name, .string s)]

/-- The JSON value of a token. -/
def toJson (t : Token) : Json :=
  .object
    ([("text", .string t.text), ("bold", .bool t.bold), ("italic", .bool t.italic),
      ("underline", .bool t.underline), ("dim", .bool t.dim), ("inverse", .bool t.inverse),
      ("strikethrough", .bool t.strikethrough), ("fg", .string t.fg), ("bg", .string t.bg)] ++
      optionalMember "link" t.link ++ optionalMember "code" t.code)

/-- The parts of a token, in the order of their list form. -/
def memberNames : List String :=
  ["text", "bold", "italic", "underline", "dim", "inverse", "strikethrough", "fg", "bg", "link",
   "code"]

/-- The token that a JSON value writes. -/
def ofJson? (j : Json) : Option Token := do
  let ms ← j.record? memberNames
  let text ← ms.required? "text" Json.string?
  let bold ← ms.required? "bold" Json.bool?
  let italic ← ms.required? "italic" Json.bool?
  let underline ← ms.required? "underline" Json.bool?
  let dim ← ms.required? "dim" Json.bool?
  let inverse ← ms.required? "inverse" Json.bool?
  let strikethrough ← ms.required? "strikethrough" Json.bool?
  let fg ← ms.required? "fg" Json.string?
  let bg ← ms.required? "bg" Json.string?
  let link ← ms.default? "link" (Json.optional? Json.string?) none
  let code ← ms.default? "code" (Json.optional? Json.string?) none
  return { text, bold, italic, underline, dim, inverse, strikethrough, fg, bg, link, code }

end VirtualTerminal.Token
