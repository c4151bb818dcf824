import VirtualTerminal.Codec.Token

/-!
# Codec — Cell

Cells and rows of tokens as sparse JSON values.  A sparse object leaves out the members that say
nothing: what is null, false, empty, or the word `default`.
-/

namespace VirtualTerminal

namespace Json

/-- The value of a member that may as well be missing. -/
def isVoid : Json → Bool
  | .null => true
  | .bool false => true
  | .string "" => true
  | .string "default" => true
  | _ => false

/-- An object without the members that say nothing. -/
def sparse : Json → Json
  | .object ms => .object (ms.filter fun m => !m.2.isVoid)
  | j => j

end Json

/-- Two natural numbers as a list. -/
def pairJson (a b : Nat) : Json := .array [natJson a, natJson b]

/-- The rows that hold tokens, each with its number. -/
def Token.rowsToJson (rows : List (List Token)) : Json :=
  .array ((rows.zipIdx.filter fun r => !r.1.isEmpty).map fun (row, i) =>
    .array [natJson i, .array (row.map fun t => t.toJson.sparse)])

namespace Cell

/-- The JSON value of a cell: its character, and what else it has. -/
def toJson (c : Cell) : Json :=
  let member (name : String) (present : Bool) (value : Json) : Json.Members :=
    if present then [(name, value)] else []
  .object (("ch", .string (String.singleton c.character)) ::
    (member "style" (!c.style.isPlain) c.style.toJson.sparse ++
      Token.optionalMember "link" c.link ++
      member "mark" c.mark.isSome (optionJson BlockMark.toJson c.mark) ++
      member "spacer" c.spacer (.bool true)))

/-- The character of a text of one character. -/
def characterOfJson? (j : Json) : Option Char :=
  match j.string?.map String.toList with
  | some [c] => some c
  | _ => none

/-- The style that a JSON value writes; null writes the plain one. -/
def styleOfJson? (j : Json) : Option Style :=
  (Json.optional? Style.ofJson? j).map fun s => s.getD .plain

/-- The cell that a JSON value writes; what it leaves out or gives as null is as in an empty cell. -/
def ofJson? (j : Json) : Option Cell := do
  let member (name : String) : Json := (j.get? name).getD .null
  let character ← Json.optional? characterOfJson? (member "ch")
  let style ← styleOfJson? (member "style")
  let link ← Json.optional? Json.string? (member "link")
  let mark ← Json.optional? BlockMark.ofJson? (member "mark")
  let spacer := ((member "spacer").bool?).getD false
  return { character := character.getD ' ', style, link, mark, spacer }

end Cell

end VirtualTerminal
