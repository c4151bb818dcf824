import VirtualTerminal.Json.Basic

/-!
# Json — Writer

The texts of JSON values: compact, without any blank, and indented by two spaces a level.  In a
string the quote, the backslash and the control characters below U+0020 are escaped; five of these
have short forms.
-/

namespace VirtualTerminal.Json

/-- A character inside a string. -/
def escape (c : Char) : List Char :=
  match c with
  | '"' => ['\\', '"']
  | '\\' => ['\\', '\\']
  | '\x08' => ['\\', 'b']
  | '\t' => ['\\', 't']
  | '\n' => ['\\', 'n']
  | '\x0c' => ['\\', 'f']
  | '\r' => ['\\', 'r']
  | c =>
    if c.toNat < 0x20 then
      let hex (n : Nat) := if n < 10 then Char.ofNat (48 + n) else Char.ofNat (87 + n)
      ['\\', 'u', '0', '0', hex (c.toNat / 16), hex (c.toNat % 16)]
    else [c]

/-- A string between quotes. -/
def quoted (s : String) : List Char := '"' :: (s.toList.flatMap escape ++ ['"'])

/-- The open and the closing brace. -/
def openBrace : Char := '\x7b'

/-- The closing brace. -/
def closeBrace : Char := '\x7d'

/-- Texts joined by a separator. -/
def joined (separator : List Char) (texts : List (List Char)) : List Char :=
  separator.intercalate texts

mutual

/-- The text of a value without any blank. -/
def compactChars : Json → List Char
  | .null => "null".toList
  | .bool b => (if b then "true" else "false").toList
  | .int n => Numeral.writeInt n
  | .float x => Numeral.writeFloat x
  | .string s => quoted s
  | .array items => '[' :: (joined [','] (compactItems items) ++ [']'])
  | .object members => openBrace :: (joined [','] (compactMembers members) ++ [closeBrace])

/-- The texts of the items of an array. -/
def compactItems : List Json → List (List Char)
  | [] => []
  | item :: rest => compactChars item :: compactItems rest

/-- The texts of the members of an object. -/
def compactMembers : List (String × Json) → List (List Char)
  | [] => []
  | (name, value) :: rest => (quoted name ++ ':' :: compactChars value) :: compactMembers rest

end

/-- A new line, indented. -/
def newLine (depth : Nat) : List Char := '\n' :: List.replicate (2 * depth) ' '

/-- Parts on lines of their own between brackets; no parts at all leave the brackets together. -/
def block (depth : Nat) (opening closing : Char) (parts : List (List Char)) : List Char :=
  if parts.isEmpty then [opening, closing]
  else
    opening :: (newLine (depth + 1) ++ joined (',' :: newLine (depth + 1)) parts ++ newLine depth ++
      [closing])

mutual

/-- The indented text of a value at a depth. -/
def prettyChars (depth : Nat) : Json → List Char
  | .null => "null".toList
  | .bool b => (if b then "true" else "false").toList
  | .int n => Numeral.writeInt n
  | .float x => Numeral.writeFloat x
  | .string s => quoted s
  | .array items => block depth '[' ']' (prettyItems (depth + 1) items)
  | .object members => block depth openBrace closeBrace (prettyMembers (depth + 1) members)

/-- The indented texts of the items of an array. -/
def prettyItems (depth : Nat) : List Json → List (List Char)
  | [] => []
  | item :: rest => prettyChars depth item :: prettyItems depth rest

/-- The indented texts of the members of an object. -/
def prettyMembers (depth : Nat) : List (String × Json) → List (List Char)
  | [] => []
  | (name, value) :: rest =>
    (quoted name ++ ':' :: ' ' :: prettyChars depth value) :: prettyMembers depth rest

end

/-- The text of a value without any blank. -/
def compact (j : Json) : String := String.ofList (compactChars j)

/-- The text of a value, indented by two spaces a level. -/
def pretty (j : Json) : String := String.ofList (prettyChars 0 j)

end VirtualTerminal.Json
