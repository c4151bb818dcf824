import VirtualTerminal.Json.Basic
import VirtualTerminal.Text.Digit

/-!
# Json — Reader

Reading a JSON text in two passes, each of which looks at every part of its input once: the
characters are gathered into lexemes, and the lexemes are folded over a stack of the arrays and
objects that are still open.  Of members with the same name the last one counts.
-/

namespace VirtualTerminal.Json

/-! ### Lexemes -/

/-- The smallest parts of a JSON text. -/
inductive Lexeme where
  | openArray
  | closeArray
  | openObject
  | closeObject
  | comma
  | colon
  | string (s : String)
  /-- A number, a truth value or null. -/
  | scalar (j : Json)

/-- What is being read between two characters; texts are kept in reverse. -/
inductive Scan where
  | between
  | word (read : List Char)
  | text (read : List Char)
  | escaped (read : List Char)
  /-- Inside `\uXXXX`: the first half of a surrogate pair, the digits still to come, and the value
  so far. -/
  | unicode (read : List Char) (high : Option Nat) (missing : Nat) (value : Nat)
  /-- Behind the first half of a surrogate pair. -/
  | second (read : List Char) (high : Nat)
  /-- Behind the backslash of the second half of a surrogate pair. -/
  | secondEscaped (read : List Char) (high : Nat)

/-- Blanks between lexemes. -/
def isBlank (c : Char) : Bool := c == ' ' || c == '\n' || c == '\t' || c == '\r'

/-- The lexeme that a character is on its own. -/
def punctuation? (c : Char) : Option Lexeme :=
  match c with
  | '[' => some .openArray
  | ']' => some .closeArray
  | '\x7b' => some .openObject
  | '\x7d' => some .closeObject
  | ',' => some .comma
  | ':' => some .colon
  | _ => none

/-- The value that a word writes. -/
def scalar? (cs : List Char) : Option Json :=
  if cs == "null".toList then some .null
  else if cs == "true".toList then some (.bool true)
  else if cs == "false".toList then some (.bool false)
  else
    (Numeral.read? cs).map fun
      | .int n => .int n
      | .float x => .float x

/-- The character behind a backslash, for the escapes of one letter. -/
def unescape? (c : Char) : Option Char :=
  match c with
  | '"' => some '"'
  | '\\' => some '\\'
  | '/' => some '/'
  | 'b' => some '\x08'
  | 'f' => some '\x0c'
  | 'n' => some '\n'
  | 'r' => some '\r'
  | 't' => some '\t'
  | _ => none

/-- The state after the last digit of `\uXXXX`. -/
def afterUnicode (read : List Char) (high : Option Nat) (value : Nat) : Option Scan :=
  match high with
  | some h =>
    if 0xdc00 ≤ value ∧ value < 0xe000 then
      some (.text (Char.ofNat (0x10000 + (h - 0xd800) * 0x400 + (value - 0xdc00)) :: read))
    else none
  | none =>
    if 0xd800 ≤ value ∧ value < 0xdc00 then some (.second read value)
    else if 0xdc00 ≤ value ∧ value < 0xe000 then none
    else some (.text (Char.ofNat value :: read))

/-- A character between lexemes. -/
def scanBetween? (c : Char) : Option (Scan × List Lexeme) :=
  if isBlank c then some (.between, [])
  else if c = '"' then some (.text [], [])
  else
    match punctuation? c with
    | some l => some (.between, [l])
    | none => some (.word [c], [])

/-- One character. -/
def scan? (s : Scan) (c : Char) : Option (Scan × List Lexeme) :=
  match s with
  | .between => scanBetween? c
  | .word read =>
    if isBlank c || c == '"' || (punctuation? c).isSome then do
      let j ← scalar? read.reverse
      let (s, ls) ← scanBetween? c
      return (s, .scalar j :: ls)
    else some (.word (c :: read), [])
  | .text read =>
    if c = '"' then some (.between, [.string (String.ofList read.reverse)])
    else if c = '\\' then some (.escaped read, [])
    else if c.toNat < 0x20 then none
    else some (.text (c :: read), [])
  | .escaped read =>
    if c = 'u' then some (.unicode read none 4 0, [])
    else (unescape? c).map fun d => (.text (d :: read), [])
  | .unicode read high missing value => do
    let d ← Digit.hex? c
    let value := value * 16 + d
    if missing ≤ 1 then (afterUnicode read high value).map fun s => (s, [])
    else some (.unicode read high (missing - 1) value, [])
  | .second read high => if c = '\\' then some (.secondEscaped read high, []) else none
  | .secondEscaped read high =>
    if c = 'u' then some (.unicode read (some high) 4 0, []) else none

/-- The lexemes of a text, from a state on. -/
def lexemes? (s : Scan) : List Char → Option (List Lexeme)
  | [] =>
    match s with
    | .between => some []
    | .word read => (scalar? read.reverse).map fun j => [.scalar j]
    | _ => none
  | c :: cs => do
    let (s, ls) ← scan? s c
    let rest ← lexemes? s cs
    return ls ++ rest

/-! ### Values -/

/-- An array or object that is still open. -/
inductive Frame where
  /-- The items read, in reverse. -/
  | array (items : List Json)
  /-- The members read, and the name whose value comes next. -/
  | object (members : Members) (name : String)

/-- What is expected between two lexemes. -/
inductive Expect where
  | value (stack : List Frame)
  /-- The first item of an array, or its end. -/
  | firstItem (stack : List Frame)
  /-- The name of a member, or, if there is none yet, the end of the object. -/
  | name (members : Members) (stack : List Frame)
  | colon (members : Members) (name : String) (stack : List Frame)
  /-- A complete value; the array or object it belongs to goes on or ends. -/
  | more (value : Json) (stack : List Frame)

/-- A lexeme where a value is expected. -/
def expectValue? (stack : List Frame) : Lexeme → Option Expect
  | .scalar j => some (.more j stack)
  | .string s => some (.more (.string s) stack)
  | .openArray => some (.firstItem stack)
  | .openObject => some (.name [] stack)
  | _ => none

/-- One lexeme. -/
def accept? (e : Expect) (l : Lexeme) : Option Expect :=
  match e, l with
  | .value stack, l => expectValue? stack l
  | .firstItem stack, .closeArray => some (.more (.array []) stack)
  | .firstItem stack, l => expectValue? (.array [] :: stack) l
  | .name members stack, .string name => some (.colon members name stack)
  | .name [] stack, .closeObject => some (.more (.object []) stack)
  | .colon members name stack, .colon => some (.value (.object members name :: stack))
  | .more v (.array items :: stack), .comma => some (.value (.array (v :: items) :: stack))
  | .more v (.array items :: stack), .closeArray =>
    some (.more (.array (v :: items).reverse) stack)
  | .more v (.object members name :: stack), .comma => some (.name (members.put name v) stack)
  | .more v (.object members name :: stack), .closeObject =>
    some (.more (.object (members.put name v)) stack)
  | _, _ => none

/-- The value that a text writes. -/
def read? (text : String) : Option Json := do
  let ls ← lexemes? .between text.toList
  match ← ls.foldlM accept? (.value []) with
  | .more v [] => some v
  | _ => none

end VirtualTerminal.Json
