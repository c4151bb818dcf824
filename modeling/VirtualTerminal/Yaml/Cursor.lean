/-!
# Yaml — Cursor

A place in a YAML text: the characters to come, and the line and column of the next one.  A carriage
return before a line feed belongs to the same line break, and breaks read as line feeds, apart from
the two separators of Unicode, which stay as they are.
-/

namespace VirtualTerminal.Yaml

/-- A place in a text. -/
structure Cursor where
  rest : List Char
  line : Nat := 0
  column : Nat := 0
  /-- The characters before this place. -/
  index : Nat := 0
deriving Inhabited

/-- A space or a tabulator. -/
def isBlank (c : Char) : Bool := c == ' ' || c == '\t'

/-- A character that ends a line. -/
def isBreak (c : Char) : Bool :=
  c == '\n' || c == '\r' || c == '\x85' || c == '\u2028' || c == '\u2029'

/-- A blank or the end of a line. -/
def isSpace (c : Char) : Bool := isBlank c || isBreak c

/-- The text goes on with white space or ends. -/
def endsWord (cs : List Char) : Bool := cs.head?.all isSpace

/-- The character may stand in a YAML text. -/
def isAllowed (c : Char) : Bool :=
  c == '\t' || c == '\n' || c == '\r' || (' ' ≤ c && c ≤ '~') || c == '\x85' ||
    ('\u00a0' ≤ c && c ≠ '\ufeff' && c ≠ '\ufffe' && c ≠ '\uffff')

namespace Cursor

/-- The next character. -/
def peek? (c : Cursor) : Option Char := c.rest.head?

/-- The next character satisfies a test. -/
def sees (c : Cursor) (p : Char → Bool) : Bool := c.rest.head?.any p

/-- Behind so many characters of the same line. -/
def advance (c : Cursor) (n : Nat) : Cursor :=
  { c with rest := c.rest.drop n, column := c.column + n, index := c.index + n }

/-- Behind the line break that comes next. -/
def nextLine (c : Cursor) : Cursor :=
  let width := match c.rest with
    | '\r' :: '\n' :: _ => 2
    | _ => 1
  { rest := c.rest.drop width, line := c.line + 1, column := 0, index := c.index + width }

/-- How the line break that comes next reads. -/
def lineBreak (c : Cursor) : Char :=
  match c.peek? with
  | some '\u2028' => '\u2028'
  | some '\u2029' => '\u2029'
  | _ => '\n'

/-- Behind the blanks that come next. -/
def skipBlanks (c : Cursor) : Cursor := c.advance (c.rest.takeWhile isBlank).length

/-- At the end of the line. -/
def skipLine (c : Cursor) : Cursor := c.advance (c.rest.takeWhile fun d => !isBreak d).length

/-- A line that begins with this mark of three characters and white space. -/
def seesMark (c : Cursor) (mark : String) : Bool :=
  c.column == 0 && c.rest.take 3 == mark.toList && endsWord (c.rest.drop 3)

/-- A line that separates documents. -/
def seesBoundary (c : Cursor) : Bool := c.seesMark "---" || c.seesMark "..."

end Cursor

end VirtualTerminal.Yaml
