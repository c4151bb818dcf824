import VirtualTerminal.Text.Digit
import VirtualTerminal.Yaml.Cursor

/-!
# Yaml — scalars

The texts of scalars in their five styles.  In plain and quoted scalars a single line break reads as
a space, and of several breaks the first is dropped; a block scalar keeps its breaks or folds them.
-/

namespace VirtualTerminal.Yaml

/-- The styles of scalars. -/
inductive ScalarStyle where
  | plain
  | quoted
  /-- A block that keeps its line breaks. -/
  | literal
  /-- A block that folds its line breaks. -/
  | folded
deriving DecidableEq, Repr, Inhabited

/-! ### Gaps -/

/-- White space between two words. -/
structure Gap where
  blanks : List Char := []
  /-- The first line break. -/
  first : Option Char := none
  /-- The other line breaks. -/
  others : List Char := []
  /-- There was a line break, or an escaped one. -/
  broken : Bool := false

namespace Gap

/-- How a gap reads. -/
def text (g : Gap) : List Char :=
  if g.broken then
    match g.first with
    | none => g.others
    | some '\n' => if g.others.isEmpty then [' '] else g.others
    | some c => c :: g.others
  else g.blanks

/-- Reads the gap at a place.  A tabulator must not stand in the indentation of a plain scalar. -/
def read? (indent : Int) : Nat → Cursor → Gap → Option (Gap × Cursor)
  | 0, c, g => some (g, c)
  | fuel + 1, c, g =>
    match c.peek? with
    | none => some (g, c)
    | some d =>
      if isBlank d then
        if g.broken then
          if d == '\t' && c.column < indent then none else read? indent fuel (c.advance 1) g
        else read? indent fuel (c.advance 1) { g with blanks := g.blanks ++ [d] }
      else if isBreak d then
        let g :=
          if g.broken then { g with others := g.others ++ [c.lineBreak] }
          else { g with first := some c.lineBreak, broken := true }
        read? indent fuel c.nextLine g
      else some (g, c)

end Gap

/-! ### Plain scalars -/

/-- A character that has a meaning between the items of a flow collection. -/
def isFlowIndicator (c : Char) : Bool :=
  c == ',' || c == '[' || c == ']' || c == '\x7b' || c == '\x7d'

/-- The word of a plain scalar that comes next; in a flow collection a colon must not touch an
indicator. -/
def plainWord? (flow : Bool) : List Char → Option (List Char)
  | [] => some []
  | c :: rest =>
    if isSpace c then some []
    else if c == ':' then
      if flow && rest.head?.any (fun d => isFlowIndicator d || d == '?') then none
      else if endsWord rest then some []
      else (plainWord? flow rest).map (c :: ·)
    else if flow && isFlowIndicator c then some []
    else (plainWord? flow rest).map (c :: ·)

/-- A scalar's text, the place behind it, and whether a line break lies between. -/
structure PlainText where
  text : List Char
  cursor : Cursor
  broken : Bool

/-- Reads a plain scalar whose further lines are indented by at least so much. -/
def plain? (flow : Bool) (indent : Int) : Nat → Cursor → Option PlainText
  | 0, c => some ⟨[], c, false⟩
  | fuel + 1, c =>
    if c.seesBoundary || c.sees (· == '#') then some ⟨[], c, false⟩
    else do
      let word ← plainWord? flow c.rest
      let c := c.advance word.length
      if !c.sees isSpace then return ⟨word, c, false⟩
      else
        let (gap, c) ← Gap.read? indent c.rest.length c {}
        if !flow && c.column < indent then return ⟨word, c, gap.broken⟩
        else
          let more ← plain? flow indent fuel c
          if more.text.isEmpty then return ⟨word, more.cursor, gap.broken⟩
          else return { more with text := word ++ gap.text ++ more.text }

/-! ### Quoted scalars -/

/-- Reads so many hexadecimal digits. -/
def hexValue? (n : Nat) (cs : List Char) : Option Nat := do
  let ds ← (cs.take n).mapM Digit.hex?
  if ds.length = n then return Digit.number 16 ds else none

/-- The character with a number, which is no surrogate. -/
def scalarValue? (n : Nat) : Option Char :=
  if n < 0xd800 ∨ (0xdfff < n ∧ n < 0x110000) then some (Char.ofNat n) else none

/-- The character of an escape behind its backslash, and the characters that it takes. -/
def escape? : List Char → Option (Char × Nat)
  | [] => none
  | c :: rest =>
    match c with
    | '0' => some ('\x00', 1)
    | 'a' => some ('\x07', 1)
    | 'b' => some ('\x08', 1)
    | 't' => some ('\t', 1)
    | '\t' => some ('\t', 1)
    | 'n' => some ('\n', 1)
    | 'v' => some ('\x0b', 1)
    | 'f' => some ('\x0c', 1)
    | 'r' => some ('\r', 1)
    | 'e' => some ('\x1b', 1)
    | ' ' => some (' ', 1)
    | '"' => some ('"', 1)
    | '/' => some ('/', 1)
    | '\\' => some ('\\', 1)
    | 'N' => some ('\x85', 1)
    | '_' => some ('\u00a0', 1)
    | 'L' => some ('\u2028', 1)
    | 'P' => some ('\u2029', 1)
    | 'x' => ((hexValue? 2 rest).bind scalarValue?).map fun d => (d, 3)
    | 'u' => ((hexValue? 4 rest).bind scalarValue?).map fun d => (d, 5)
    | 'U' => ((hexValue? 8 rest).bind scalarValue?).map fun d => (d, 9)
    | _ => none

/-- Reads a quoted scalar behind its opening quote.  In single quotes a quote is written twice; in
double quotes a backslash escapes a character or the end of a line. -/
def quoted? (double : Bool) : Nat → Cursor → Option (List Char × Cursor)
  | 0, _ => none
  | fuel + 1, c =>
    if c.seesBoundary then none
    else
      match c.rest with
      | [] => none
      | d :: rest =>
        if isSpace d then do
          let (gap, c) ← Gap.read? (-1) c.rest.length c {}
          let (text, c) ← quoted? double fuel c
          return (gap.text ++ text, c)
        else if !double && d == '\'' then
          if rest.head? == some '\'' then do
            let (text, c) ← quoted? double fuel (c.advance 2)
            return ('\'' :: text, c)
          else some ([], c.advance 1)
        else if double && d == '"' then some ([], c.advance 1)
        else if double && d == '\\' then
          if rest.head?.any isBreak then do
            let c := (c.advance 1).nextLine
            let (gap, c) ← Gap.read? (-1) c.rest.length c { broken := true }
            let (text, c) ← quoted? double fuel c
            return (gap.text ++ text, c)
          else do
            let (e, width) ← escape? rest
            let (text, c) ← quoted? double fuel (c.advance (width + 1))
            return (e :: text, c)
        else do
          let (text, c) ← quoted? double fuel (c.advance 1)
          return (d :: text, c)

/-! ### Block scalars -/

/-- What becomes of the line breaks at the end of a block. -/
inductive Chomping where
  /-- All are dropped. -/
  | strip
  /-- The first is kept. -/
  | clip
  /-- All are kept. -/
  | keep
deriving DecidableEq, Repr, Inhabited

/-- The header of a block: how it ends, and its indentation if that is given. -/
def blockHeader? (cs : List Char) : Option (Chomping × Option Nat × Nat) :=
  let chomping? : Char → Option Chomping
    | '+' => some .keep
    | '-' => some .strip
    | _ => none
  let digit? (c : Char) : Option (Option Nat) :=
    if c == '0' then some none
    else if c.isDigit then some (some (c.toNat - 48)) else none
  match cs with
  | [] => some (.clip, none, 0)
  | c :: rest =>
    match chomping? c with
    | some ch =>
      match rest.head?.bind digit? with
      | some none => none
      | some (some n) => some (ch, some n, 2)
      | none => some (ch, none, 1)
    | none =>
      match digit? c with
      | some none => none
      | some (some n) =>
        match rest.head?.bind chomping? with
        | some ch => some (ch, some n, 2)
        | none => some (.clip, some n, 1)
      | none => some (.clip, none, 0)

/-- Reads empty lines and the indentation of the next one, which is found out if it is not known. -/
def blockBreaks? (indent : Option Nat) :
    Nat → Cursor → Nat → List Char → Option (List Char × Nat × Cursor)
  | 0, c, widest, breaks => some (breaks, widest, c)
  | fuel + 1, c, widest, breaks =>
    let isIndent := indent.all fun n => c.column < n
    if isIndent && c.sees (· == ' ') then blockBreaks? indent fuel (c.advance 1) widest breaks
    else
      let widest := max widest c.column
      if isIndent && c.sees (· == '\t') then none
      else if c.sees isBreak then
        blockBreaks? indent fuel c.nextLine widest (breaks ++ [c.lineBreak])
      else some (breaks, widest, c)

/-- The lines of a block behind its header: how they read, the last line break, and the breaks
behind it. -/
def blockLines? (literal : Bool) (indent : Nat) : Nat → Cursor → List Char → List Char → Bool →
    Option (List Char × List Char × List Char × Cursor)
  | 0, c, first, others, _ => some ([], first, others, c)
  | fuel + 1, c, first, others, blankBefore =>
    if c.column ≠ indent || c.rest.isEmpty then some ([], first, others, c)
    else
      let blank := c.sees isBlank
      let join :=
        if !literal && first == ['\n'] && !blankBefore && !blank then
          if others.isEmpty then [' '] else others
        else first ++ others
      let line := c.rest.takeWhile fun d => !isBreak d
      let c := c.advance line.length
      do
        let (last, c) := if c.sees isBreak then ([c.lineBreak], c.nextLine) else ([], c)
        let (breaks, _, c) ← blockBreaks? (some indent) (c.rest.length + 1) c 0 []
        let (text, last, breaks, c) ← blockLines? literal indent fuel c last breaks blank
        return (join ++ line ++ text, last, breaks, c)

/-- Reads a block scalar behind its indicator, inside a collection of this indentation. -/
def block? (literal : Bool) (outer : Int) (c : Cursor) : Option (List Char × Cursor) := do
  let (chomping, given, width) ← blockHeader? c.rest
  let c := (c.advance width).skipBlanks
  let c := if c.sees (· == '#') then c.skipLine else c
  if !c.rest.isEmpty && !c.sees isBreak then none
  else
    let c := if c.rest.isEmpty then c else c.nextLine
    let known := given.map fun n => if 0 ≤ outer then outer.toNat + n else n
    let (breaks, widest, c) ← blockBreaks? known (c.rest.length + 1) c 0 []
    let indent := known.getD (max widest (max (outer + 1).toNat 1))
    let (text, last, breaks, c) ← blockLines? literal indent (c.rest.length + 1) c [] breaks false
    let ending := match chomping with
      | .strip => []
      | .clip => last
      | .keep => last ++ breaks
    return (text ++ ending, c)

end VirtualTerminal.Yaml
