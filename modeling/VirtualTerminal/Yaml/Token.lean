import VirtualTerminal.Yaml.Scalar

/-!
# Yaml — tokens

Cutting a YAML text into tokens.  Indentation opens and closes block collections, which become
tokens of their own.  That a scalar or collection is a key shows only at the colon behind it, so the
place of a possible key is remembered, and the token of the key is put in there afterwards.
-/

namespace VirtualTerminal.Yaml

/-- The parts of a YAML text. -/
inductive Token where
  | directive
  | documentStart
  | documentEnd
  | blockSequence
  | blockMapping
  | blockEnd
  | flowSequence
  | flowSequenceEnd
  | flowMapping
  | flowMappingEnd
  /-- The hyphen before an item. -/
  | entry
  /-- The comma between items. -/
  | comma
  | key
  | value
  | anchor (name : String)
  | reference (name : String)
  | tag (text : String)
  | scalar (text : String) (style : ScalarStyle)
deriving DecidableEq, Repr, Inhabited

/-- The place of a scalar or collection that may turn out to be a key. -/
structure PossibleKey where
  /-- The number of its first token. -/
  place : Nat
  line : Nat
  column : Nat
  index : Nat
  /-- It stands where only a key may stand. -/
  required : Bool
deriving DecidableEq, Repr, Inhabited

/-- What is known while tokens are cut. -/
structure Scanner where
  cursor : Cursor
  /-- The columns of the open block collections, innermost first. -/
  columns : List Nat := []
  /-- The possible keys of the open flow collections, innermost first. -/
  outerKeys : List (Option PossibleKey) := []
  /-- The possible key at this level. -/
  possible : Option PossibleKey := none
  /-- A key may begin here. -/
  keyAllowed : Bool := true
  tokens : Array Token := #[]
deriving Inhabited

namespace Scanner

/-- Inside a flow collection. -/
def inFlow (s : Scanner) : Bool := !s.outerKeys.isEmpty

/-- The column of the innermost block collection, or -1. -/
def indent (s : Scanner) : Int :=
  match s.columns with
  | [] => -1
  | c :: _ => c

/-- Appends a token. -/
def emit (s : Scanner) (t : Token) : Scanner := { s with tokens := s.tokens.push t }

/-- Puts a token before the one with this number. -/
def insert (s : Scanner) (place : Nat) (t : Token) : Scanner :=
  { s with tokens := s.tokens.extract 0 place ++ #[t] ++ s.tokens.extract place s.tokens.size }

/-- Opens a block collection at a column, unless one is open there or further in. -/
def roll (s : Scanner) (column place : Nat) (t : Token) : Scanner :=
  if !s.inFlow && s.indent < column then
    ({ s with columns := column :: s.columns }).insert place t
  else s

/-- Closes the block collections that are indented by more than a column. -/
def unroll (s : Scanner) (column : Int) : Scanner :=
  if s.inFlow then s
  else
    let closed := (s.columns.takeWhile fun (c : Nat) => column < c).length
    { s with
      columns := s.columns.drop closed
      tokens := s.tokens ++ (List.replicate closed Token.blockEnd).toArray }

/-- Gives up the possible key; one that is required must not be given up. -/
def dropKey? (s : Scanner) : Option Scanner :=
  if s.possible.any PossibleKey.required then none else some { s with possible := none }

/-- A key ends on the line where it begins, and within 1024 characters. -/
def isStale (s : Scanner) (k : PossibleKey) : Bool :=
  k.line < s.cursor.line || k.index + 1024 < s.cursor.index

/-- Gives up the possible keys that are too far back. -/
def dropStale? (s : Scanner) : Option Scanner := do
  let keep (k : Option PossibleKey) : Option (Option PossibleKey) :=
    match k with
    | none => some none
    | some k => if s.isStale k then (if k.required then none else some none) else some (some k)
  let possible ← keep s.possible
  let outerKeys ← s.outerKeys.mapM keep
  return { s with possible, outerKeys }

/-- Remembers that a key may begin here. -/
def saveKey? (s : Scanner) : Option Scanner :=
  if s.keyAllowed then do
    let s ← s.dropKey?
    let c := s.cursor
    let required := !s.inFlow && s.indent == c.column
    return { s with possible := some ⟨s.tokens.size, c.line, c.column, c.index, required⟩ }
  else some s

/-- Goes on at a place. -/
def goTo (s : Scanner) (c : Cursor) : Scanner := { s with cursor := c }

/-- Goes on behind so many characters. -/
def advance (s : Scanner) (n : Nat) : Scanner := s.goTo (s.cursor.advance n)

/-- Skips white space and comments.  Outside of flow collections a key may begin on every line. -/
def skipSpace : Nat → Scanner → Scanner
  | 0, s => s
  | fuel + 1, s =>
    match s.cursor.peek? with
    | some ' ' => skipSpace fuel (s.advance 1)
    | some '\t' => if s.inFlow || !s.keyAllowed then skipSpace fuel (s.advance 1) else s
    | some '#' => skipSpace fuel (s.goTo s.cursor.skipLine)
    | some c =>
      if isBreak c then
        let s := s.goTo s.cursor.nextLine
        skipSpace fuel (if s.inFlow then s else { s with keyAllowed := true })
      else s
    | none => s

/-! ### Single tokens -/

/-- The end of everything open. -/
def closeAll? (s : Scanner) : Option Scanner := do
  let s ← (s.unroll (-1)).dropKey?
  return { s with keyAllowed := false }

/-- A mark between documents. -/
def boundary? (s : Scanner) (t : Token) : Option Scanner := do
  let s ← s.closeAll?
  return (s.emit t).advance 3

/-- A directive: the version, or the handle of a tag. -/
def directive? (s : Scanner) : Option Scanner := do
  let s ← s.closeAll?
  let line := s.cursor.rest.takeWhile fun c => !isBreak c
  let words := ((String.ofList line).splitOn " ").filter fun w => w ≠ ""
  let words := words.takeWhile fun w => w.toList.head? ≠ some '#'
  let s := (s.goTo s.cursor.skipLine).emit .directive
  match words with
  | ["%YAML", "1.1"] => some s
  | ["%YAML", "1.2"] => some s
  | ["%TAG", _, _] => some s
  | _ => none

/-- The beginning of a flow collection. -/
def openFlow? (s : Scanner) (t : Token) : Option Scanner := do
  let s ← s.saveKey?
  return ({ s with
    outerKeys := s.possible :: s.outerKeys, possible := none, keyAllowed := true }.emit t).advance 1

/-- The end of a flow collection. -/
def closeFlow? (s : Scanner) (t : Token) : Option Scanner := do
  let s ← s.dropKey?
  let s := match s.outerKeys with
    | [] => s
    | k :: rest => { s with possible := k, outerKeys := rest }
  return ({ s with keyAllowed := false }.emit t).advance 1

/-- The comma between items. -/
def comma? (s : Scanner) : Option Scanner := do
  let s ← s.dropKey?
  return ({ s with keyAllowed := true }.emit .comma).advance 1

/-- The hyphen before an item of a block sequence. -/
def entry? (s : Scanner) : Option Scanner :=
  if !s.inFlow && !s.keyAllowed then none
  else do
    let s ← (s.roll s.cursor.column s.tokens.size .blockSequence).dropKey?
    return ({ s with keyAllowed := true }.emit .entry).advance 1

/-- The question mark before a key. -/
def explicitKey? (s : Scanner) : Option Scanner :=
  if !s.inFlow && !s.keyAllowed then none
  else do
    let s ← (s.roll s.cursor.column s.tokens.size .blockMapping).dropKey?
    return ({ s with keyAllowed := !s.inFlow }.emit .key).advance 1

/-- The colon behind a key. -/
def value? (s : Scanner) : Option Scanner :=
  match s.possible with
  | some k =>
    let s := (s.insert k.place .key).roll k.column k.place .blockMapping
    some (({ s with possible := none, keyAllowed := false }.emit .value).advance 1)
  | none =>
    if !s.inFlow && !s.keyAllowed then none
    else
      let s := s.roll s.cursor.column s.tokens.size .blockMapping
      some (({ s with keyAllowed := !s.inFlow }.emit .value).advance 1)

/-- A character of the name of an anchor. -/
def isNameChar (c : Char) : Bool := c.isAlphanum || c == '_' || c == '-'

/-- The name of an anchor behind its indicator. -/
def anchor? (s : Scanner) (token : String → Token) : Option Scanner := do
  let s ← s.saveKey?
  let name := (s.cursor.rest.drop 1).takeWhile isNameChar
  let s := { s with keyAllowed := false }.advance (name.length + 1)
  let ends := s.cursor.rest.head?.all fun c => isSpace c || "?:,]\x7d%@\x60".toList.contains c
  if name.isEmpty || !ends then none else some (s.emit (token (String.ofList name)))

/-- A character of a tag. -/
def isTagChar (c : Char) : Bool :=
  c.isAlphanum || "-_;/?:@&=+$.%!~*'()".toList.contains c

/-- A tag: a name in angle brackets, or a handle and a name. -/
def tag? (s : Scanner) : Option Scanner := do
  let s ← s.saveKey?
  let s := { s with keyAllowed := false }
  let (text, width) ←
    match s.cursor.rest.drop 1 with
    | '<' :: rest =>
      let uri := rest.takeWhile fun c => isTagChar c || c == ',' || c == '[' || c == ']'
      if uri.isEmpty || (rest.drop uri.length).head? ≠ some '>' then none
      else some (uri, uri.length + 3)
    | '!' :: rest =>
      let name := rest.takeWhile isTagChar
      if name.isEmpty then none
      else some ("tag:yaml.org,2002:".toList ++ name, name.length + 2)
    | rest =>
      let name := rest.takeWhile isTagChar
      some ('!' :: name, name.length + 1)
  let s := s.advance width
  if endsWord s.cursor.rest || (s.inFlow && s.cursor.sees (· == ',')) then
    some (s.emit (.tag (String.ofList text)))
  else none

/-- A scalar in a block. -/
def blockScalar? (s : Scanner) (style : ScalarStyle) : Option Scanner := do
  let s ← s.dropKey?
  let (text, c) ← block? (style == .literal) s.indent (s.cursor.advance 1)
  return { s with keyAllowed := true, cursor := c }.emit (.scalar (String.ofList text) style)

/-- A scalar in quotes. -/
def quotedScalar? (s : Scanner) (double : Bool) : Option Scanner := do
  let s ← s.saveKey?
  let (text, c) ← quoted? double (s.cursor.rest.length + 1) (s.cursor.advance 1)
  return { s with keyAllowed := false, cursor := c }.emit (.scalar (String.ofList text) .quoted)

/-- A plain scalar. -/
def plainScalar? (s : Scanner) : Option Scanner := do
  let s ← s.saveKey?
  let p ← plain? s.inFlow (s.indent + 1) (s.cursor.rest.length + 1) s.cursor
  return { s with keyAllowed := p.broken, cursor := p.cursor }.emit
    (.scalar (String.ofList p.text) .plain)

/-- A character that has a meaning of its own at the beginning of a token. -/
def isIndicator (c : Char) : Bool := "-?:,[]\x7b\x7d#&*!|>'\"%@\x60".toList.contains c

/-- The token that begins with a character. -/
def token? (s : Scanner) (c : Char) (rest : List Char) : Option Scanner :=
  let ends := endsWord rest
  if s.cursor.column == 0 && c == '%' then s.directive?
  else if s.cursor.seesMark "---" then s.boundary? .documentStart
  else if s.cursor.seesMark "..." then s.boundary? .documentEnd
  else if c == '[' then s.openFlow? .flowSequence
  else if c == '\x7b' then s.openFlow? .flowMapping
  else if c == ']' then s.closeFlow? .flowSequenceEnd
  else if c == '\x7d' then s.closeFlow? .flowMappingEnd
  else if c == ',' then s.comma?
  else if c == '-' && ends then s.entry?
  else if c == '?' && (s.inFlow || ends) then s.explicitKey?
  else if c == ':' && (s.inFlow || ends) then s.value?
  else if c == '*' then s.anchor? .reference
  else if c == '&' then s.anchor? .anchor
  else if c == '!' then s.tag?
  else if c == '|' && !s.inFlow then s.blockScalar? .literal
  else if c == '>' && !s.inFlow then s.blockScalar? .folded
  else if c == '\'' then s.quotedScalar? false
  else if c == '"' then s.quotedScalar? true
  else if !isSpace c && !isIndicator c then s.plainScalar?
  else if c == '-' && !rest.head?.any isBlank then s.plainScalar?
  else if !s.inFlow && (c == '?' || c == ':') then s.plainScalar?
  else none

/-- Cuts the text from here on. -/
def run? : Nat → Scanner → Option Scanner
  | 0, _ => none
  | fuel + 1, s =>
    let s := skipSpace (s.cursor.rest.length + 1) s
    match s.cursor.rest with
    | [] => (s.dropStale?).bind closeAll?
    | c :: rest => do
      let s ← s.dropStale?
      let s ← (s.unroll s.cursor.column).token? c rest
      run? fuel s

end Scanner

/-- The tokens of a text. -/
def Token.ofText? (text : String) : Option (List Token) :=
  let cs := match text.toList with
    | '\ufeff' :: cs => cs
    | cs => cs
  if cs.all isAllowed then
    (Scanner.run? (cs.length + 2) { cursor := { rest := cs } }).map fun s => s.tokens.toList
  else none

end VirtualTerminal.Yaml
