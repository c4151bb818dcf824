import VirtualTerminal.Yaml.Token

/-!
# Yaml — nodes

The value that a YAML text writes.  A text holds at most one document; one without any content reads
as an empty plain scalar.
-/

namespace VirtualTerminal.Yaml

/-- A YAML value. -/
inductive Node where
  | scalar (text : String) (style : ScalarStyle) (tag : Option String)
  | sequence (items : List Node)
  | mapping (pairs : List (Node × Node))
  /-- A reference to the value that it is part of. -/
  | cycle
deriving Inhabited

namespace Node

/-- A plain scalar without any text, which stands for what is left out. -/
def empty : Node := .scalar "" .plain none

/-- The values with an anchor; of those that are still open there is no value yet. -/
abbrev Anchors := List (String × Node)

/-- The last value with this anchor. -/
def Anchors.get? (as : Anchors) (name : String) : Option Node :=
  (as.find? fun a => a.1 == name).map Prod.snd

/-- What was read, the tokens behind it, and the anchors so far. -/
abbrev Parsed (α : Type) := α × List Token × Anchors

/-- The anchor and the tag before a value. -/
structure Properties where
  anchor : Option String := none
  tag : Option String := none

/-- There is an anchor or a tag. -/
def Properties.any (p : Properties) : Bool := p.anchor.isSome || p.tag.isSome

/-- Reads the properties of a value, which come in either order, each at most once. -/
def properties : List Token → Properties × List Token
  | .anchor a :: .tag t :: rest => (⟨some a, some t⟩, rest)
  | .tag t :: .anchor a :: rest => (⟨some a, some t⟩, rest)
  | .anchor a :: rest => (⟨some a, none⟩, rest)
  | .tag t :: rest => (⟨none, some t⟩, rest)
  | rest => ({}, rest)

/-- What a value is part of. -/
inductive Context where
  | flow
  /-- A block sequence, or the whole document. -/
  | sequence
  /-- A block mapping: a sequence in it need not be indented. -/
  | mapping
deriving DecidableEq, Repr, Inhabited

/-- The tokens begin with one of these. -/
def next (ts : List Token) (these : List Token) : Bool := ts.head?.any these.contains

/-- The tokens of the next item of a flow collection, which a comma precedes unless it is the
first. -/
def nextItem? (first : Bool) (ts : List Token) : Option (List Token) :=
  if first then some ts
  else
    match ts with
    | .comma :: rest => some rest
    | _ => none

mutual

/-- A value. -/
def value? (context : Context) : Nat → List Token → Anchors → Option (Parsed Node)
  | 0, _, _ => none
  | fuel + 1, ts, as =>
    match ts with
    | .reference name :: rest => (as.get? name).map fun v => (v, rest, as)
    | ts => do
      let (p, ts) := properties ts
      match p.anchor with
      | none => content? context p fuel ts as
      | some name =>
        let (v, ts, as) ← content? context p fuel ts ((name, .cycle) :: as)
        return (v, ts, (name, v) :: as)

/-- A value behind its properties; they may be all there is. -/
def content? (context : Context) (p : Properties) :
    Nat → List Token → Anchors → Option (Parsed Node)
  | 0, _, _ => none
  | fuel + 1, ts, as =>
    let nothing := if p.any then some (.scalar "" .plain p.tag, ts, as) else none
    match ts with
    | .scalar text style :: rest => some (.scalar text style p.tag, rest, as)
    | .flowSequence :: rest => do
      let (vs, r) ← flowItems? true fuel rest as
      return (.sequence vs, r)
    | .flowMapping :: rest => do
      let (ps, r) ← flowPairs? true fuel rest as
      return (.mapping ps, r)
    | .entry :: _ =>
      if context = .mapping then do
        let (vs, r) ← items? false fuel ts as
        return (.sequence vs, r)
      else nothing
    | .blockSequence :: rest =>
      if context = .flow then nothing
      else do
        let (vs, r) ← items? true fuel rest as
        return (.sequence vs, r)
    | .blockMapping :: rest =>
      if context = .flow then nothing
      else do
        let (ps, r) ← pairs? fuel rest as
        return (.mapping ps, r)
    | _ => nothing

/-- A value, or nothing at all before certain tokens. -/
def optional? (context : Context) (ends : List Token) :
    Nat → List Token → Anchors → Option (Parsed Node)
  | 0, _, _ => none
  | fuel + 1, ts, as => if next ts ends then some (empty, ts, as) else value? context fuel ts as

/-- A pair behind the token of its key. -/
def pair? (context : Context) (ends : List Token) :
    Nat → List Token → Anchors → Option (Parsed (Node × Node))
  | 0, _, _ => none
  | fuel + 1, ts, as => do
    let (k, ts, as) ← optional? context (.value :: ends) fuel ts as
    match ts with
    | .value :: rest =>
      let (v, ts, as) ←
        optional? context (if context = .flow then ends else .value :: ends) fuel rest as
      return ((k, v), ts, as)
    | ts => return ((k, empty), ts, as)

/-- The items of a block sequence; one that is indented has an end of its own. -/
def items? (indented : Bool) : Nat → List Token → Anchors → Option (Parsed (List Node))
  | 0, _, _ => none
  | fuel + 1, ts, as =>
    match ts with
    | .entry :: rest => do
      let ends := if indented then [Token.entry, .blockEnd] else [.entry, .key, .value, .blockEnd]
      let (v, ts, as) ← optional? .sequence ends fuel rest as
      let (vs, r) ← items? indented fuel ts as
      return (v :: vs, r)
    | .blockEnd :: rest => some ([], if indented then rest else ts, as)
    | _ => if indented then none else some ([], ts, as)

/-- The pairs of a block mapping. -/
def pairs? : Nat → List Token → Anchors → Option (Parsed (List (Node × Node)))
  | 0, _, _ => none
  | fuel + 1, ts, as =>
    match ts with
    | .key :: rest => do
      let (p, ts, as) ← pair? .mapping [.key, .blockEnd] fuel rest as
      let (ps, r) ← pairs? fuel ts as
      return (p :: ps, r)
    | .blockEnd :: rest => some ([], rest, as)
    | _ => none

/-- The items of a flow sequence; an item may be a mapping of one pair. -/
def flowItems? (first : Bool) : Nat → List Token → Anchors → Option (Parsed (List Node))
  | 0, _, _ => none
  | _ + 1, .flowSequenceEnd :: rest, as => some ([], rest, as)
  | fuel + 1, ts, as => do
    match ← nextItem? first ts with
    | .flowSequenceEnd :: rest => return ([], rest, as)
    | .key :: rest =>
      let (p, ts, as) ← pair? .flow [.comma, .flowSequenceEnd] fuel rest as
      let (vs, r) ← flowItems? false fuel ts as
      return (.mapping [p] :: vs, r)
    | ts =>
      let (v, ts, as) ← value? .flow fuel ts as
      let (vs, r) ← flowItems? false fuel ts as
      return (v :: vs, r)

/-- The pairs of a flow mapping; a pair may be a key alone. -/
def flowPairs? (first : Bool) : Nat → List Token → Anchors → Option (Parsed (List (Node × Node)))
  | 0, _, _ => none
  | _ + 1, .flowMappingEnd :: rest, as => some ([], rest, as)
  | fuel + 1, ts, as => do
    match ← nextItem? first ts with
    | .flowMappingEnd :: rest => return ([], rest, as)
    | .key :: rest =>
      let (p, ts, as) ← pair? .flow [.comma, .flowMappingEnd] fuel rest as
      let (ps, r) ← flowPairs? false fuel ts as
      return (p :: ps, r)
    | ts =>
      let (k, ts, as) ← value? .flow fuel ts as
      let (ps, r) ← flowPairs? false fuel ts as
      return ((k, empty) :: ps, r)

end

/-- The tokens behind the directives of a document. -/
def skipDirectives : List Token → List Token
  | .directive :: rest => skipDirectives rest
  | ts => ts

/-- The tokens behind the marks that end a document. -/
def skipEnds : List Token → List Token
  | .documentEnd :: rest => skipEnds rest
  | ts => ts

/-- The content of a document and the end of the text. -/
def document? (ts : List Token) : Option Node := do
  let (v, ts, _) ←
    if ts.isEmpty || next ts [.directive, .documentStart, .documentEnd] then
      some (empty, ts, ([] : Anchors))
    else value? .sequence (4 * ts.length + 4) ts []
  if (skipEnds ts).isEmpty then some v else none

/-- The value that a text writes. -/
def ofText? (text : String) : Option Node := do
  let ts ← Token.ofText? text
  match ts with
  | .directive :: rest =>
    match skipDirectives rest with
    | .documentStart :: rest => document? rest
    | _ => none
  | .documentStart :: rest => document? rest
  | .documentEnd :: _ => none
  | ts => document? ts

end Node

end VirtualTerminal.Yaml
