/-!
# Shell — Glob

Patterns of texts: a star stands for any text, a question mark for any character, and brackets for
one of the characters in them.
-/

namespace VirtualTerminal.Shell

/-- A part of a pattern. -/
inductive Glob where
  | character (c : Char)
  | anyCharacter
  | anyText
  /-- One of the characters of these ranges, or none of them. -/
  | oneOf (negated : Bool) (ranges : List (Char × Char))
deriving DecidableEq, Repr, Inhabited

namespace Glob

/-- The ranges that characters in brackets write. -/
def ranges : List Char → List (Char × Char)
  | a :: '-' :: b :: rest => (a, b) :: ranges rest
  | a :: rest => (a, a) :: ranges rest
  | [] => []

/-- Reads brackets behind the opening one. -/
def brackets? (cs : List Char) : Option (Glob × List Char) :=
  let (negated, cs) := match cs with
    | '!' :: rest => (true, rest)
    | cs => (false, cs)
  let body := cs.take 1 ++ (cs.drop 1).takeWhile (· ≠ ']')
  match cs.drop body.length with
  | ']' :: rest => some (.oneOf negated (ranges body), rest)
  | _ => none

/-- The pattern that characters write; those that are quoted stand for themselves. -/
def read : Nat → List (Bool × Char) → List Glob
  | 0, _ => []
  | _ + 1, [] => []
  | fuel + 1, (quoted, c) :: rest =>
    if quoted then .character c :: read fuel rest
    else if c == '*' then .anyText :: read fuel rest
    else if c == '?' then .anyCharacter :: read fuel rest
    else if c == '[' then
      match brackets? (rest.map Prod.snd) with
      | some (g, left) => g :: read fuel (rest.drop (rest.length - left.length))
      | none => .character c :: read fuel rest
    else .character c :: read fuel rest

/-- The pattern of characters without quotes. -/
def ofPlain (cs : List Char) : List Glob := read (cs.length + 1) (cs.map fun c => (false, c))

/-- The part describes the character. -/
def admits (g : Glob) (c : Char) : Bool :=
  match g with
  | .character d => c == d
  | .anyCharacter => true
  | .anyText => true
  | .oneOf negated ranges => (ranges.any fun r => r.1 ≤ c && c ≤ r.2) != negated

/-- The pattern describes the text. -/
def describes : List Glob → List Char → Bool
  | [], cs => cs.isEmpty
  | .anyText :: gs, [] => describes gs []
  | .anyText :: gs, c :: cs => describes gs (c :: cs) || describes (.anyText :: gs) cs
  | _ :: _, [] => false
  | g :: gs, c :: cs => g.admits c && describes gs cs
termination_by gs cs => (cs.length, gs.length)

/-- The lengths from zero to that of the text, in ascending order or not. -/
def lengths (descending : Bool) (cs : List Char) : List Nat :=
  let ns := List.range (cs.length + 1)
  if descending then ns.reverse else ns

/-- What is left of a text without a beginning that the pattern describes. -/
def withoutFront (longest : Bool) (gs : List Glob) (cs : List Char) : List Char :=
  match (lengths longest cs).find? fun n => describes gs (cs.take n) with
  | some n => cs.drop n
  | none => cs

/-- What is left of a text without an end that the pattern describes. -/
def withoutBack (longest : Bool) (gs : List Glob) (cs : List Char) : List Char :=
  match (lengths longest cs).find? fun n => describes gs (cs.drop (cs.length - n)) with
  | some n => cs.take (cs.length - n)
  | none => cs

end Glob

end VirtualTerminal.Shell
