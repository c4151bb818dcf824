/-!
# Shell — Syntax

The commands of a small shell language: simple commands with redirections, pipelines, lists,
conditions, loops and functions.  A word consists of pieces, which are expanded when the command is
carried out.
-/

namespace VirtualTerminal.Shell

/-- What is made of the value of a parameter. -/
inductive Treatment where
  | plain
  /-- A text stands for it while it is unset or, if wanted, empty. -/
  | fallback (orEmpty : Bool) (text : List Char)
  /-- A text stands for it unless it is unset or, if wanted, empty. -/
  | alternative (orEmpty : Bool) (text : List Char)
  /-- Its length. -/
  | length
  /-- What is left without the shortest or the longest beginning that a pattern describes. -/
  | withoutFront (longest : Bool) (pattern : List Char)
  /-- What is left without the shortest or the longest end that a pattern describes. -/
  | withoutBack (longest : Bool) (pattern : List Char)
deriving DecidableEq, Repr, Inhabited

/-- What a piece of a word stands for. -/
inductive Fragment where
  | text (cs : List Char)
  | parameter (name : String) (treatment : Treatment)
  /-- An arithmetic expression. -/
  | arithmetic (cs : List Char)
  /-- What a script writes, without the line feeds at the end. -/
  | substitution (script : List Char)
  /-- A value that is known. -/
  | value (cs : List Char)
deriving DecidableEq, Repr, Inhabited

/-- A piece of a word. -/
structure Piece where
  quoted : Bool
  fragment : Fragment
deriving DecidableEq, Repr, Inhabited

/-- A word before its expansion. -/
abbrev Word := List Piece

/-- Where a redirected descriptor goes. -/
inductive Target where
  /-- To where another descriptor goes. -/
  | descriptor (n : Nat)
  | closed
  /-- To a file that is written. -/
  | output (path : Word)
  /-- From a file that is read. -/
  | input (path : Word)
deriving DecidableEq, Repr, Inhabited

/-- A redirection of a descriptor. -/
structure Redirection where
  descriptor : Nat
  target : Target
deriving DecidableEq, Repr, Inhabited

/-- A simple command. -/
structure Simple where
  assignments : List (String × Word) := []
  words : List Word := []
  redirections : List Redirection := []
deriving DecidableEq, Repr, Inhabited

/-- A command. -/
inductive Command where
  | simple (c : Simple)
  | sequence (cs : List Command)
  /-- The second command runs if the first one succeeds. -/
  | both (a b : Command)
  /-- The second command runs if the first one fails. -/
  | either (a b : Command)
  | negated (c : Command)
  /-- The second command reads what the first one writes. -/
  | pipeline (a b : Command)
  | redirected (c : Command) (redirections : List Redirection)
  /-- The command runs in an environment of its own. -/
  | enclosed (c : Command)
  /-- The command runs beside what follows. -/
  | background (c : Command)
  | choice (condition yes no : Command)
  /-- The command of the first pattern that describes a word. -/
  | select (subject : Word) (cases : List (List Word × Command))
  /-- The body runs while the condition succeeds, or, reversed, while it fails. -/
  | loop (reversed : Bool) (condition body : Command)
  /-- The body runs for each word; without words, for each positional parameter. -/
  | each (name : String) (words : Option (List Word)) (body : Command)
  | definition (name : String) (body : Command)
deriving Inhabited

/-- The command that does nothing. -/
def Command.nothing : Command := .sequence []

/-! ### Substitutions -/

/-- The first script in a word whose output stands for it. -/
def Word.script? (w : Word) : Option (List Char) :=
  w.findSome? fun p =>
    match p.fragment with
    | .substitution script => some script
    | _ => none

/-- Puts the output of the first script in its place. -/
def Word.fill (value : List Char) : Word → Word
  | [] => []
  | p :: rest =>
    match p.fragment with
    | .substitution _ => { p with fragment := .value value } :: rest
    | _ => p :: fill value rest

/-- Puts the output of the first script among words in its place. -/
def Word.fillFirst (value : List Char) : List Word → List Word
  | [] => []
  | w :: rest =>
    if w.script?.isSome then w.fill value :: rest else w :: fillFirst value rest

namespace Simple

/-- The first script that has to run before the command. -/
def script? (c : Simple) : Option (List Char) :=
  (c.assignments.map Prod.snd ++ c.words).findSome? Word.script?

/-- Puts the output of that script in its place. -/
def fill (value : List Char) (c : Simple) : Simple :=
  if (c.assignments.map Prod.snd).any fun w => w.script?.isSome then
    let values := Word.fillFirst value (c.assignments.map Prod.snd)
    { c with assignments := (c.assignments.map Prod.fst).zip values }
  else { c with words := Word.fillFirst value c.words }

end Simple

namespace Command

/-- The first script that has to run before the command begins. -/
def script? : Command → Option (List Char)
  | .simple c => c.script?
  | .each _ (some words) _ => words.findSome? Word.script?
  | .select subject _ => subject.script?
  | _ => none

/-- Puts the output of that script in its place. -/
def fill (value : List Char) : Command → Command
  | .simple c => .simple (c.fill value)
  | .each name (some words) body => .each name (some (Word.fillFirst value words)) body
  | .select subject cases => .select (subject.fill value) cases
  | c => c

end Command

end VirtualTerminal.Shell
