import VirtualTerminal.Shell.Arithmetic
import VirtualTerminal.Shell.Glob
import VirtualTerminal.Shell.Syntax

/-!
# Shell — Expansion

From words to arguments.  The value of a parameter outside of quotes is split at white space, and may
vanish; inside quotes it stays one piece, apart from the list of all positional parameters, which
makes an argument of each.
-/

namespace VirtualTerminal.Shell

/-- What parameters stand for. -/
structure Scope where
  bindings : List (String × String) := []
  /-- The variables that programs get. -/
  exported : List String := []
  /-- The name of the script. -/
  zero : String := "sh"
  positional : List String := []
  /-- The status of the last command. -/
  status : Nat := 0
  processId : Nat := 0
  /-- The number of the last command in the background. -/
  jobId : Option Nat := none
deriving DecidableEq, Repr, Inhabited

namespace Scope

/-- The value of a variable. -/
def get? (s : Scope) (name : String) : Option String :=
  (s.bindings.find? fun v => v.1 == name).map Prod.snd

/-- Sets a variable. -/
def set (s : Scope) (name value : String) : Scope :=
  { s with bindings := (name, value) :: s.bindings.filter fun v => v.1 != name }

/-- Removes a variable. -/
def unset (s : Scope) (name : String) : Scope :=
  { s with bindings := s.bindings.filter fun v => v.1 != name }

/-- The value of a parameter, other than the list of positional ones. -/
def parameter? (s : Scope) (name : String) : Option String :=
  match name with
  | "?" => some (toString s.status)
  | "$" => some (toString s.processId)
  | "#" => some (toString s.positional.length)
  | "!" => s.jobId.map toString
  | "*" => some (" ".intercalate s.positional)
  | "@" => some (" ".intercalate s.positional)
  | name =>
    match name.toList.head?.map Char.isDigit, name.toNat? with
    | some true, some 0 => some s.zero
    | some true, some n => s.positional[n - 1]?
    | _, _ => s.get? name

/-- The number that a variable holds. -/
def number (s : Scope) (name : String) : Int :=
  ((s.get? name).bind String.toInt?).getD 0

/-- Gives variables to programs. -/
def share (s : Scope) (names : List String) : Scope :=
  { s with exported := names ++ s.exported.filter fun n => !names.contains n }

/-- Sets a variable back to what it was before. -/
def setBack (before s : Scope) (name : String) : Scope :=
  match before.get? name with
  | some value => s.set name value
  | none => s.unset name

/-- What a program gets to see. -/
def environment (s : Scope) : Scope :=
  { s with bindings := s.bindings.filter fun v => s.exported.contains v.1 }

/-- The value of a parameter after its treatment. -/
def treat (value : Option (List Char)) : Treatment → List Char
  | .plain => value.getD []
  | .fallback orEmpty text =>
    match value with
    | none => text
    | some cs => if orEmpty && cs.isEmpty then text else cs
  | .alternative orEmpty text =>
    match value with
    | none => []
    | some cs => if orEmpty && cs.isEmpty then [] else text
  | .length => (toString (value.getD []).length).toList
  | .withoutFront longest pattern => Glob.withoutFront longest (Glob.ofPlain pattern) (value.getD [])
  | .withoutBack longest pattern => Glob.withoutBack longest (Glob.ofPlain pattern) (value.getD [])

/-- The text that a fragment stands for. -/
def value? (s : Scope) : Fragment → Option (List Char)
  | .text cs => some cs
  | .parameter name treatment => some (treat ((s.parameter? name).map String.toList) treatment)
  | .arithmetic cs =>
    (Arithmetic.evaluate? s.number cs).map fun n => (toString n).toList
  | .substitution _ => none
  | .value cs => some cs

/-- A character at which values are split. -/
def isSeparator (c : Char) : Bool := c == ' ' || c == '\t' || c == '\n'

/-- Arguments that are being put together. -/
structure Fields where
  /-- The complete arguments. -/
  done : List (List Char) := []
  /-- The argument that may still grow. -/
  current : Option (List Char) := none

namespace Fields

/-- Adds to the current argument, which exists from now on. -/
def add (f : Fields) (cs : List Char) : Fields :=
  { f with current := some (f.current.getD [] ++ cs) }

/-- Ends the current argument. -/
def cut (f : Fields) : Fields :=
  match f.current with
  | some cs => { done := f.done ++ [cs], current := none }
  | none => f

/-- Adds a value that is split at white space. -/
def addSplit (f : Fields) (cs : List Char) : Fields :=
  cs.foldl (fun f c => if isSeparator c then f.cut else f.add [c]) f

/-- Adds one argument after another. -/
def addEach (f : Fields) : List String → Fields
  | [] => f
  | [a] => f.add a.toList
  | a :: rest => addEach (f.add a.toList).cut rest

end Fields

/-- Expands one piece. -/
def piece? (s : Scope) (f : Fields) (p : Piece) : Option Fields :=
  match p with
  | ⟨true, .parameter "@" .plain⟩ => some (f.addEach s.positional)
  | ⟨true, fragment⟩ => (s.value? fragment).map f.add
  | ⟨false, .text cs⟩ => some (f.add cs)
  | ⟨false, fragment⟩ => (s.value? fragment).map f.addSplit

/-- A word that is nothing but the list of positional parameters in quotes. -/
def isEmptyList (s : Scope) (w : Word) : Bool :=
  s.positional.isEmpty && w.any (fun p => p == ⟨true, .parameter "@" .plain⟩) &&
    w.all fun p => p == ⟨true, .parameter "@" .plain⟩ || p == ⟨true, .text []⟩

/-- The arguments that a word becomes. -/
def fields? (s : Scope) (w : Word) : Option (List String) :=
  if s.isEmptyList w then some []
  else (w.foldlM s.piece? {}).map fun f => f.cut.done.map String.ofList

/-- The arguments that words become. -/
def arguments? (s : Scope) (ws : List Word) : Option (List String) :=
  (ws.mapM s.fields?).map List.flatten

/-- The text that a word becomes where it is not split. -/
def text? (s : Scope) (w : Word) : Option String :=
  (w.mapM fun p => s.value? p.fragment).map fun css => String.ofList css.flatten

/-- The pattern that a word becomes. -/
def pattern? (s : Scope) (w : Word) : Option (List Glob) :=
  (w.mapM fun p => (s.value? p.fragment).map fun cs => cs.map fun c => (p.quoted, c)).map
    fun css => Glob.read (css.flatten.length + 1) css.flatten

/-- Sets variables, each seeing those before it. -/
def assign? (s : Scope) : List (String × Word) → Option Scope
  | [] => some s
  | (name, w) :: rest => do
    let value ← s.text? w
    assign? (s.set name value) rest

end Scope

end VirtualTerminal.Shell
