import VirtualTerminal.Text.Digit

/-!
# Shell — Arithmetic

The value of an arithmetic expression: decimal integers, variables, parentheses, and the operators
of the C language that neither assign nor shift.  An unset variable counts as zero.
-/

namespace VirtualTerminal.Shell.Arithmetic

/-- The binary operators, each with how tightly it binds, longest texts first. -/
def operators : List (String × Nat) :=
  [("||", 1), ("&&", 2), ("==", 3), ("!=", 3), ("<=", 4), (">=", 4), ("<", 4), (">", 4),
   ("+", 5), ("-", 5), ("*", 6), ("/", 6), ("%", 6)]

/-- A truth value as a number. -/
def truth (b : Bool) : Int := if b then 1 else 0

/-- The value of an operation; a division by zero has none. -/
def combine? (op : String) (a b : Int) : Option Int :=
  match op with
  | "||" => some (truth (a ≠ 0 || b ≠ 0))
  | "&&" => some (truth (a ≠ 0 && b ≠ 0))
  | "==" => some (truth (a = b))
  | "!=" => some (truth (a ≠ b))
  | "<=" => some (truth (a ≤ b))
  | ">=" => some (truth (b ≤ a))
  | "<" => some (truth (a < b))
  | ">" => some (truth (b < a))
  | "+" => some (a + b)
  | "-" => some (a - b)
  | "*" => some (a * b)
  | "/" => if b = 0 then none else some (a.tdiv b)
  | "%" => if b = 0 then none else some (a.tmod b)
  | _ => none

/-- Without the blanks at the beginning. -/
def skip (cs : List Char) : List Char := cs.dropWhile fun c => c == ' ' || c == '\t' || c == '\n'

/-- The binary operator that comes next. -/
def operator? (cs : List Char) : Option (String × Nat) :=
  operators.find? fun op => op.1.toList.isPrefixOf cs

mutual

/-- Reads an operand. -/
def operand? (value : String → Int) : Nat → List Char → Option (Int × List Char)
  | 0, _ => none
  | fuel + 1, cs =>
    match skip cs with
    | '-' :: rest => (operand? value fuel rest).map fun (n, rest) => (-n, rest)
    | '+' :: rest => operand? value fuel rest
    | '!' :: rest => (operand? value fuel rest).map fun (n, rest) => (truth (n = 0), rest)
    | '(' :: rest => do
      let (n, rest) ← expression? value 1 fuel rest
      match skip rest with
      | ')' :: rest => some (n, rest)
      | _ => none
    | '$' :: rest => operand? value fuel rest
    | c :: rest =>
      if c.isDigit then
        let ds := Digit.leading 10 (c :: rest)
        some (Digit.leadingNumber 10 ds, (c :: rest).drop ds.length)
      else
        let name := (c :: rest).takeWhile fun c => c.isAlphanum || c == '_'
        if name.isEmpty then none
        else some (value (String.ofList name), (c :: rest).drop name.length)
    | [] => none

/-- Reads operands joined by operators that bind at least so tightly. -/
def expression? (value : String → Int) (level : Nat) :
    Nat → List Char → Option (Int × List Char)
  | 0, _ => none
  | fuel + 1, cs => do
    let (a, rest) ← operand? value fuel cs
    more? value level fuel a rest

/-- Goes on behind the first operand. -/
def more? (value : String → Int) (level : Nat) :
    Nat → Int → List Char → Option (Int × List Char)
  | 0, _, _ => none
  | fuel + 1, a, cs =>
    let cs := skip cs
    match operator? cs with
    | none => some (a, cs)
    | some (op, binding) =>
      if binding < level then some (a, cs)
      else do
        let (b, rest) ← expression? value (binding + 1) fuel (cs.drop op.length)
        more? value level fuel (← combine? op a b) rest

end

/-- The value of an expression; the empty one counts as zero. -/
def evaluate? (value : String → Int) (cs : List Char) : Option Int :=
  if (skip cs).isEmpty then some 0
  else
    match expression? value 1 (3 * cs.length + 3) cs with
    | some (n, []) => some n
    | _ => none

end VirtualTerminal.Shell.Arithmetic
