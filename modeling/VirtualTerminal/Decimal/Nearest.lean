import VirtualTerminal.Text.Digit

/-!
# Decimal — the nearest double

Reading a decimal numeral as the double nearest to it.  A numeral has digits before or behind the
point, and may have a sign and an exponent.
-/

namespace VirtualTerminal.Decimal

/-- A numeral: its digits as an integer, and the power of ten that scales it. -/
structure Numeral where
  negative : Bool
  significand : Nat
  exponent : Int
deriving DecidableEq, Repr, Inhabited

namespace Numeral

/-- A sign and what follows it. -/
def splitSign : List Char → Bool × List Char
  | '-' :: rest => (true, rest)
  | '+' :: rest => (false, rest)
  | rest => (false, rest)

/-- An exponent behind its letter, to the end of the text. -/
def exponent? (cs : List Char) : Option Int :=
  let (negative, ds) := splitSign cs
  (Digit.read? 10 ds).map fun n => if negative then -(n : Int) else n

/-- The numeral that a text writes. -/
def read? (cs : List Char) : Option Numeral := do
  let (negative, cs) := splitSign cs
  let whole := Digit.leading 10 cs
  let cs := cs.drop whole.length
  let places := match cs with
    | '.' :: rest => Digit.leading 10 rest
    | _ => []
  let cs := match cs with
    | '.' :: rest => rest.drop places.length
    | _ => cs
  if whole.isEmpty && places.isEmpty then none
  else
    let exponent ← match cs with
      | [] => some 0
      | 'e' :: rest => exponent? rest
      | 'E' :: rest => exponent? rest
      | _ => none
    return ⟨negative, Digit.leadingNumber 10 (whole ++ places), exponent - places.length⟩

/-- The number of digits of a positive integer. -/
def size (n : Nat) : Nat := (Nat.toDigits 10 n).length

/-- The nearest double, unless that is infinite.  Numbers below `10 ^ -400` are as good as zero, and
those from `10 ^ 400` on are infinite. -/
def nearest? (n : Numeral) : Option Float :=
  let magnitude := n.exponent + size n.significand
  let x : Option Float :=
    if n.significand = 0 ∨ magnitude < -400 then some 0.0
    else if 400 < magnitude then none
    else
      let x := Float.ofScientific n.significand (n.exponent < 0) n.exponent.natAbs
      if x.isInf then none else some x
  x.map fun x => if n.negative then -x else x

end Numeral

end VirtualTerminal.Decimal
