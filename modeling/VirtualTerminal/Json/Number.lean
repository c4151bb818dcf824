import VirtualTerminal.Decimal.Shortest

/-!
# Json — Number

Numbers of JSON texts.  A numeral without point and exponent is an integer where it fits 64 bits;
every other numeral is a double.  Such a numeral is read by rounding twice: its digits as an integer
are rounded to a double, which is then multiplied or divided by a power of ten.  A double is written
with the fewest digits that name it, positionally where its first digit stands at most 16 places
before and at most 5 places behind the point.
-/

namespace VirtualTerminal.Json

/-- A number as it is read. -/
inductive Numeral where
  | int (n : Int)
  | float (x : Float)
deriving Inhabited

namespace Numeral

/-- The digits of a numeral, without point and exponent: an integer that fits 64 bits, and the power
of ten that scales it.  Digits that no longer fit are dropped. -/
structure Scaled where
  significand : Nat := 0
  exponent : Int := 0
  /-- Some digit did not fit. -/
  full : Bool := false

/-- The value of a digit. -/
def digit? (c : Char) : Option Nat :=
  if '0' ≤ c ∧ c ≤ '9' then some (c.toNat - 48) else none

/-- The numbers below `2 ^ 64` with one more digit. -/
def appendDigit? (n d : Nat) : Option Nat :=
  if n * 10 + d < UInt64.size then some (n * 10 + d) else none

/-- One more digit before the point. -/
def Scaled.wholeDigit (s : Scaled) (d : Nat) : Scaled :=
  if s.full then { s with exponent := s.exponent + 1 }
  else
    match appendDigit? s.significand d with
    | some n => { s with significand := n }
    | none => { s with exponent := s.exponent + 1, full := true }

/-- One more digit behind the point. -/
def Scaled.placeDigit (s : Scaled) (d : Nat) : Scaled :=
  if s.full then s
  else
    match appendDigit? s.significand d with
    | some n => { s with significand := n, exponent := s.exponent - 1 }
    | none => { s with full := true }

/-- A power of ten as a double. -/
def powerOfTen (n : Nat) : Float := Float.ofScientific 1 false n

/-- The double scaled by a power of ten; no value if it is too large.  Divisions by more than
`10 ^ 308` are taken in steps. -/
def scale? (x : Float) (exponent : Int) : Nat → Option Float
  | 0 => none
  | fuel + 1 =>
    if exponent.natAbs ≤ 308 then
      if 0 ≤ exponent then
        let y := x * powerOfTen exponent.toNat
        if y.isInf then none else some y
      else some (x / powerOfTen exponent.natAbs)
    else if x == 0 then some x
    else if 0 ≤ exponent then none
    else scale? (x / powerOfTen 308) (exponent + 308) fuel

/-- The double of a scaled integer. -/
def Scaled.toFloat? (s : Scaled) (negative : Bool) : Option Float :=
  let exponent := max (min s.exponent 2147483647) (-2147483648)
  let x := UInt64.toFloat (UInt64.ofNat s.significand)
  let bounded := if exponent < -10000 then -10000 else exponent
  (scale? x bounded 64).map fun y => if negative then -y else y

/-- Splits off the digits at the beginning. -/
def splitDigits (cs : List Char) : List Nat × List Char :=
  (cs.takeWhile (fun c => (digit? c).isSome) |>.filterMap digit?,
   cs.dropWhile fun c => (digit? c).isSome)

/-- The number that digits write. -/
def ofDigits (ds : List Nat) : Nat := ds.foldl (fun n d => n * 10 + d) 0

/-- The power of ten behind the letter E. -/
def readExponent? (cs : List Char) : Option Int :=
  let (negative, cs) :=
    match cs with
    | '-' :: rest => (true, rest)
    | '+' :: rest => (false, rest)
    | rest => (false, rest)
  let (ds, rest) := splitDigits cs
  if ds.isEmpty || !rest.isEmpty then none
  else
    let n := ofDigits ds
    some (if negative then -(n : Int) else n)

/-- Reads what follows the digits before the point. -/
def readTail? (negative : Bool) (whole : Scaled) (cs : List Char) : Option Numeral := do
  let (scaled, cs) ←
    match cs with
    | '.' :: rest =>
      let (ds, rest) := splitDigits rest
      if ds.isEmpty then none else some (ds.foldl Scaled.placeDigit whole, rest)
    | _ => some (whole, cs)
  match cs with
  | [] => return .float (← scaled.toFloat? negative)
  | c :: rest =>
    if c = 'e' ∨ c = 'E' then
      let e ← readExponent? rest
      return .float (← Scaled.toFloat? { scaled with exponent := scaled.exponent + e } negative)
    else none

/-- Reads a numeral. -/
def read? (cs : List Char) : Option Numeral := do
  let (negative, cs) :=
    match cs with
    | '-' :: rest => (true, rest)
    | rest => (false, rest)
  let (ds, rest) := splitDigits cs
  if ds.isEmpty || (ds.head? == some 0 && 1 < ds.length) then none
  else
    let n := ofDigits ds
    if rest.isEmpty && n < UInt64.size && !negative then return .int n
    else if rest.isEmpty && n ≤ UInt64.size / 2 && n ≠ 0 then return .int (-(n : Int))
    else readTail? negative (ds.foldl Scaled.wholeDigit {}) rest

/-! ### Writing -/

/-- The digits of a number. -/
def digits (n : Nat) : List Char := Nat.toDigits 10 n

/-- An integer in decimal. -/
def writeInt (n : Int) : List Char :=
  if n < 0 then '-' :: digits n.natAbs else digits n.natAbs

/-- A positive decimal, positionally or with an exponent. -/
def layout (d : Decimal) : List Char :=
  let ds := digits d.digits
  let point := ds.length + d.exponent
  if 0 ≤ d.exponent ∧ point ≤ 16 then
    ds ++ List.replicate d.exponent.toNat '0' ++ ['.', '0']
  else if 0 < point ∧ point ≤ 16 then
    ds.take point.toNat ++ '.' :: ds.drop point.toNat
  else if -5 < point ∧ point ≤ 0 then
    '0' :: '.' :: (List.replicate (-point).toNat '0' ++ ds)
  else
    ds.take 1 ++ (if ds.length = 1 then [] else '.' :: ds.drop 1) ++ 'e' :: writeInt (point - 1)

/-- A double; infinities and what is no number are written as null. -/
def writeFloat (x : Float) : List Char :=
  if x.isNaN || x.isInf then "null".toList
  else
    let bits := x.toBits
    let sign := if bits.toNat < UInt64.size / 2 then [] else ['-']
    let b := Decimal.Binary.ofBits bits
    sign ++ (if b.mantissa = 0 then "0.0".toList else layout b.shortest)

end Numeral

end VirtualTerminal.Json
