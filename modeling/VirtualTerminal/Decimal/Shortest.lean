/-!
# Decimal — Shortest

The shortest decimal that reads back as a given double.  A finite positive double is `m * 2 ^ q`;
the reals that round to it form an interval, whose ends belong to it when `m` is even.  On the grids
of one, two, … significant digits the two neighbours of the value are tried, and the first grid with
a neighbour in the interval wins.
-/

namespace VirtualTerminal

/-- A decimal, as `digits * 10 ^ exponent`. -/
structure Decimal where
  digits : Nat
  exponent : Int
deriving DecidableEq, Repr

namespace Decimal

/-- A finite double without its sign, as `mantissa * 2 ^ exponent`. -/
structure Binary where
  mantissa : Nat
  exponent : Int
  /-- The double below is only half as far away as the double above. -/
  narrowBelow : Bool
deriving DecidableEq, Repr

/-- The parts of a finite double, by its bits. -/
def Binary.ofBits (bits : UInt64) : Binary :=
  let hidden : Nat := 1 <<< 52
  let biased : Nat := bits.toNat / hidden % (1 <<< 11)
  let fraction : Nat := bits.toNat % hidden
  if biased = 0 then ⟨fraction, -1074, false⟩
  else ⟨hidden + fraction, (biased : Int) - 1075, fraction == 0 && 1 < biased⟩

/-- Compares `a * 10 ^ i` with `b * 2 ^ j`. -/
def compareScaled (a : Nat) (i : Int) (b : Nat) (j : Int) : Ordering :=
  compare ((a * Nat.pow 10 i.toNat) <<< (-j).toNat) ((b <<< j.toNat) * Nat.pow 10 (-i).toNat)

/-- The decimal lies among the reals that round to the double. -/
def Binary.covers (x : Binary) (d : Decimal) : Bool :=
  let low := if x.narrowBelow then 4 * x.mantissa - 1 else 4 * x.mantissa - 2
  let high := 4 * x.mantissa + 2
  let closed := x.mantissa % 2 == 0
  let atLow := compareScaled d.digits d.exponent low (x.exponent - 2)
  let atHigh := compareScaled d.digits d.exponent high (x.exponent - 2)
  (atLow == .gt || (closed && atLow == .eq)) && (atHigh == .lt || (closed && atHigh == .eq))

/-- The whole number of steps of `10 ^ grid` below the double. -/
def Binary.floor (x : Binary) (grid : Int) : Nat :=
  (x.mantissa <<< x.exponent.toNat) * Nat.pow 10 (-grid).toNat /
    (Nat.pow 10 grid.toNat <<< (-x.exponent).toNat)

/-- The places that a positive double below one leaves empty behind its point. -/
def Binary.emptyPlaces (x : Binary) : Nat :=
  ((List.range 330).find? fun j => 0 < x.floor (-(Int.ofNat j) - 1)).getD 330

/-- The place of the first digit: the least `k` for which the double is below `10 ^ k`. -/
def Binary.magnitude (x : Binary) : Int :=
  let whole := x.floor 0
  if whole = 0 then -(x.emptyPlaces : Int) else (Nat.toDigits 10 whole).length

/-- The point of the grid `10 ^ grid` that is nearest to the double among those that read back; of
two at the same distance, the even one. -/
def Binary.onGrid (x : Binary) (grid : Int) : Option Decimal :=
  let below := x.floor grid
  let low : Decimal := ⟨below, grid⟩
  let high : Decimal := ⟨below + 1, grid⟩
  if x.covers low then
    if x.covers high then
      match compareScaled (2 * below + 1) grid (2 * x.mantissa) x.exponent with
      | .lt => some high
      | .gt => some low
      | .eq => some (if below % 2 = 0 then low else high)
    else some low
  else if x.covers high then some high
  else none

/-- The decimal without zeros at its end. -/
def stripped (d : Decimal) : Nat → Decimal
  | 0 => d
  | fuel + 1 =>
    if d.digits ≠ 0 ∧ d.digits % 10 = 0 then
      (⟨d.digits / 10, d.exponent + 1⟩ : Decimal).stripped fuel
    else d

/-- The shortest decimal that reads back as a positive double. -/
def Binary.shortest (x : Binary) : Decimal :=
  let k := x.magnitude
  let found := (List.range 17).findSome? fun n => x.onGrid (k - Int.ofNat (n + 1))
  (found.getD ⟨x.floor (k - 17), k - 17⟩).stripped 20

end Decimal

end VirtualTerminal
