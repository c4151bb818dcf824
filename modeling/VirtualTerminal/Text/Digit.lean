/-!
# Text — Digit

Digits in bases up to sixteen: their values, and the hexadecimal digits of numbers and bytes.
-/

namespace VirtualTerminal.Digit

/-- The value of a hexadecimal digit in either case. -/
def hex? (c : Char) : Option Nat :=
  if '0' ≤ c ∧ c ≤ '9' then some (c.toNat - 48)
  else if 'a' ≤ c ∧ c ≤ 'f' then some (c.toNat - 87)
  else if 'A' ≤ c ∧ c ≤ 'F' then some (c.toNat - 55)
  else none

/-- The value of a digit in a base. -/
def inBase? (base : Nat) (c : Char) : Option Nat :=
  (hex? c).bind fun d => if d < base then some d else none

/-- The number that digits write in a base. -/
def number (base : Nat) (digits : List Nat) : Nat := digits.foldl (fun n d => n * base + d) 0

/-- The number that a text of at least one digit writes in a base. -/
def read? (base : Nat) (cs : List Char) : Option Nat :=
  if cs.isEmpty then none else (cs.mapM (inBase? base)).map (number base)

/-- The digits at the beginning of a text. -/
def leading (base : Nat) (cs : List Char) : List Char :=
  cs.takeWhile fun c => (inBase? base c).isSome

/-- The number that the digits at the beginning of a text write; without any, zero. -/
def leadingNumber (base : Nat) (cs : List Char) : Nat := (read? base (leading base cs)).getD 0

/-- The lowercase hexadecimal digit of a value below sixteen. -/
def hex (d : Nat) : Char := if d < 10 then Char.ofNat (48 + d) else Char.ofNat (87 + d)

/-- The lowest hexadecimal digits of a number, so many of them, highest first. -/
def hexDigits (count n : Nat) : List Char :=
  (List.range count).map fun i => hex (n / Nat.pow 16 (count - 1 - i) % 16)

/-- Two hexadecimal digits for each byte. -/
def hexBytes (bytes : List UInt8) : List Char := bytes.flatMap fun b => hexDigits 2 b.toNat

/-- The bytes that pairs of hexadecimal digits write. -/
def bytesOfHex? : List Char → Option (List UInt8)
  | [] => some []
  | [_] => none
  | a :: b :: rest => do
    let high ← hex? a
    let low ← hex? b
    let bytes ← bytesOfHex? rest
    return UInt8.ofNat (high * 16 + low) :: bytes

end VirtualTerminal.Digit
