import VirtualTerminal.Decimal.Nearest
import VirtualTerminal.Text.Utf8

/-!
# Shell — Format

The texts that `echo` and `printf` write.  Escapes stand for single bytes, so what is written is
bytes.  A format is used again while arguments are left.
-/

namespace VirtualTerminal.Shell.Format

/-- The bytes of characters. -/
def bytes (cs : List Char) : List UInt8 := Utf8.encode cs

/-- The byte of an escape of one letter. -/
def letter? : Char → Option UInt8
  | 'a' => some 7
  | 'b' => some 8
  | 'f' => some 12
  | 'n' => some 10
  | 'r' => some 13
  | 't' => some 9
  | 'v' => some 11
  | '\\' => some 92
  | _ => none

/-- At most so many octal digits. -/
def octal (limit : Nat) (cs : List Char) : List Char := Digit.leading 8 (cs.take limit)

/-- The byte that octal digits write. -/
def octalByte (ds : List Char) : UInt8 := UInt8.ofNat (Digit.leadingNumber 8 ds)

/-- The bytes of a text with escapes, and whether nothing is to be written after it.  In some texts
an octal escape begins with a zero. -/
def escaped (zero : Bool) : Nat → List Char → List UInt8 × Bool
  | 0, _ => ([], false)
  | _ + 1, [] => ([], false)
  | fuel + 1, '\\' :: c :: rest =>
    if c == 'c' && zero then ([], true)
    else
      match letter? c with
      | some b =>
        let (bs, stop) := escaped zero fuel rest
        (b :: bs, stop)
      | none =>
        let ds := if zero then (if c == '0' then octal 3 rest else []) else octal 3 (c :: rest)
        if ds.isEmpty && !(zero && c == '0') then
          let (bs, stop) := escaped zero fuel (c :: rest)
          (92 :: bs, stop)
        else
          let (bs, stop) := escaped zero fuel (if zero then rest.drop ds.length
            else (c :: rest).drop ds.length)
          (octalByte ds :: bs, stop)
  | fuel + 1, c :: rest =>
    let (bs, stop) := escaped zero fuel rest
    (bytes [c] ++ bs, stop)

/-- What `echo` writes, with or without reading escapes. -/
def echo (escapes : Bool) (args : List String) : List UInt8 :=
  let (newline, args) := match args with
    | "-n" :: rest => (false, rest)
    | args => (true, args)
  let text := (" ".intercalate args).toList
  let (bs, stop) := if escapes then escaped true (text.length + 1) text else (bytes text, false)
  if newline && !stop then bs ++ [10] else bs

/-- The flags, the width and the precision of a conversion. -/
structure Field where
  left : Bool := false
  zeros : Bool := false
  plus : Bool := false
  blank : Bool := false
  alternate : Bool := false
  width : Nat := 0
  precision : Option Nat := none
deriving DecidableEq, Repr, Inhabited

namespace Field

/-- Reads the flags of a conversion. -/
def flags (f : Field) : List Char → Field × List Char
  | '-' :: rest => flags { f with left := true } rest
  | '0' :: rest => flags { f with zeros := true } rest
  | '+' :: rest => flags { f with plus := true } rest
  | ' ' :: rest => flags { f with blank := true } rest
  | '#' :: rest => flags { f with alternate := true } rest
  | rest => (f, rest)

/-- Reads a conversion up to its letter. -/
def read (cs : List Char) : Field × List Char :=
  let (f, cs) := flags {} cs
  let ds := Digit.leading 10 cs
  let f := { f with width := Digit.leadingNumber 10 ds }
  match cs.drop ds.length with
  | '.' :: rest =>
    let ps := Digit.leading 10 rest
    ({ f with precision := some (Digit.leadingNumber 10 ps) }, rest.drop ps.length)
  | rest => (f, rest)

/-- A text in its field. -/
def pad (f : Field) (bs : List UInt8) : List UInt8 :=
  let fill := List.replicate (f.width - bs.length) 32
  if f.left then bs ++ fill else fill ++ bs

/-- A number in its field: zeros stand between the sign and the digits. -/
def number (f : Field) (negative : Bool) (digits : List Char) : List UInt8 :=
  let sign : List Char := if negative then ['-'] else if f.plus then ['+'] else
    if f.blank then [' '] else []
  let digits := List.replicate (f.precision.getD 1 - digits.length) '0' ++ digits
  let zeros :=
    if f.zeros && !f.left && f.precision.isNone then f.width - (sign.length + digits.length) else 0
  f.pad (bytes (sign ++ List.replicate zeros '0' ++ digits))

end Field

/-- The integer that an argument writes; a quote is followed by a character whose number counts. -/
def integer (arg : String) : Int :=
  match arg.toList with
  | '\'' :: c :: _ => c.toNat
  | '"' :: c :: _ => c.toNat
  | cs =>
    let (negative, ds) := Decimal.Numeral.splitSign (cs.dropWhile (· == ' '))
    let n : Int := match ds with
      | '0' :: 'x' :: hs => Digit.leadingNumber 16 hs
      | '0' :: os => Digit.leadingNumber 8 os
      | ds => Digit.leadingNumber 10 ds
    if negative then -n else n

/-- A conversion of an argument, and whether nothing is to be written after it. -/
def convert (f : Field) (letter : Char) (arg : String) : List UInt8 × Bool :=
  let magnitude := (integer arg).natAbs
  let unsigned := (integer arg % UInt64.size).toNat
  match letter with
  | 's' =>
    let bs := bytes arg.toList
    (f.pad (match f.precision with | some n => bs.take n | none => bs), false)
  | 'b' =>
    let (bs, stop) := escaped true (arg.length + 1) arg.toList
    (f.pad bs, stop)
  | 'c' => (f.pad ((bytes arg.toList).take 1), false)
  | 'd' => (f.number (integer arg < 0) (Nat.toDigits 10 magnitude), false)
  | 'i' => (f.number (integer arg < 0) (Nat.toDigits 10 magnitude), false)
  | 'u' => (f.number false (Nat.toDigits 10 unsigned), false)
  | 'o' => (f.number false (Nat.toDigits 8 unsigned), false)
  | 'x' => (f.number false (Nat.toDigits 16 unsigned), false)
  | 'X' => (f.number false ((Nat.toDigits 16 unsigned).map Char.toUpper), false)
  | _ => ([], true)

/-- What one pass over a format writes. -/
structure Pass where
  written : List UInt8
  /-- The arguments left. -/
  rest : List String
  /-- Some conversion took an argument. -/
  used : Bool
  stop : Bool

/-- One pass over a format. -/
def pass : Nat → List Char → List String → Pass
  | 0, _, args => ⟨[], args, false, false⟩
  | _ + 1, [], args => ⟨[], args, false, false⟩
  | fuel + 1, '%' :: '%' :: rest, args =>
    let p := pass fuel rest args
    { p with written := 37 :: p.written }
  | fuel + 1, '%' :: rest, args =>
    let (f, rest) := Field.read rest
    match rest with
    | [] => ⟨[], args, false, true⟩
    | letter :: rest =>
      let (bs, stop) := convert f letter (args.head?.getD "")
      if stop then ⟨bs, args.drop 1, true, true⟩
      else
        let p := pass fuel rest (args.drop 1)
        { p with written := bs ++ p.written, used := true }
  | fuel + 1, '\\' :: c :: rest, args =>
    let ds := octal 3 (c :: rest)
    let (bs, rest) :=
      if !ds.isEmpty then ([octalByte ds], (c :: rest).drop ds.length)
      else
        match letter? c with
        | some b => ([b], rest)
        | none => ([92], c :: rest)
    let p := pass fuel rest args
    { p with written := bs ++ p.written }
  | fuel + 1, c :: rest, args =>
    let p := pass fuel rest args
    { p with written := bytes [c] ++ p.written }

/-- Passes over a format until no argument is left. -/
def passes (format : List Char) : Nat → List String → List UInt8
  | 0, _ => []
  | fuel + 1, args =>
    let p := pass (format.length + 1) format args
    if p.stop || !p.used || p.rest.isEmpty then p.written
    else p.written ++ passes format fuel p.rest

/-- What `printf` writes. -/
def printf (format : String) (args : List String) : List UInt8 :=
  passes format.toList (args.length + 1) args

end VirtualTerminal.Shell.Format
