/-!
# Text — UTF-8

Which bytes may follow which in well-formed UTF-8, and how a byte string begins: with a complete
sequence, with bytes that no sequence continues, or with a sequence that the end of the string
cuts short.  The bytes of a broken beginning are the longest that could still have become a
sequence, or the first byte where there is none.
-/

namespace VirtualTerminal.Utf8

/-- A closed range of bytes. -/
abbrev Span := UInt8 × UInt8

/-- The bytes that continue a sequence without further restriction. -/
def tail : Span := (0x80, 0xbf)

/-- The byte lies in the range. -/
def within (r : Span) (b : UInt8) : Bool := r.1 ≤ b && b ≤ r.2

/-- The ranges of the bytes that must follow a first byte, if the byte is one.  The first range is
narrowed where the sequence would be overlong, a surrogate, or beyond the last code point. -/
def continuations (b : UInt8) : Option (List Span) :=
  if b < 0x80 then some []
  else if b < 0xc2 then none
  else if b < 0xe0 then some [tail]
  else if b = 0xe0 then some [(0xa0, 0xbf), tail]
  else if b = 0xed then some [(0x80, 0x9f), tail]
  else if b < 0xf0 then some [tail, tail]
  else if b = 0xf0 then some [(0x90, 0xbf), tail, tail]
  else if b < 0xf4 then some [tail, tail, tail]
  else if b = 0xf4 then some [(0x80, 0x8f), tail, tail]
  else none

/-- How a non-empty byte string begins; `more` counts the bytes after the first. -/
inductive Opening where
  /-- A complete sequence. -/
  | scalar (more : Nat)
  /-- Bytes that no sequence continues. -/
  | broken (more : Nat)
  /-- The whole string is the beginning of a sequence. -/
  | cut
deriving DecidableEq, Repr

/-- Matches the bytes against the ranges still expected, after `more` of them have matched. -/
def follow (more : Nat) : List Span → List UInt8 → Opening
  | [], _ => .scalar more
  | _ :: _, [] => .cut
  | r :: rs, b :: bs => if within r b then follow (more + 1) rs bs else .broken more

/-- How the string of this first byte and these further bytes begins. -/
def opening (b : UInt8) (rest : List UInt8) : Opening :=
  match continuations b with
  | none => .broken 0
  | some rs => follow 0 rs rest

/-- The bits of the code point that the first byte of a sequence holds. -/
def leadBits (b : UInt8) : Nat :=
  if b < 0x80 then b.toNat
  else if b < 0xe0 then b.toNat % 32
  else if b < 0xf0 then b.toNat % 16
  else b.toNat % 8

/-- The code point with the six bits of a further byte. -/
def extend (code : Nat) (b : UInt8) : Nat := code * 64 + b.toNat % 64

/-- The character that a complete sequence encodes. -/
def scalarOf (b : UInt8) (rest : List UInt8) : Char :=
  Char.ofNat (rest.foldl extend (leadBits b))

/-- The bytes of a text. -/
def encode (cs : List Char) : List UInt8 := cs.flatMap String.utf8EncodeChar

/-- The character shown in place of bytes that are no sequence. -/
def replacement : Char := Char.ofNat 0xfffd

/-- The text of the bytes, with one replacement character for each broken beginning. -/
def decodeLossy : List UInt8 → List Char
  | [] => []
  | b :: rest =>
    match opening b rest with
    | .scalar more => scalarOf b (rest.take more) :: decodeLossy (rest.drop more)
    | .broken more => replacement :: decodeLossy (rest.drop more)
    | .cut => [replacement]
termination_by bytes => bytes.length
decreasing_by all_goals simp only [List.length_drop, List.length_cons]; omega

end VirtualTerminal.Utf8
