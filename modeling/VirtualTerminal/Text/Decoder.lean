import VirtualTerminal.Text.Utf8

/-!
# Text — Decoder

A byte stream that arrives in chunks is turned into well-formed UTF-8.  Sequences pass through
unchanged, also when a chunk boundary cuts them: the decoder holds back the beginning and completes
it with the next chunk.  Every byte that is part of no sequence stands for the Latin-1 character of
the same number.
-/

namespace VirtualTerminal

namespace Utf8

/-- The UTF-8 form of the Latin-1 character with this number. -/
def latin1 (b : UInt8) : List UInt8 := String.utf8EncodeChar (Char.ofNat b.toNat)

/-- The well-formed text of the bytes, and the beginning of a sequence that their end cuts short. -/
def repair : List UInt8 → List UInt8 × List UInt8
  | [] => ([], [])
  | b :: rest =>
    match opening b rest with
    | .scalar more =>
      let (text, held) := repair (rest.drop more)
      (b :: rest.take more ++ text, held)
    | .broken more =>
      let (text, held) := repair (rest.drop more)
      ((b :: rest.take more).flatMap latin1 ++ text, held)
    | .cut => ([], b :: rest)
termination_by bytes => bytes.length
decreasing_by all_goals simp only [List.length_drop, List.length_cons]; omega

end Utf8

/-- A decoder, by the bytes it holds back. -/
structure Decoder where
  held : List UInt8 := []
deriving DecidableEq, Repr, Inhabited

namespace Decoder

/-- Nothing held back. -/
def fresh : Decoder := {}

/-- Decodes one chunk. -/
def decode (d : Decoder) (chunk : List UInt8) : Decoder × List UInt8 :=
  let (text, held) := Utf8.repair (d.held ++ chunk)
  (⟨held⟩, text)

/-- Ends the stream: what is still held back stands for Latin-1 characters. -/
def finish (d : Decoder) : Decoder × List UInt8 :=
  (fresh, d.held.flatMap Utf8.latin1)

end Decoder

end VirtualTerminal
