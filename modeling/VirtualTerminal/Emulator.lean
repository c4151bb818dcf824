import VirtualTerminal.Instruction
import VirtualTerminal.Screen.Resize
import VirtualTerminal.Text.Decoder

/-!
# Emulator — from bytes to a screen

An emulator decodes the bytes fed to it, splits them into instructions and obeys these.  Besides the
screen, a feed has an outcome: the printed text, the window titles that were set, and the number of
bells.  Decoder and escape machine keep their state between feeds, so the cuts between chunks leave
no trace.
-/

namespace VirtualTerminal

/-- What a feed does besides changing the screen. -/
structure Outcome where
  /-- The printed text, with a line feed for every line feed. -/
  transcript : String := ""
  /-- The window titles set, in order. -/
  titles : List String := []
  bells : Nat := 0
deriving DecidableEq, Repr, Inhabited

namespace Outcome

/-- Nothing happened. -/
def none : Outcome := {}

/-- Holds of the outcome in which nothing happened. -/
def isEmpty (o : Outcome) : Bool := o.transcript.isEmpty && o.titles.isEmpty && o.bells == 0

/-- One outcome and then another. -/
def append (a b : Outcome) : Outcome :=
  ⟨a.transcript ++ b.transcript, a.titles ++ b.titles, a.bells + b.bells⟩

/-- Adds what an instruction does besides changing the screen. -/
def record (o : Outcome) : Instruction → Outcome
  | .print c => { o with transcript := o.transcript.push c }
  | .lineFeed => { o with transcript := o.transcript.push '\n' }
  | .bell => { o with bells := o.bells + 1 }
  | .title text => { o with titles := o.titles ++ [text] }
  | _ => o

end Outcome

/-- The state of an emulator between two bytes. -/
structure Emulator where
  decoder : Decoder := .fresh
  interpreter : Escape.Interpreter := .fresh
  screen : Screen
deriving DecidableEq, Repr, Inhabited

namespace Emulator

/-- An emulator with a blank screen of this size. -/
def ofDimensions (d : Dimensions) : Emulator := { screen := .blank d }

/-- Obeys instructions one after another. -/
def obeyAll? : List Instruction → Screen → Outcome → Option (Screen × Outcome)
  | [], s, o => some (s, o)
  | i :: rest, s, o => (i.obey? s).bind fun s => obeyAll? rest s (o.record i)

/-- Interprets one byte of decoded text. -/
def step? (e : Emulator) (o : Outcome) (b : UInt8) : Option (Emulator × Outcome) :=
  let (interpreter, actions) := e.interpreter.step b
  (obeyAll? (actions.flatMap Instruction.ofAction) e.screen o).map fun (screen, o) =>
    ({ e with interpreter := interpreter, screen := screen }, o)

/-- Interprets decoded text byte by byte. -/
def run? : List UInt8 → Emulator → Outcome → Option (Emulator × Outcome)
  | [], e, o => some (e, o)
  | b :: rest, e, o => (e.step? o b).bind fun (e, o) => run? rest e o

/-- Feeds a chunk of the byte stream; no value where a column would be no sixteen-bit number. -/
def feed? (e : Emulator) (chunk : List UInt8) : Option (Emulator × Outcome) :=
  let (decoder, text) := e.decoder.decode chunk
  run? text { e with decoder := decoder } .none

/-- Ends the byte stream: bytes still held back are shown one character each. -/
def finish? (e : Emulator) : Option (Emulator × Outcome) :=
  let (decoder, text) := e.decoder.finish
  run? text { e with decoder := decoder } .none

/-- Changes the size of the screen; an empty size is refused. -/
def resize? (e : Emulator) (d : Dimensions) : Option Emulator :=
  (e.screen.resize? d).map fun screen => { e with screen := screen }

end Emulator

end VirtualTerminal
