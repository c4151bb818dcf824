import VirtualTerminal.Geometry
import VirtualTerminal.Shell.Signal

/-!
# Shell — Tty

The line discipline of a pseudo-terminal.  With its initial settings, what is typed is echoed and
handed over line by line; some keys edit the line, end the input, or send a signal; and a line feed
that is written becomes a carriage return and a line feed.
-/

namespace VirtualTerminal.Shell

/-- The settings of a terminal. -/
structure TtyModes where
  /-- What is typed is shown. -/
  echo : Bool := true
  /-- A line feed that is typed is shown in any case. -/
  echoLineFeed : Bool := false
  /-- Control characters are shown as a caret and a letter. -/
  echoControl : Bool := true
  /-- Input is handed over line by line. -/
  canonical : Bool := true
  /-- Some keys send signals. -/
  signals : Bool := true
  /-- A carriage return that is typed counts as a line feed. -/
  returnToFeed : Bool := true
  /-- What is written is processed at all. -/
  processed : Bool := true
  /-- A line feed that is written becomes a carriage return and a line feed. -/
  feedToReturn : Bool := true
deriving DecidableEq, Repr, Inhabited

namespace TtyModes

/-- A terminal that changes nothing. -/
def raw (m : TtyModes) : TtyModes :=
  { m with canonical := false, signals := false, returnToFeed := false, processed := false }

/-- The settings after one that has a name; a hyphen before the name turns it off. -/
def change? (m : TtyModes) (name : String) : Option TtyModes :=
  let (on, name) := match name.toList with
    | '-' :: cs => (false, String.ofList cs)
    | _ => (true, name)
  match name with
  | "echo" => some { m with echo := on }
  | "echonl" => some { m with echoLineFeed := on }
  | "echoctl" => some { m with echoControl := on }
  | "ctlecho" => some { m with echoControl := on }
  | "icanon" => some { m with canonical := on }
  | "isig" => some { m with signals := on }
  | "icrnl" => some { m with returnToFeed := on }
  | "opost" => some { m with processed := on }
  | "onlcr" => some { m with feedToReturn := on }
  | "raw" => some (if on then m.raw else { m.raw with
      canonical := true, signals := true, returnToFeed := true, processed := true })
  | "cooked" => some (if on then { m with
      canonical := true, signals := true, returnToFeed := true, processed := true } else m.raw)
  | "cbreak" => some { m with canonical := !on }
  | "sane" => some {}
  | _ => none

end TtyModes

/-- The terminal of a command. -/
structure Tty where
  size : Dimensions
  modes : TtyModes := {}
  /-- The line that is being typed. -/
  line : List UInt8 := []
deriving DecidableEq, Repr, Inhabited

/-- What typing a byte leads to. -/
structure Keystroke where
  tty : Tty
  /-- What appears on the terminal. -/
  echo : List UInt8 := []
  /-- What the command can read from now on; an end of input stands for no byte. -/
  input : List (Option UInt8) := []
  signal : Option Signal := none
deriving DecidableEq, Repr, Inhabited

namespace Tty

/-- How written bytes reach the other side. -/
def cook (t : Tty) (bs : List UInt8) : List UInt8 :=
  if t.modes.processed && t.modes.feedToReturn then
    bs.flatMap fun b => if b = 10 then [13, 10] else [b]
  else bs

/-- How a typed byte is shown. -/
def shown (t : Tty) (b : UInt8) : List UInt8 :=
  if b = 9 || b = 10 then t.cook [b]
  else if !t.modes.echoControl then [b]
  else if b < 32 then [94, b + 64]
  else if b = 127 then [94, 63]
  else [b]

/-- What a typed byte shows with the settings of the terminal. -/
def echoOf (t : Tty) (b : UInt8) : List UInt8 :=
  if t.modes.echo || (t.modes.echoLineFeed && b = 10) then t.shown b else []

/-- What takes the shown form of bytes back. -/
def rubOut (t : Tty) (bs : List UInt8) : List UInt8 :=
  if t.modes.echo then (bs.flatMap t.shown).flatMap fun _ => [8, 32, 8] else []

/-- A key that sends a signal; it drops the line. -/
def interrupt (t : Tty) (b : UInt8) (s : Signal) : Keystroke :=
  { tty := { t with line := [] }, echo := t.echoOf b, signal := some s }

/-- Types one byte while input is handed over line by line. -/
def typeInLine (t : Tty) (b : UInt8) : Keystroke :=
  if b = 10 then
    { tty := { t with line := [] }, echo := t.echoOf b, input := (t.line ++ [10]).map some }
  else if b = 4 then
    { tty := { t with line := [] }
      input := if t.line.isEmpty then [none] else t.line.map some }
  else if b = 127 then
    match t.line.getLast? with
    | some c => { tty := { t with line := t.line.dropLast }, echo := t.rubOut [c] }
    | none => { tty := t }
  else if b = 21 then { tty := { t with line := [] }, echo := t.rubOut t.line }
  else { tty := { t with line := t.line ++ [b] }, echo := t.echoOf b }

/-- The signal that a key sends. -/
def signal? (b : UInt8) : Option Signal :=
  if b = 3 then some .interrupt else if b = 28 then some .quit else none

/-- Types one byte. -/
def type (t : Tty) (b : UInt8) : Keystroke :=
  let b := if b = 13 && t.modes.returnToFeed then 10 else b
  match (if t.modes.signals then signal? b else none) with
  | some s => t.interrupt b s
  | none =>
    if t.modes.canonical then t.typeInLine b
    else { tty := t, echo := t.echoOf b, input := [some b] }

end Tty

end VirtualTerminal.Shell
