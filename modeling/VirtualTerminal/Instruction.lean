import VirtualTerminal.Escape.Tracker
import VirtualTerminal.Rendition
import VirtualTerminal.Screen.Edit
import VirtualTerminal.Screen.Write

/-!
# Instruction — what a program asks of the terminal

The actions of the escape machine are read as instructions, and an instruction changes the screen
and is recorded.  Neither the reading nor the record looks at the screen.  An action that asks for
nothing this terminal knows has no instruction.
-/

namespace VirtualTerminal

/-- What a program can ask of the terminal. -/
inductive Instruction where
  | print (c : Char)
  | bell
  | backspace
  | tab
  /-- A line feed of the text, which the transcript keeps. -/
  | lineFeed
  /-- A line feed asked for by a sequence, which the transcript does not keep. -/
  | index
  | reverseIndex
  | carriageReturn
  | cursorUp (n : Nat)
  | cursorDown (n : Nat)
  | cursorForward (n : Nat)
  | cursorBackward (n : Nat)
  /-- A row, counted from one. -/
  | moveToRow (row : Nat)
  /-- A column, counted from one. -/
  | moveToColumn (col : Nat)
  /-- A row and a column, both counted from one. -/
  | moveCursor (row col : Nat)
  | erase (region : EraseRegion)
  | insertLines (n : Nat)
  | deleteLines (n : Nat)
  | insertChars (n : Nat)
  | deleteChars (n : Nat)
  | eraseChars (n : Nat)
  | scrollUp (n : Nat)
  | scrollDown (n : Nat)
  /-- The rows of the scroll region, counted from one; a last row of zero is the last of the
  screen. -/
  | setMargins (top bottom : Nat)
  | rendition (groups : List (List Nat))
  | saveCursor
  | restoreCursor
  | setVisible (on : Bool)
  | setAutowrap (on : Bool)
  | setLink (link : Option String)
  | setMark (mark : Option BlockMark)
  | title (text : String)
  | reset
deriving DecidableEq, Repr

namespace Instruction

/-! ### Reading actions -/

/-- The first member of a parameter group, or a default where the group is missing. -/
def param (groups : List (List Nat)) (i default : Nat) : Nat :=
  ((groups[i]?).bind List.head?).getD default

/-- A parameter that counts: missing or zero means one. -/
def count (groups : List (List Nat)) (i : Nat) : Nat := max (param groups i 1) 1

/-- The instruction of a control character. -/
def ofControlCharacter (b : UInt8) : List Instruction :=
  match b.toNat with
  | 0x07 => [.bell]
  | 0x08 => [.backspace]
  | 0x09 => [.tab]
  | 0x0a => [.lineFeed]
  | 0x0b => [.lineFeed]
  | 0x0c => [.lineFeed]
  | 0x0d => [.carriageReturn]
  | _ => []

/-- The instructions of an escape sequence. -/
def ofEscape (intermediates : List UInt8) (final : UInt8) : List Instruction :=
  if intermediates.isEmpty then
    match Char.ofNat final.toNat with
    | '7' => [.saveCursor]
    | '8' => [.restoreCursor]
    | 'D' => [.index]
    | 'E' => [.carriageReturn, .index]
    | 'M' => [.reverseIndex]
    | 'c' => [.reset]
    | _ => []
  else []

/-- The part of the screen that an erase-in-display parameter names. -/
def displayRegion? : Nat → Option EraseRegion
  | 0 => some .screenToEnd
  | 1 => some .screenFromStart
  | 2 => some .wholeScreen
  | 3 => some .wholeScreen
  | _ => none

/-- The part of the line that an erase-in-line parameter names. -/
def lineRegion? : Nat → Option EraseRegion
  | 0 => some .lineToEnd
  | 1 => some .lineFromStart
  | 2 => some .wholeLine
  | _ => none

/-- The instruction that sets or resets a private mode. -/
def ofMode (on : Bool) (group : List Nat) : List Instruction :=
  match group.head? with
  | some 25 => [.setVisible on]
  | some 7 => [.setAutowrap on]
  | _ => []

/-- The instructions of a control sequence without marker and intermediate bytes. -/
def ofPlainControl (groups : List (List Nat)) (final : UInt8) : List Instruction :=
  let n := count groups 0
  match Char.ofNat final.toNat with
  | 'A' => [.cursorUp n]
  | 'B' => [.cursorDown n]
  | 'C' => [.cursorForward n]
  | 'D' => [.cursorBackward n]
  | 'E' => [.cursorDown n, .carriageReturn]
  | 'F' => [.cursorUp n, .carriageReturn]
  | 'G' => [.moveToColumn n]
  | '\x60' => [.moveToColumn n]
  | 'H' => [.moveCursor n (count groups 1)]
  | 'f' => [.moveCursor n (count groups 1)]
  | 'd' => [.moveToRow n]
  | 'J' => (displayRegion? (param groups 0 0)).toList.map .erase
  | 'K' => (lineRegion? (param groups 0 0)).toList.map .erase
  | 'L' => [.insertLines n]
  | 'M' => [.deleteLines n]
  | 'P' => [.deleteChars n]
  | '@' => [.insertChars n]
  | 'X' => [.eraseChars n]
  | 'S' => [.scrollUp n]
  | 'T' => [.scrollDown n]
  | 'r' => [.setMargins n (param groups 1 0)]
  | 'm' => [.rendition groups]
  | 's' => [.saveCursor]
  | 'u' => [.restoreCursor]
  | _ => []

/-- The instructions of a control sequence. -/
def ofControl (groups : List (List Nat)) (intermediates : List UInt8) (final : UInt8) :
    List Instruction :=
  match intermediates with
  | [] => ofPlainControl groups final
  | [0x3f] =>
    match Char.ofNat final.toNat with
    | 'h' => groups.flatMap (ofMode true)
    | 'l' => groups.flatMap (ofMode false)
    | _ => []
  | _ => []

/-- The text of arguments that semicolons had cut apart. -/
def joined (arguments : List (List UInt8)) : String :=
  String.ofList (Utf8.decodeLossy ([0x3b].intercalate arguments))

/-- The bytes of an argument that is written in ASCII. -/
def named (argument : List UInt8) (name : String) : Bool :=
  argument == name.toList.map fun c => UInt8.ofNat c.toNat

/-- The mark that a shell-integration argument announces. -/
def ofMark (kind : List UInt8) : List Instruction :=
  match kind.head?.map fun b => Char.ofNat b.toNat with
  | some 'A' => [.setMark (some .prompt)]
  | some 'B' => [.setMark (some .input)]
  | some 'C' => [.setMark (some .output)]
  | some 'D' => [.setMark none]
  | _ => []

/-- The instructions of an operating-system command. -/
def ofCommand : List (List UInt8) → List Instruction
  | [] => []
  | command :: arguments =>
    if named command "0" || named command "2" then [.title (joined arguments)]
    else if named command "8" then
      let target := joined (arguments.drop 1)
      [.setLink (if target.isEmpty then none else some target)]
    else if named command "133" then (arguments.head?.map ofMark).getD []
    else []

/-- The instructions of an action; control characters are never shown. -/
def ofAction : Escape.Action → List Instruction
  | .print c => if Width.isControl c then [] else [.print c]
  | .execute b => ofControlCharacter b
  | .escape intermediates final => ofEscape intermediates final
  | .control groups intermediates final => ofControl groups intermediates final
  | .command arguments => ofCommand arguments

/-! ### Obeying an instruction -/

/-- The screen after an instruction; no value where a column would be no sixteen-bit number. -/
def obey? (s : Screen) : Instruction → Option Screen
  | .print c => s.write? c
  | .bell => some s
  | .backspace => some s.backspace
  | .tab => s.tab?
  | .lineFeed => some s.lineFeed
  | .index => some s.lineFeed
  | .reverseIndex => some s.reverseIndex
  | .carriageReturn => some s.carriageReturn
  | .cursorUp n => some (s.cursorUp n)
  | .cursorDown n => some (s.cursorDown n)
  | .cursorForward n => some (s.cursorForward n)
  | .cursorBackward n => some (s.cursorBackward n)
  | .moveToRow row => some (s.moveToRow (row - 1))
  | .moveToColumn col => some (s.moveToColumn (col - 1))
  | .moveCursor row col => some (s.moveCursor (row - 1) (col - 1))
  | .erase region => some (s.erase region)
  | .insertLines n => some (s.insertLines n)
  | .deleteLines n => some (s.deleteLines n)
  | .insertChars n => some (s.insertChars n)
  | .deleteChars n => some (s.deleteChars n)
  | .eraseChars n => some (s.eraseChars n)
  | .scrollUp n => some (s.scrollUp n)
  | .scrollDown n => some (s.scrollDown n)
  | .setMargins top bottom =>
    some (s.setMargins (top - 1) ((if bottom = 0 then s.dims.rows else bottom) - 1))
  | .rendition groups => some (s.setStyle (Rendition.apply s.style groups))
  | .saveCursor => some s.saveCursor
  | .restoreCursor => some s.restoreCursor
  | .setVisible on => some (s.setVisible on)
  | .setAutowrap on => some (s.setAutowrap on)
  | .setLink link => some (s.setLink link)
  | .setMark mark => some (s.setMark mark)
  | .title _ => some s
  | .reset => some s.reset

end Instruction

end VirtualTerminal
