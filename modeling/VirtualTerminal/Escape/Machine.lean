import VirtualTerminal.Escape.Command
import VirtualTerminal.Escape.Parameters
import VirtualTerminal.Text.Utf8

/-!
# Escape — Machine

The state machine of DEC terminals that splits a byte stream into printed characters, control
characters and sequences.  A state carries only what has been read of the sequence in progress, so
nothing of a sequence is left once the machine is back in its ground state.

In every state CAN and SUB end the sequence in progress and ESC begins another; an operating-system
command takes effect however it ends.  The bodies of device-control, start-of-string, privacy and
application strings are read and dropped.
-/

namespace VirtualTerminal.Escape

/-- What the machine hands on. -/
inductive Action where
  /-- Show a character. -/
  | print (c : Char)
  /-- Obey a control character. -/
  | execute (b : UInt8)
  /-- Obey an escape sequence: its intermediate bytes and its final byte. -/
  | escape (intermediates : List UInt8) (final : UInt8)
  /-- Obey a control sequence: its parameters, marker and intermediate bytes, and its final byte. -/
  | control (groups : List (List Nat)) (intermediates : List UInt8) (final : UInt8)
  /-- Obey an operating-system command. -/
  | command (arguments : List (List UInt8))
deriving DecidableEq, Repr

/-- What precedes the final byte of a control sequence. -/
structure Header where
  params : Parameters := {}
  /-- Private markers and intermediate bytes. -/
  intermediates : List UInt8 := []
  /-- Too long a sequence has no effect. -/
  ignored : Bool := false
deriving DecidableEq, Repr, Inhabited

/-- The part of a control sequence that is being read. -/
inductive ControlPart where
  | entry
  | params
  | intermediates
  | ignored
deriving DecidableEq, Repr

/-- The part of a device-control string that is being read. -/
inductive DevicePart where
  | entry
  | params
  | intermediates
  | ignored
  | body
deriving DecidableEq, Repr

/-- The states of the machine. -/
inductive Machine where
  | ground
  /-- Inside a UTF-8 sequence: the bits read and the ranges of the bytes still expected. -/
  | scalar (code : Nat) (expected : List Utf8.Span)
  | escape
  | escapeIntermediate (intermediates : List UInt8)
  | control (part : ControlPart) (header : Header)
  | device (part : DevicePart)
  /-- Inside a start-of-string, privacy or application string. -/
  | ignoredString
  | command (body : Command)
deriving DecidableEq, Repr

/-- The byte that cancels a sequence. -/
def can : UInt8 := 0x18

/-- The most marker and intermediate bytes a sequence may have. -/
def intermediateLimit : Nat := 2

namespace Header

/-- Keeps a marker or intermediate byte, or gives the sequence up as too long. -/
def collect (h : Header) (b : UInt8) : Header :=
  if h.intermediates.length = intermediateLimit then { h with ignored := true }
  else { h with intermediates := h.intermediates ++ [b] }

/-- Reads a digit, colon or semicolon, or gives the sequence up as too long. -/
def param (h : Header) (b : UInt8) : Header :=
  if h.params.isFull then { h with ignored := true }
  else if b = 0x3b then { h with params := h.params.closeGroup }
  else if b = 0x3a then { h with params := h.params.closeMember }
  else { h with params := h.params.digit (b.toNat - 0x30) }

/-- The effect of a sequence that ends in this byte; one that was too long has none. -/
def dispatch (h : Header) (final : UInt8) : List Action :=
  if h.ignored || h.params.isFull then []
  else [.control h.params.closeGroup.groups h.intermediates final]

end Header

/-- Keeps an intermediate byte of an escape sequence while there is room. -/
def collectEscape (intermediates : List UInt8) (b : UInt8) : List UInt8 :=
  if intermediates.length = intermediateLimit then intermediates else intermediates ++ [b]

namespace Machine

/-- What leaving the state does before CAN, SUB or ESC is obeyed. -/
def leave : Machine → List Action
  | .command body => [.command body.arguments]
  | _ => []

/-- A byte in the ground state. -/
def fromGround (b : UInt8) : Machine × List Action :=
  if b < 0x20 then (.ground, [.execute b])
  else if b < 0x80 then (.ground, [.print (Char.ofNat b.toNat)])
  else
    match Utf8.continuations b with
    | some expected => (.scalar (Utf8.leadBits b) expected, [])
    | none => (.ground, [])

/-- A byte inside a UTF-8 sequence; one that does not belong there is replaced. -/
def fromScalar (code : Nat) (expected : List Utf8.Span) (b : UInt8) : Machine × List Action :=
  match expected with
  | [] => (.ground, [.print Utf8.replacement])
  | r :: rest =>
    if Utf8.within r b then
      if rest.isEmpty then (.ground, [.print (Char.ofNat (Utf8.extend code b))])
      else (.scalar (Utf8.extend code b) rest, [])
    else (.ground, [.print Utf8.replacement])

/-- A byte directly behind ESC. -/
def fromEscape (b : UInt8) : Machine × List Action :=
  if b < 0x20 then (.escape, [.execute b])
  else if b < 0x30 then (.escapeIntermediate [b], [])
  else if b = 0x5b then (.control .entry {}, [])
  else if b = 0x5d then (.command {}, [])
  else if b = 0x50 then (.device .entry, [])
  else if b = 0x58 ∨ b = 0x5e ∨ b = 0x5f then (.ignoredString, [])
  else if b < 0x7f then (.ground, [.escape [] b])
  else (.escape, [])

/-- A byte behind an intermediate byte of an escape sequence. -/
def fromEscapeIntermediate (intermediates : List UInt8) (b : UInt8) : Machine × List Action :=
  if b < 0x20 then (.escapeIntermediate intermediates, [.execute b])
  else if b < 0x30 then (.escapeIntermediate (collectEscape intermediates b), [])
  else if b < 0x7f then (.ground, [.escape intermediates b])
  else (.escapeIntermediate intermediates, [])

/-- A byte inside a control sequence. -/
def fromControl (part : ControlPart) (h : Header) (b : UInt8) : Machine × List Action :=
  if b < 0x20 then (.control part h, [.execute b])
  else if 0x7f ≤ b then (.control part h, [])
  else if 0x40 ≤ b then (.ground, if part = .ignored then [] else h.dispatch b)
  else
    match part with
    | .entry =>
      if b < 0x30 then (.control .intermediates (h.collect b), [])
      else if b < 0x3c then (.control .params (h.param b), [])
      else (.control .params (h.collect b), [])
    | .params =>
      if b < 0x30 then (.control .intermediates (h.collect b), [])
      else if b < 0x3c then (.control .params (h.param b), [])
      else (.control .ignored h, [])
    | .intermediates =>
      if b < 0x30 then (.control .intermediates (h.collect b), [])
      else (.control .ignored h, [])
    | .ignored => (.control .ignored h, [])

/-- A byte inside a device-control string. -/
def fromDevice (part : DevicePart) (b : UInt8) : Machine :=
  match part with
  | .entry =>
    if b < 0x20 ∨ 0x7f ≤ b then .device .entry
    else if b < 0x30 then .device .intermediates
    else if b < 0x40 then .device .params
    else .device .body
  | .params =>
    if b < 0x20 ∨ 0x7f ≤ b then .device .params
    else if b < 0x30 then .device .intermediates
    else if b < 0x3c then .device .params
    else if b < 0x40 then .device .ignored
    else .device .body
  | .intermediates =>
    if b < 0x30 ∨ 0x7f ≤ b then .device .intermediates
    else if b < 0x40 then .device .ignored
    else .device .body
  | .ignored => if b = 0x9c then .ground else .device .ignored
  | .body => if b = 0x9c then .ground else .device .body

/-- A byte inside an operating-system command; BEL ends it and other control characters are
dropped. -/
def fromCommand (body : Command) (b : UInt8) : Machine × List Action :=
  if b = 0x07 then (.ground, [.command body.arguments])
  else if b < 0x20 then (.command body, [])
  else (.command (body.put b), [])

/-- One byte. -/
def step (m : Machine) (b : UInt8) : Machine × List Action :=
  match m with
  | .scalar code expected => fromScalar code expected b
  | m =>
    if b = 0x18 ∨ b = 0x1a then (.ground, m.leave ++ [.execute b])
    else if b = 0x1b then (.escape, m.leave)
    else
      match m with
      | .ground => fromGround b
      | .scalar code expected => fromScalar code expected b
      | .escape => fromEscape b
      | .escapeIntermediate intermediates => fromEscapeIntermediate intermediates b
      | .control part h => fromControl part h b
      | .device part => (fromDevice part b, [])
      | .ignoredString => (if b = 0x9c then .ground else .ignoredString, [])
      | .command body => fromCommand body b

end Machine

end VirtualTerminal.Escape
