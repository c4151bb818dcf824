import VirtualTerminal.Escape.Machine

/-!
# Escape — Tracker

A byte above 0x7f cannot continue an escape or control sequence, but the machine alone would skip
it and go on with the sequence.  The tracker follows the bytes closely enough to know when such a
sequence is in progress; a byte that cannot continue it first cancels it and then counts as if it
came in the ground state.
-/

namespace VirtualTerminal.Escape

/-- What kind of sequence is in progress. -/
inductive Tracker where
  | ground
  | escape
  | escapeIntermediate
  | control
  | command
  | string
deriving DecidableEq, Repr

namespace Tracker

/-- The byte cannot continue the sequence. -/
def rejects (t : Tracker) (b : UInt8) : Bool :=
  0x80 ≤ b && (t == .escape || t == .escapeIntermediate || t == .control)

/-- The kind of sequence in progress after the byte. -/
def next (t : Tracker) (b : UInt8) : Tracker :=
  if b = 0x18 ∨ b = 0x1a then .ground
  else if b = 0x1b then .escape
  else
    match t with
    | .ground => .ground
    | .escape =>
      if b = 0x5b then .control
      else if b = 0x5d then .command
      else if b = 0x50 ∨ b = 0x58 ∨ b = 0x5e ∨ b = 0x5f then .string
      else if 0x20 ≤ b ∧ b < 0x30 then .escapeIntermediate
      else if 0x30 ≤ b ∧ b < 0x7f then .ground
      else .escape
    | .escapeIntermediate => if 0x30 ≤ b ∧ b < 0x7f then .ground else .escapeIntermediate
    | .control => if 0x40 ≤ b ∧ b < 0x7f then .ground else .control
    | .command => if b = 0x07 then .ground else .command
    | .string => if b = 0x9c then .ground else .string

end Tracker

/-- The machine together with the tracker that guards it. -/
structure Interpreter where
  tracker : Tracker := .ground
  machine : Machine := .ground
deriving DecidableEq, Repr

namespace Interpreter

/-- No sequence in progress. -/
def fresh : Interpreter := {}

/-- Cancels the sequence in progress if the byte cannot continue it. -/
def resync (i : Interpreter) (b : UInt8) : Interpreter × List Action :=
  if i.tracker.rejects b then
    let (machine, actions) := i.machine.step can
    (⟨.ground, machine⟩, actions)
  else (i, [])

/-- One byte. -/
def step (i : Interpreter) (b : UInt8) : Interpreter × List Action :=
  let (i, cancelled) := i.resync b
  let (machine, actions) := i.machine.step b
  (⟨i.tracker.next b, machine⟩, cancelled ++ actions)

end Interpreter

end VirtualTerminal.Escape
