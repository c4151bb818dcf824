import VirtualTerminal.Proofs.Agreement

/-!
# Registers — the machine with memory

A terminal keeps the parameters, intermediate bytes and body of a sequence in registers that are
there in every state.  They are cleared when a sequence begins, not when one ends: behind a
sequence, and behind one that was cancelled, they still hold what was read of it.  `Registers` is
the state machine in this form, with a table of transitions (`Phase.transition`) and what is done to
the registers on the way.

The states of `Machine` carry what the registers hold as far as the state can still use it
(`Registers.view`).  The registers step as the machine does and hand on the same actions
(`Registers.Clean.step`); all this takes is that directly behind ESC the registers are clear
(`Registers.Clean`), which every step keeps.  So it is under the tracker, for whole texts
(`Guarded.run_view`).
-/

namespace VirtualTerminal.Escape

/-- The states of the machine without what has been read. -/
inductive Phase where
  | ground
  | scalar
  | escape
  | escapeIntermediate
  | control (part : ControlPart)
  | device (part : DevicePart)
  | ignoredString
  | command
deriving DecidableEq, Repr

/-- What is done with a byte. -/
inductive Effect where
  | nothing
  | print
  | execute
  /-- Keeps a marker or intermediate byte. -/
  | collect
  /-- Keeps a digit, colon or semicolon. -/
  | param
  | dispatchEscape
  | dispatchControl
  /-- Keeps a byte of an operating-system command. -/
  | put
  /-- Begins a UTF-8 sequence. -/
  | lead
deriving DecidableEq, Repr

namespace Phase

/-- Where a byte leads from the phase, if it leads out of it, and what is done with it. -/
def transition : Phase → UInt8 → Option Phase × Effect
  | .ground, b =>
    if b < 0x20 then (none, .execute)
    else if b < 0x80 then (none, .print)
    else if (Utf8.continuations b).isSome then (some .scalar, .lead)
    else (none, .nothing)
  | .scalar, _ => (none, .nothing)
  | .escape, b =>
    if b < 0x20 then (none, .execute)
    else if b < 0x30 then (some .escapeIntermediate, .collect)
    else if b = 0x5b then (some (.control .entry), .nothing)
    else if b = 0x5d then (some .command, .nothing)
    else if b = 0x50 then (some (.device .entry), .nothing)
    else if b = 0x58 ∨ b = 0x5e ∨ b = 0x5f then (some .ignoredString, .nothing)
    else if b < 0x7f then (some .ground, .dispatchEscape)
    else (none, .nothing)
  | .escapeIntermediate, b =>
    if b < 0x20 then (none, .execute)
    else if b < 0x30 then (none, .collect)
    else if b < 0x7f then (some .ground, .dispatchEscape)
    else (none, .nothing)
  | .control .entry, b =>
    if b < 0x20 then (none, .execute)
    else if b < 0x30 then (some (.control .intermediates), .collect)
    else if b < 0x3c then (some (.control .params), .param)
    else if b < 0x40 then (some (.control .params), .collect)
    else if b < 0x7f then (some .ground, .dispatchControl)
    else (none, .nothing)
  | .control .params, b =>
    if b < 0x20 then (none, .execute)
    else if b < 0x30 then (some (.control .intermediates), .collect)
    else if b < 0x3c then (none, .param)
    else if b < 0x40 then (some (.control .ignored), .nothing)
    else if b < 0x7f then (some .ground, .dispatchControl)
    else (none, .nothing)
  | .control .intermediates, b =>
    if b < 0x20 then (none, .execute)
    else if b < 0x30 then (none, .collect)
    else if b < 0x40 then (some (.control .ignored), .nothing)
    else if b < 0x7f then (some .ground, .dispatchControl)
    else (none, .nothing)
  | .control .ignored, b =>
    if b < 0x20 then (none, .execute)
    else if b < 0x40 then (none, .nothing)
    else if b < 0x7f then (some .ground, .nothing)
    else (none, .nothing)
  | .device .entry, b =>
    if b < 0x20 then (none, .nothing)
    else if b < 0x30 then (some (.device .intermediates), .collect)
    else if b < 0x3c then (some (.device .params), .param)
    else if b < 0x40 then (some (.device .params), .collect)
    else if b < 0x7f then (some (.device .body), .nothing)
    else (none, .nothing)
  | .device .params, b =>
    if b < 0x20 then (none, .nothing)
    else if b < 0x30 then (some (.device .intermediates), .collect)
    else if b < 0x3c then (none, .param)
    else if b < 0x40 then (some (.device .ignored), .nothing)
    else if b < 0x7f then (some (.device .body), .nothing)
    else (none, .nothing)
  | .device .intermediates, b =>
    if b < 0x20 then (none, .nothing)
    else if b < 0x30 then (none, .collect)
    else if b < 0x40 then (some (.device .ignored), .nothing)
    else if b < 0x7f then (some (.device .body), .nothing)
    else (none, .nothing)
  | .device .ignored, b => if b = 0x9c then (some .ground, .nothing) else (none, .nothing)
  | .device .body, b => if b = 0x9c then (some .ground, .nothing) else (none, .nothing)
  | .ignoredString, b => if b = 0x9c then (some .ground, .nothing) else (none, .nothing)
  | .command, b =>
    if b = 0x07 then (some .ground, .nothing)
    else if b < 0x20 then (none, .nothing)
    else (none, .put)

/-- The same with the bytes that mean the same in every phase. -/
def next (p : Phase) (b : UInt8) : Option Phase × Effect :=
  if b = 0x18 ∨ b = 0x1a then (some .ground, .execute)
  else if b = 0x1b then (some .escape, .nothing)
  else p.transition b

end Phase

/-- Ends the parameters, if there is room. -/
def Header.close (h : Header) : Header :=
  if h.params.isFull then { h with ignored := true }
  else { h with params := h.params.closeGroup }

/-- The state of the machine, with everything that has been read and not been cleared. -/
structure Registers where
  phase : Phase := .ground
  /-- The parameters and intermediate bytes of an escape, control or device-control sequence. -/
  header : Header := {}
  /-- The body of an operating-system command. -/
  body : Command := {}
  /-- The bits read of a UTF-8 sequence. -/
  code : Nat := 0
  /-- The ranges of the bytes a UTF-8 sequence still expects. -/
  expected : List Utf8.Span := []
deriving DecidableEq, Repr, Inhabited

namespace Registers

/-- Nothing read yet. -/
def fresh : Registers := {}

/-- Does with a byte what is to be done. -/
def perform (r : Registers) (b : UInt8) : Effect → Registers × List Action
  | .nothing => (r, [])
  | .print => (r, [.print (Char.ofNat b.toNat)])
  | .execute => (r, [.execute b])
  | .collect => ({ r with header := r.header.collect b }, [])
  | .param => ({ r with header := r.header.param b }, [])
  | .dispatchEscape => (r, [.escape r.header.intermediates b])
  | .dispatchControl =>
    let r := { r with header := r.header.close }
    (r, if r.header.ignored then []
      else [.control r.header.params.groups r.header.intermediates b])
  | .put => ({ r with body := r.body.put b }, [])
  | .lead =>
    ({ r with code := Utf8.leadBits b, expected := (Utf8.continuations b).getD [] }, [])

/-- What leaving the phase does. -/
def leave (r : Registers) : List Action :=
  if r.phase = .command then [.command r.body.arguments] else []

/-- Enters a phase; the registers are cleared where a sequence begins. -/
def enter (r : Registers) : Phase → Registers
  | .escape => { r with phase := .escape, header := {} }
  | .control .entry => { r with phase := .control .entry, header := {} }
  | .device .entry => { r with phase := .device .entry, header := {} }
  | .device .body => { r with phase := .device .body, header := r.header.close }
  | .command => { r with phase := .command, body := {} }
  | p => { r with phase := p }

/-- A byte inside a UTF-8 sequence. -/
def scalar (r : Registers) (b : UInt8) : Registers × List Action :=
  match r.expected with
  | [] => ({ r with phase := .ground }, [.print Utf8.replacement])
  | s :: rest =>
    if Utf8.within s b then
      if rest.isEmpty then
        ({ r with phase := .ground }, [.print (Char.ofNat (Utf8.extend r.code b))])
      else ({ r with code := Utf8.extend r.code b, expected := rest }, [])
    else ({ r with phase := .ground }, [.print Utf8.replacement])

/-- One byte. -/
def step (r : Registers) (b : UInt8) : Registers × List Action :=
  if r.phase = .scalar then r.scalar b
  else
    match r.phase.next b with
    | (none, effect) => r.perform b effect
    | (some p, effect) => ((r.perform b effect).1.enter p, r.leave ++ (r.perform b effect).2)

/-- The state as far as it can still be used. -/
def view (r : Registers) : Machine :=
  match r.phase with
  | .ground => .ground
  | .scalar => .scalar r.code r.expected
  | .escape => .escape
  | .escapeIntermediate => .escapeIntermediate r.header.intermediates
  | .control part => .control part r.header
  | .device part => .device part
  | .ignoredString => .ignoredString
  | .command => .command r.body

/-- Directly behind ESC the registers are clear. -/
def Clean (r : Registers) : Prop := r.phase = .escape → r.header = {}

/-! ### The registers step as the machine -/

/-- A sequence is handed on with its last parameter closed, unless it is to be ignored. -/
theorem dispatch_eq (h : Header) (b : UInt8) :
    h.dispatch b =
      if h.close.ignored then []
      else [.control h.close.params.groups h.close.intermediates b] := by
  rw [Header.dispatch, Header.close]
  cases h.params.isFull <;> simp

theorem collect_nil (b : UInt8) : Header.collect {} b = { intermediates := [b] } := rfl

/-- An escape sequence collects its intermediates as a control sequence does. -/
theorem collectEscape_eq (h : Header) (b : UInt8) :
    collectEscape h.intermediates b = (h.collect b).intermediates := by
  rw [collectEscape, Header.collect]
  split <;> rfl

/-- What a phase hands on when it is left does not depend on stale registers. -/
theorem leave_view (r : Registers) : r.view.leave = r.leave := by
  obtain ⟨phase, header, body, code, expected⟩ := r
  cases phase <;> rfl

theorem not_inScalar_view {r : Registers} (h : r.phase ≠ .scalar) : ¬ r.view.InScalar := by
  obtain ⟨phase, header, body, code, expected⟩ := r
  cases phase with
  | scalar => exact absurd rfl h
  | _ => exact id

/-- Outside of a character CAN and SUB end whatever is going on. -/
theorem step_cancel {r : Registers} {b : UInt8} (h : r.phase ≠ .scalar)
    (hb : b = 0x18 ∨ b = 0x1a) :
    r.step b = ({ r with phase := .ground }, r.leave ++ [.execute b]) := by
  rw [step, if_neg h, Phase.next, if_pos hb]
  rfl

/-- Outside of a character ESC begins anew, with clear registers. -/
theorem step_escape {r : Registers} (h : r.phase ≠ .scalar) :
    r.step 0x1b = ({ r with phase := .escape, header := {} }, r.leave) := by
  rw [step, if_neg h]
  exact congrArg _ (List.append_nil _)

/-- One byte does the same to the registers and to what can still be used of them. -/
theorem Clean.step {r : Registers} (h : r.Clean) (b : UInt8) :
    ((r.step b).1.view, (r.step b).2) = r.view.step b ∧ (r.step b).1.Clean := by
  by_cases hscalar : r.phase = .scalar
  · simp only [Registers.step, if_pos hscalar, view, Machine.step, scalar, Machine.fromScalar,
      Clean]
    grind
  by_cases hcancel : b = 0x18 ∨ b = 0x1a
  · rw [Registers.step_cancel hscalar hcancel,
      Machine.step_cancel (not_inScalar_view hscalar) hcancel, leave_view]
    exact ⟨rfl, fun hphase => by cases hphase⟩
  by_cases hescape : b = 0x1b
  · rw [hescape, Registers.step_escape hscalar, Machine.step_escape (not_inScalar_view hscalar),
      leave_view]
    exact ⟨rfl, fun _ => rfl⟩
  -- any other byte is sorted into the ranges of the phase
  obtain ⟨phase, header, body, code, expected⟩ := r
  simp only [Registers.step, Phase.next, if_neg hscalar, if_neg hcancel, if_neg hescape]
  cases phase with
  | scalar => exact absurd rfl hscalar
  | ground =>
    simp only [Phase.transition, view, Machine.step, if_neg hcancel, if_neg hescape,
      Machine.fromGround, Clean]
    grind [enter, perform, leave]
  | escape =>
    obtain rfl : header = {} := h rfl
    simp only [Phase.transition, view, Machine.step, if_neg hcancel, if_neg hescape,
      Machine.fromEscape, Clean]
    grind [enter, perform, leave, collect_nil]
  | escapeIntermediate =>
    simp only [Phase.transition, view, Machine.step, if_neg hcancel, if_neg hescape,
      Machine.fromEscapeIntermediate, collectEscape_eq, Clean]
    grind [enter, perform, leave]
  | control part =>
    cases part <;>
    simp only [Phase.transition, view, Machine.step, if_neg hcancel, if_neg hescape,
      Machine.fromControl, dispatch_eq, Clean] <;>
    grind [enter, perform, leave]
  | device part =>
    cases part <;>
    simp only [Phase.transition, view, Machine.step, if_neg hcancel, if_neg hescape,
      Machine.fromDevice, Clean] <;>
    grind [enter, perform, leave]
  | ignoredString =>
    simp only [Phase.transition, view, Machine.step, if_neg hcancel, if_neg hescape, Clean]
    grind [enter, perform, leave]
  | command =>
    simp only [Phase.transition, view, Machine.step, if_neg hcancel, if_neg hescape,
      Machine.fromCommand, Clean]
    grind [enter, perform, leave]

end Registers

/-! ### Under the tracker -/

/-- The machine with its registers, together with the tracker that guards it. -/
structure Guarded where
  tracker : Tracker := .ground
  registers : Registers := .fresh
deriving DecidableEq, Repr

namespace Guarded

/-- Nothing read yet. -/
def fresh : Guarded := {}

/-- Cancels the sequence in progress if the byte cannot continue it. -/
def resync (g : Guarded) (b : UInt8) : Guarded × List Action :=
  if g.tracker.rejects b then
    let (registers, actions) := g.registers.step can
    (⟨.ground, registers⟩, actions)
  else (g, [])

/-- One byte. -/
def step (g : Guarded) (b : UInt8) : Guarded × List Action :=
  let (g, cancelled) := g.resync b
  let (registers, actions) := g.registers.step b
  (⟨g.tracker.next b, registers⟩, cancelled ++ actions)

/-- The state after some bytes, and what is handed on meanwhile. -/
def run : List UInt8 → Guarded → Guarded × List Action
  | [], g => (g, [])
  | b :: rest, g =>
    ((run rest (g.step b).1).1, (g.step b).2 ++ (run rest (g.step b).1).2)

/-- The interpreter as far as the registers can still be used. -/
def view (g : Guarded) : Interpreter := ⟨g.tracker, g.registers.view⟩

/-- The tracker cancels a sequence in the registers as it does in the machine. -/
theorem resync_view {g : Guarded} (h : g.registers.Clean) (b : UInt8) :
    ((g.resync b).1.view, (g.resync b).2) = g.view.resync b ∧ (g.resync b).1.registers.Clean := by
  obtain ⟨tracker, registers⟩ := g
  obtain ⟨hview, hclean⟩ := h.step can
  by_cases hb : tracker.rejects b = true
  · simp only [resync, Interpreter.resync, view, if_pos hb, ← hview]
    exact ⟨trivial, hclean⟩
  · simp only [resync, Interpreter.resync, view, hb, Bool.false_eq_true, if_false]
    exact ⟨trivial, h⟩

/-- **One guarded byte** does the same to the registers and to the machine. -/
theorem step_view {g : Guarded} (h : g.registers.Clean) (b : UInt8) :
    ((g.step b).1.view, (g.step b).2) = g.view.step b ∧ (g.step b).1.registers.Clean := by
  obtain ⟨hresync, hclean⟩ := resync_view h b
  obtain ⟨hstep, hclean'⟩ := hclean.step b
  refine ⟨?_, hclean'⟩
  simp only [Interpreter.step, ← hresync]
  simp only [view, ← hstep]
  rfl

/-- **What is left in the registers is never read.**  The machine with its registers hands on what
the machine hands on whose states carry only what can still be used. -/
theorem run_view {g : Guarded} (h : g.registers.Clean) (text : List UInt8) :
    ((g.run text).1.view, (g.run text).2) = g.view.run text ∧ (g.run text).1.registers.Clean := by
  induction text generalizing g with
  | nil => exact ⟨rfl, h⟩
  | cons b text ih =>
    obtain ⟨hstep, hclean⟩ := step_view h b
    obtain ⟨hrest, hclean'⟩ := ih hclean
    refine ⟨?_, hclean'⟩
    rw [Interpreter.run, ← hstep]
    simp only [run, ← hrest]

end Guarded

end VirtualTerminal.Escape
