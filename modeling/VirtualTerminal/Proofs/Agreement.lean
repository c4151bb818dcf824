import Mathlib.Data.Bool.Basic
import VirtualTerminal.Proofs.Decoding
import VirtualTerminal.Proofs.Run

/-!
# Agreement — the tracker knows where the machine is

Tracker and machine read the same bytes and are related at every step (`Agree`):

* where the tracker sees an escape sequence, a control sequence or an operating-system command in
  progress, the machine is inside one, and the other way round;
* where the tracker sees a string, the machine is inside a device-control string or an ignored one;
* where the tracker sees nothing, the machine is in its ground state, inside a UTF-8 sequence, or
  still inside a device-control string.

The last is where the two part: the byte 0x9C ends any string for the tracker, but a device-control
string only behind its final byte for the machine.

One byte keeps the relation, unless it is an ASCII byte inside a UTF-8 sequence (`Agree.next`).
Decoded text has no such byte, for it is the encoding of characters (`wellFormed_operateAll`).  So
the argument goes character by character: between two characters the machine is inside no UTF-8
sequence (`Settled.run_encode`), and inside one it takes the bytes that are left of the character
(`Settled.run_front`).

**The tracker agrees** (`Emulator.interpreter_agrees_along`).
-/

namespace VirtualTerminal

namespace Escape

/-- The states of tracker and machine that belong together. -/
inductive Agree : Tracker → Machine → Prop
  | ground : Agree .ground .ground
  | scalar (code : Nat) (expected : List Utf8.Span) : Agree .ground (.scalar code expected)
  | escape : Agree .escape .escape
  | escapeIntermediate (intermediates : List UInt8) :
      Agree .escapeIntermediate (.escapeIntermediate intermediates)
  | control (part : ControlPart) (h : Header) : Agree .control (.control part h)
  | command (body : Command) : Agree .command (.command body)
  | device (part : DevicePart) : Agree .string (.device part)
  | ignoredString : Agree .string .ignoredString
  /-- The tracker has left a device-control string before the machine. -/
  | ahead (part : DevicePart) : Agree .ground (.device part)

namespace Machine

/-- Inside an escape or control sequence. -/
def InSequence : Machine → Prop
  | .escape | .escapeIntermediate _ | .control _ _ => True
  | _ => False

/-- Inside a UTF-8 sequence. -/
def InScalar : Machine → Prop
  | .scalar _ _ => True
  | _ => False

end Machine

/-- The characters among the actions. -/
def printed (actions : List Action) : List Char :=
  actions.filterMap fun
    | .print c => some c
    | _ => none

theorem printed_append (a b : List Action) : printed (a ++ b) = printed a ++ printed b :=
  List.filterMap_append

/-! ### One byte -/

/-- **One byte.**  What the tracker does not reject leaves tracker and machine in states that belong
together. -/
theorem Agree.next {t : Tracker} {m : Machine} {b : UInt8} (h : Agree t m)
    (hb : t.rejects b = false) (hm : m.InScalar → 0x80 ≤ b) :
    Agree (t.next b) (m.step b).1 := by
  -- in each pair of states the two sort the byte into ranges, and the ranges are split together
  cases h with
  | ground =>
    simp only [Tracker.next, Machine.step, Machine.fromGround]
    grind [Agree]
  | scalar code expected =>
    have hb := hm trivial
    simp only [Tracker.next, Machine.step, Machine.fromScalar]
    grind [Agree]
  | escape =>
    simp only [Tracker.next, Machine.step, Machine.fromEscape, Tracker.rejects] at hb ⊢
    grind [Agree]
  | escapeIntermediate intermediates =>
    simp only [Tracker.next, Machine.step, Machine.fromEscapeIntermediate, Tracker.rejects] at hb ⊢
    grind [Agree]
  | control part h =>
    simp only [Tracker.next, Machine.step, Machine.fromControl, Tracker.rejects] at hb ⊢
    grind [Agree]
  | command body =>
    simp only [Tracker.next, Machine.step, Machine.fromCommand]
    grind [Agree]
  | device part =>
    simp only [Tracker.next, Machine.step, Machine.fromDevice]
    grind [Agree]
  | ignoredString =>
    simp only [Tracker.next, Machine.step]
    grind [Agree]
  | ahead part =>
    simp only [Tracker.next, Machine.step, Machine.fromDevice]
    grind [Agree]

namespace Machine

variable {m : Machine}

/-- CAN and SUB mean the same outside a UTF-8 sequence, and so does ESC. -/
theorem step_cancel {b : UInt8} (hm : ¬ m.InScalar) (hb : b = 0x18 ∨ b = 0x1a) :
    m.step b = (.ground, m.leave ++ [.execute b]) := by
  cases m with
  | scalar code expected => exact absurd trivial hm
  | _ => simp only [step, if_pos hb]

theorem step_can (hm : ¬ m.InScalar) : m.step can = (.ground, m.leave ++ [.execute can]) :=
  step_cancel hm (.inl rfl)

theorem step_escape (hm : ¬ m.InScalar) : m.step 0x1b = (.escape, m.leave) := by
  cases m with
  | scalar code expected => exact absurd trivial hm
  | _ => rfl

theorem printed_leave (m : Machine) : printed m.leave = [] := by
  cases m <;> rfl

theorem printed_dispatch (h : Header) (b : UInt8) : printed (h.dispatch b) = [] := by
  rw [Header.dispatch]
  split <;> rfl

/-- Only the ground state prints, and only there a UTF-8 sequence begins. -/
theorem step_cases (hm : ¬ m.InScalar) (b : UInt8) :
    (m = .ground ∧ m.step b = fromGround b) ∨
      (¬ (m.step b).1.InScalar ∧ printed (m.step b).2 = []) := by
  by_cases hcancel : b = 0x18 ∨ b = 0x1a
  · rw [step_cancel hm hcancel, printed_append, printed_leave]
    exact .inr ⟨id, rfl⟩
  by_cases hescape : b = 0x1b
  · rw [hescape, step_escape hm]
    exact .inr ⟨id, printed_leave m⟩
  cases m with
  | ground => exact .inl ⟨rfl, by simp only [step, if_neg hcancel, if_neg hescape]⟩
  | scalar code expected => exact absurd trivial hm
  | escape =>
    right
    simp only [step, if_neg hcancel, if_neg hescape, fromEscape]
    grind [InScalar, printed]
  | escapeIntermediate intermediates =>
    right
    simp only [step, if_neg hcancel, if_neg hescape, fromEscapeIntermediate]
    grind [InScalar, printed]
  | control part h =>
    right
    simp only [step, if_neg hcancel, if_neg hescape, fromControl]
    grind [InScalar, printed, printed_dispatch]
  | device part =>
    right
    simp only [step, if_neg hcancel, if_neg hescape, fromDevice]
    grind [InScalar, printed]
  | ignoredString =>
    right
    simp only [step, if_neg hcancel, if_neg hescape]
    grind [InScalar, printed]
  | command body =>
    right
    simp only [step, if_neg hcancel, if_neg hescape, fromCommand]
    grind [InScalar, printed]

/-- An ASCII byte prints no other character than its own. -/
theorem fromGround_ascii {b : UInt8} (hb : b.toNat < 0x80) :
    (fromGround b).1 = .ground ∧ (printed (fromGround b).2).Sublist [Char.ofNat b.toNat] := by
  have hlt : b < 0x80 := UInt8.lt_iff_toNat_lt.mpr hb
  rw [fromGround, if_pos hlt]
  split
  · exact ⟨rfl, List.nil_sublist _⟩
  · exact ⟨rfl, List.Sublist.refl _⟩

theorem fromGround_lead {b : UInt8} {rs : List Utf8.Span} (hb : 0x80 ≤ b)
    (h : Utf8.continuations b = some rs) : fromGround b = (.scalar (Utf8.leadBits b) rs, []) := by
  rw [fromGround, if_neg (by grind), if_neg (by grind), h]

theorem fromGround_tail {b : UInt8} (hb : 0x80 ≤ b) (h : Utf8.continuations b = none) :
    fromGround b = (.ground, []) := by
  rw [fromGround, if_neg (by grind), if_neg (by grind), h]

end Machine

namespace Interpreter

/-- Tracker and machine know of the same escape sequence, control sequence or operating-system
command in progress. -/
structure Agrees (i : Interpreter) : Prop where
  escape : i.tracker = .escape ↔ i.machine = .escape
  escapeIntermediate :
    i.tracker = .escapeIntermediate ↔ ∃ intermediates, i.machine = .escapeIntermediate intermediates
  control : i.tracker = .control ↔ ∃ part h, i.machine = .control part h
  command : i.tracker = .command ↔ ∃ body, i.machine = .command body

theorem agrees_of_agree {i : Interpreter} (h : Agree i.tracker i.machine) : i.Agrees := by
  obtain ⟨tracker, machine⟩ := i
  cases h <;> constructor <;> simp

/-- A byte above 0x7f does not find the machine inside an escape or control sequence. -/
theorem not_inSequence_resync {i : Interpreter} (h : Agree i.tracker i.machine) {b : UInt8}
    (hb : 0x80 ≤ b) : ¬ (i.resync b).1.machine.InSequence := by
  obtain ⟨tracker, machine⟩ := i
  cases h <;> simp [resync, Tracker.rejects, hb, Machine.step, can, Machine.InSequence]

/-- Tracker and machine belong together, and the machine is inside no UTF-8 sequence. -/
structure Settled (i : Interpreter) : Prop where
  agree : Agree i.tracker i.machine
  complete : ¬ i.machine.InScalar

theorem settled_fresh : fresh.Settled := ⟨.ground, id⟩

variable {i : Interpreter} {b : UInt8}

/-- A byte that the tracker rejects finds the ground state; any other finds what was there. -/
theorem Settled.resync (h : i.Settled) (b : UInt8) :
    (i.resync b).1.Settled ∧ (i.resync b).1.tracker.rejects b = false ∧
      printed (i.resync b).2 = [] := by
  rw [Interpreter.resync]
  split
  · rw [Machine.step_can h.complete, printed_append, Machine.printed_leave]
    exact ⟨settled_fresh, Bool.and_false _, rfl⟩
  · exact ⟨h, Bool.not_eq_true _ ▸ ‹_›, rfl⟩

/-- One byte between two characters is read in the ground state, or prints nothing and begins no
UTF-8 sequence. -/
theorem Settled.step (h : i.Settled) (b : UInt8) :
    Agree (i.step b).1.tracker (i.step b).1.machine ∧
      (((i.step b).1.machine = (Machine.fromGround b).1 ∧
          printed (i.step b).2 = printed (Machine.fromGround b).2) ∨
        (¬ (i.step b).1.machine.InScalar ∧ printed (i.step b).2 = [])) := by
  obtain ⟨⟨hagree, hcomplete⟩, hrejects, hprinted⟩ := h.resync b
  refine ⟨hagree.next hrejects fun hm => absurd hm hcomplete, ?_⟩
  simp only [Interpreter.step, printed_append, hprinted, List.nil_append]
  rcases Machine.step_cases hcomplete b with ⟨-, heq⟩ | hnone
  · rw [heq]
    exact .inl ⟨rfl, rfl⟩
  · exact .inr hnone

/-! ### One character -/

theorem Settled.step_ascii (h : i.Settled) (hb : b.toNat < 0x80) :
    (i.step b).1.Settled ∧ (printed (i.step b).2).Sublist [Char.ofNat b.toNat] := by
  obtain ⟨hagree, ⟨hmachine, hprinted⟩ | ⟨hcomplete, hprinted⟩⟩ := h.step b
  · obtain ⟨hground, hsub⟩ := Machine.fromGround_ascii hb
    rw [hprinted]
    exact ⟨⟨hagree, by rw [hmachine, hground]; exact id⟩, hsub⟩
  · rw [hprinted]
    exact ⟨⟨hagree, hcomplete⟩, List.nil_sublist _⟩

theorem Settled.step_tail (h : i.Settled) (hb : Utf8.within Utf8.tail b = true) :
    (i.step b).1.Settled ∧ printed (i.step b).2 = [] := by
  obtain ⟨hagree, ⟨hmachine, hprinted⟩ | ⟨hcomplete, hprinted⟩⟩ := h.step b
  · rw [Machine.fromGround_tail (Utf8.le_of_tail hb) (Utf8.continuations_tail hb)]
      at hmachine hprinted
    exact ⟨⟨hagree, by rw [hmachine]; exact id⟩, hprinted⟩
  · exact ⟨⟨hagree, hcomplete⟩, hprinted⟩

theorem Settled.step_lead {rs : List Utf8.Span} (h : i.Settled) (hb : 0x80 ≤ b)
    (hrs : Utf8.continuations b = some rs) :
    (i.step b).1 = ⟨.ground, .scalar (Utf8.leadBits b) rs⟩ ∧ printed (i.step b).2 = [] ∨
      (i.step b).1.Settled ∧ printed (i.step b).2 = [] := by
  obtain ⟨hagree, ⟨hmachine, hprinted⟩ | ⟨hcomplete, hprinted⟩⟩ := h.step b
  · rw [Machine.fromGround_lead hb hrs] at hmachine hprinted
    refine .inl ⟨?_, hprinted⟩
    generalize (i.step b).1 = i' at hagree hmachine ⊢
    obtain ⟨tracker, machine⟩ := i'
    obtain rfl := hmachine
    cases hagree
    rfl
  · exact .inr ⟨⟨hagree, hcomplete⟩, hprinted⟩

/-- The bytes of a character that reach no ground state are passed over. -/
theorem Settled.run_tails (h : i.Settled) {bs : List UInt8}
    (hbs : ∀ x ∈ bs, Utf8.within Utf8.tail x = true) :
    (i.run bs).1.Settled ∧ printed (i.run bs).2 = [] := by
  induction bs generalizing i with
  | nil => exact ⟨h, rfl⟩
  | cons b bs ih =>
    obtain ⟨hstep, hprinted⟩ := h.step_tail (hbs b List.mem_cons_self)
    obtain ⟨hrest, hprinted'⟩ := ih hstep fun x hx => hbs x (List.mem_cons_of_mem _ hx)
    exact ⟨hrest, by rw [run, printed_append, hprinted, hprinted', List.append_nil]⟩

/-- A byte that belongs into the UTF-8 sequence in progress. -/
theorem step_scalar {code : Nat} {r : Utf8.Span} {rs : List Utf8.Span}
    (hb : Utf8.within r b = true) (htail : Utf8.within Utf8.tail b = true) :
    step ⟨.ground, .scalar code (r :: rs)⟩ b =
      if rs.isEmpty then (fresh, [.print (Char.ofNat (Utf8.extend code b))])
      else (⟨.ground, .scalar (Utf8.extend code b) rs⟩, []) := by
  have hnext : Tracker.ground.next b = .ground := by
    have := Utf8.le_of_tail htail
    simp only [Tracker.next]
    grind
  have hresync : resync ⟨.ground, .scalar code (r :: rs)⟩ b =
      (⟨.ground, .scalar code (r :: rs)⟩, []) :=
    if_neg (by simp [Tracker.rejects])
  rw [step, hresync]
  simp only [Machine.step, Machine.fromScalar, hb, if_true, hnext, List.nil_append]
  split <;> rfl

/-- The bytes a UTF-8 sequence still expects print its character. -/
theorem run_scalar {code : Nat} {rs : List Utf8.Span} {bs : List UInt8} (h : Utf8.Matches rs bs)
    (hbs : ∀ x ∈ bs, Utf8.within Utf8.tail x = true) (hne : bs ≠ []) :
    run bs ⟨.ground, .scalar code rs⟩ =
      (fresh, [.print (Char.ofNat (bs.foldl Utf8.extend code))]) := by
  induction h generalizing code with
  | nil => exact absurd rfl hne
  | @cons r rs b bs hb hrest ih =>
    rw [run, step_scalar hb (hbs b List.mem_cons_self)]
    cases hrest with
    | nil => rfl
    | cons hb' hrest' =>
      exact ih (fun x hx => hbs x (List.mem_cons_of_mem _ hx)) (List.cons_ne_nil _ _)

/-- Some of the bytes a UTF-8 sequence still expects leave it expecting the others. -/
theorem run_scalar_append {code : Nat} {rs : List Utf8.Span} {front back : List UInt8}
    (h : Utf8.Matches rs (front ++ back))
    (hfront : ∀ x ∈ front, Utf8.within Utf8.tail x = true) (hback : back ≠ []) :
    ∃ code' rs', run front ⟨.ground, .scalar code rs⟩ = (⟨.ground, .scalar code' rs'⟩, []) ∧
      Utf8.Matches rs' back ∧
      back.foldl Utf8.extend code' = (front ++ back).foldl Utf8.extend code := by
  induction front generalizing code rs with
  | nil => exact ⟨code, rs, rfl, h, rfl⟩
  | cons b front ih =>
    obtain - | ⟨hb, hrest⟩ := h
    rename_i r rs
    obtain ⟨code', rs', hrun, hmatches, hcode⟩ := @ih (Utf8.extend code b) rs hrest
      fun x hx => hfront x (List.mem_cons_of_mem _ hx)
    refine ⟨code', rs', ?_, hmatches, hcode⟩
    have hrs : rs.isEmpty = false := by
      rw [hrest.isEmpty_eq, List.isEmpty_eq_false_iff]
      exact List.append_ne_nil_of_right_ne_nil _ hback
    rw [run, step_scalar hb (hfront b List.mem_cons_self), hrs]
    simp only [Bool.false_eq_true, if_false, hrun, List.append_nil]

/-- **A front part of a character.**  It leaves the interpreter between two characters, or inside a
UTF-8 sequence in which the bytes left of the character print just that character. -/
theorem Settled.run_front (h : i.Settled) {c : Char} {front back : List UInt8}
    (henc : String.utf8EncodeChar c = front ++ back) (hfront : front ≠ []) :
    ((i.run front).1.Settled ∧ (printed (i.run front).2).Sublist [c]) ∨
      (back ≠ [] ∧ printed (i.run front).2 = [] ∧
        (∃ code expected, (i.run front).1 = ⟨.ground, .scalar code expected⟩) ∧
        (i.run front).1.run back = (fresh, [.print c])) := by
  obtain ⟨b, rest, rs, henc', hrs, hmatches⟩ := Utf8.exists_matches_encode c
  obtain ⟨front, rfl⟩ : ∃ front', front = b :: front' := by
    cases front with
    | nil => exact absurd rfl hfront
    | cons b' front => exact ⟨front, by rw [(List.cons.inj (henc.symm.trans henc')).1]⟩
  obtain rfl : front ++ back = rest := (List.cons.inj (henc.symm.trans henc')).2
  have hchar : Utf8.scalarOf b (front ++ back) = c := Utf8.scalarOf_encode henc
  have htails := Utf8.tail_of_mem_encode henc
  have hfronts : ∀ x ∈ front, Utf8.within Utf8.tail x = true := fun x hx =>
    htails x (List.mem_append_left _ hx)
  rw [run]
  rcases Nat.lt_or_ge b.toNat 0x80 with hascii | hlead
  · -- the character is this one byte
    rw [Utf8.continuations_one hascii] at hrs
    obtain rfl := Option.some.inj hrs
    obtain ⟨rfl, rfl⟩ := List.append_eq_nil_iff.mp hmatches.eq_nil
    obtain ⟨hstep, hprinted⟩ := h.step_ascii hascii
    rw [List.append_nil] at hchar
    rw [← Utf8.scalarOf_ascii hascii, hchar] at hprinted
    exact .inl ⟨hstep, by rwa [run, List.append_nil]⟩
  obtain ⟨hscalar, hprinted⟩ | ⟨hstep, hprinted⟩ :=
    h.step_lead (UInt8.le_iff_toNat_le.mpr hlead) hrs
  · rw [hscalar, printed_append, hprinted, List.nil_append]
    by_cases hback : back = []
    · -- the character is complete, and the machine prints it
      subst hback
      rw [List.append_nil] at hmatches hchar
      have hne : front ≠ [] := by
        rintro rfl
        cases hmatches
        exact Utf8.continuations_ne_nil hlead hrs
      rw [run_scalar hmatches hfronts hne]
      left
      refine ⟨settled_fresh, ?_⟩
      rw [show Char.ofNat (front.foldl Utf8.extend (Utf8.leadBits b)) = c from hchar]
      exact List.Sublist.refl _
    · obtain ⟨code, expected, hrun, hrest, hcode⟩ := run_scalar_append hmatches hfronts hback
      rw [hrun, run_scalar hrest (fun x hx => htails x (List.mem_append_right _ hx)) hback, hcode]
      exact .inr ⟨hback, rfl, ⟨code, expected, rfl⟩, by rw [← hchar, Utf8.scalarOf]⟩
  · -- the machine reads something else, and passes over the bytes
    obtain ⟨hrest, hprinted'⟩ := hstep.run_tails hfronts
    refine .inl ⟨hrest, ?_⟩
    rw [printed_append, hprinted, hprinted']
    exact List.nil_sublist _

/-! ### Decoded text -/

/-- **A text.**  It leaves the interpreter between two characters, and what is printed is text. -/
theorem Settled.run_encode (h : i.Settled) (cs : List Char) :
    (i.run (Utf8.encode cs)).1.Settled ∧ (printed (i.run (Utf8.encode cs)).2).Sublist cs := by
  induction cs generalizing i with
  | nil => exact ⟨h, List.Sublist.refl _⟩
  | cons c cs ih =>
    obtain ⟨hchar, hprinted⟩ | ⟨hback, -⟩ :=
      h.run_front (List.append_nil _).symm (Utf8.encode_ne_nil c)
    · obtain ⟨hrest, hprinted'⟩ := ih hchar
      rw [Utf8.encode_cons, run_append, printed_append]
      exact ⟨hrest, hprinted.append hprinted'⟩
    · exact absurd rfl hback

/-- **A text read up to some byte.**  Tracker and machine belong together, and where the machine is
inside a UTF-8 sequence, the other bytes of a character follow and print it. -/
theorem Settled.run_cut (h : i.Settled) {cs : List Char} {before after : List UInt8}
    (hcs : Utf8.encode cs = before ++ after) :
    Agree (i.run before).1.tracker (i.run before).1.machine ∧
      ((i.run before).1.machine.InScalar →
        ∃ cs₁ c cs₂ front back, cs = cs₁ ++ c :: cs₂ ∧
          before = Utf8.encode cs₁ ++ front ∧ after = back ++ Utf8.encode cs₂ ∧
          String.utf8EncodeChar c = front ++ back ∧ front ≠ [] ∧ back ≠ [] ∧
          (i.run before).1.run back = (fresh, [.print c])) := by
  obtain ⟨cs₁, front, rfl, hfront⟩ := Utf8.exists_of_encode_eq_append hcs
  obtain ⟨hbefore, -⟩ := h.run_encode cs₁
  rw [run_append]
  obtain rfl | ⟨hne, c, cs₂, back, rfl, henc, rfl⟩ := hfront
  · exact ⟨hbefore.agree, fun hm => absurd hm hbefore.complete⟩
  · obtain ⟨hsettled, -⟩ | ⟨hback, -, ⟨code, expected, hscalar⟩, hrun⟩ :=
      hbefore.run_front henc hne
    · exact ⟨hsettled.agree, fun hm => absurd hm hsettled.complete⟩
    · refine ⟨?_, fun _ => ⟨cs₁, c, cs₂, front, back, rfl, rfl, rfl, henc, hne, hback, hrun⟩⟩
      rw [hscalar]
      exact .scalar code expected

end Interpreter

end Escape

/-! ### The text of a run -/

namespace Decoder

/-- The decoder after an operation, and the text it decodes. -/
def operate (d : Decoder) : Operation → Decoder × List UInt8
  | .call (.feed chunk) => d.decode chunk
  | .call .finish => d.finish
  | .call (.resize _) => (d, [])
  | .change _ => (d, [])

/-- The decoder after a sequence of operations, and the text it decodes. -/
def operateAll : List Operation → Decoder → Decoder × List UInt8
  | [], d => (d, [])
  | op :: rest, d =>
    ((operateAll rest (d.operate op).1).1,
      (d.operate op).2 ++ (operateAll rest (d.operate op).1).2)

theorem wellFormed_operate (d : Decoder) (op : Operation) : Utf8.WellFormed (d.operate op).2 := by
  cases op with
  | call c =>
    cases c with
    | feed chunk => exact Utf8.wellFormed_repair _
    | finish => exact Utf8.wellFormed_latin1 _
    | resize d => exact Utf8.wellFormed_nil
  | change c => exact Utf8.wellFormed_nil

theorem wellFormed_operateAll (ops : List Operation) (d : Decoder) :
    Utf8.WellFormed (d.operateAll ops).2 := by
  induction ops generalizing d with
  | nil => exact Utf8.wellFormed_nil
  | cons op ops ih => exact (d.wellFormed_operate op).append (ih _)

end Decoder

namespace Reader

theorem operate_reader (r : Reader) (op : Operation) :
    (r.operate op).1 =
      ⟨(r.decoder.operate op).1, (r.interpreter.run (r.decoder.operate op).2).1⟩ := by
  cases op with
  | call c => cases c <;> rfl
  | change c => rfl

/-- A reader decodes the operations and interprets the text. -/
theorem operateAll_reader (ops : List Operation) (r : Reader) :
    (r.operateAll ops).1 =
      ⟨(r.decoder.operateAll ops).1, (r.interpreter.run (r.decoder.operateAll ops).2).1⟩ := by
  induction ops generalizing r with
  | nil => rfl
  | cons op ops ih =>
    rw [operateAll, ih, operate_reader, Decoder.operateAll, Escape.Interpreter.run_append]

end Reader

namespace Emulator

open Escape (Interpreter)

/-- The interpreter of a run has read the text of the run. -/
theorem interpreter_of_operateAll? {e e' : Emulator} {ops : List Operation}
    (h : e.operateAll? ops = some e') :
    e'.interpreter = (e.interpreter.run (e.decoder.operateAll ops).2).1 := by
  rw [operateAll?_eq] at h
  obtain ⟨s, -, rfl⟩ := Option.map_eq_some_iff.mp h
  rw [Reader.operateAll_reader]
  rfl

/-- **The tracker agrees with the machine all along.**  Take any sequence of operations from a fresh
emulator.  What the decoder makes of their bytes is a text, and the interpreter has read it byte by
byte.  After each byte

* tracker and machine know of the same sequence in progress,
* a byte above 0x7f would not find the machine inside an escape or control sequence, and
* where the machine is inside a UTF-8 sequence, the text goes on with the other bytes of one of its
  characters, and these print that character and lead back to the ground state.

So what is printed are characters of the text, in their order: a replacement character is printed
only where the text has one. -/
theorem interpreter_agrees_along (d : Dimensions) (ops : List Operation) :
    ∃ cs : List Char, (Decoder.fresh.operateAll ops).2 = Utf8.encode cs ∧
      (∀ e, (ofDimensions d).operateAll? ops = some e →
        e.interpreter = (Interpreter.fresh.run (Utf8.encode cs)).1) ∧
      (∀ before after, Utf8.encode cs = before ++ after →
        let i := (Interpreter.fresh.run before).1
        i.Agrees ∧
        (∀ b : UInt8, 0x80 ≤ b → ¬ (i.resync b).1.machine.InSequence) ∧
        (i.machine.InScalar →
          ∃ cs₁ c cs₂ front back, cs = cs₁ ++ c :: cs₂ ∧
            before = Utf8.encode cs₁ ++ front ∧ after = back ++ Utf8.encode cs₂ ∧
            String.utf8EncodeChar c = front ++ back ∧ front ≠ [] ∧ back ≠ [] ∧
            i.run back = (.fresh, [.print c]))) ∧
      (Escape.printed (Interpreter.fresh.run (Utf8.encode cs)).2).Sublist cs := by
  obtain ⟨cs, hcs⟩ := Utf8.wellFormed_iff.mp (Decoder.wellFormed_operateAll ops .fresh)
  refine ⟨cs, hcs, fun e he => hcs ▸ interpreter_of_operateAll? he, ?_,
    (Interpreter.settled_fresh.run_encode cs).2⟩
  intro before after hcut
  obtain ⟨hagree, hscalar⟩ := Interpreter.settled_fresh.run_cut hcut
  exact ⟨Interpreter.agrees_of_agree hagree, fun b => Interpreter.not_inSequence_resync hagree,
    hscalar⟩

end Emulator

end VirtualTerminal
