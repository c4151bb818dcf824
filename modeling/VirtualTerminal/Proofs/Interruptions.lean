import VirtualTerminal.Proofs.Reset
import VirtualTerminal.Proofs.Strings

/-!
# Interruptions — control characters inside a sequence

A control character other than CAN, SUB and ESC may stand anywhere inside an escape or control
sequence.  It is obeyed where it stands, and tracker and machine stay where they are
(`Interpreter.step_control`).

The bytes of a sequence up to its final one are gathered: none of them hands anything on
(`Gathers`).  So a run over them with control characters in between hands on these, and ends where
the run without them ends (`Gathers.run_interleaved`); and since the final byte asks for something
only then, the sequence comes behind all control characters in it.

**An interrupted sequence does what the control characters and then the sequence do**
(`Parser.feedAll?_interrupted`).
-/

namespace VirtualTerminal

namespace Escape

/-- A control character that is obeyed wherever it stands in a sequence. -/
def Obeyed (b : UInt8) : Prop := b < 0x20 ∧ b ≠ 0x18 ∧ b ≠ 0x1a ∧ b ≠ 0x1b

/-- The last list is made of the first two, each of them in its own order. -/
inductive Interleaved : List UInt8 → List UInt8 → List UInt8 → Prop
  | nil : Interleaved [] [] []
  | left {b : UInt8} {as bs w : List UInt8} (h : Interleaved as bs w) :
      Interleaved (b :: as) bs (b :: w)
  | right {b : UInt8} {as bs w : List UInt8} (h : Interleaved as bs w) :
      Interleaved as (b :: bs) (b :: w)

/-- Whatever is interleaved comes from one of the two. -/
theorem Interleaved.mem {as bs w : List UInt8} (h : Interleaved as bs w) {b : UInt8} (hb : b ∈ w) :
    b ∈ as ∨ b ∈ bs := by
  induction h with
  | nil => cases hb
  | left _ ih => grind
  | right _ ih => grind

namespace Interpreter

variable {i k : Interpreter} {b : UInt8}

/-- Inside an escape or control sequence. -/
structure InSequence (i : Interpreter) : Prop where
  agree : Agree i.tracker i.machine
  machine : i.machine.InSequence

/-- An ASCII byte is rejected by no tracker. -/
theorem step_ascii (i : Interpreter) (hb : b < 0x80) :
    i.step b = (⟨i.tracker.next b, (i.machine.step b).1⟩, (i.machine.step b).2) := by
  have hresync : i.resync b = (i, []) := if_neg (by
    rw [Tracker.rejects, decide_eq_false (UInt8.not_le.mpr hb)]
    exact Bool.false_ne_true)
  simp only [step, hresync, List.nil_append]

/-- **A control character is obeyed**, and nothing else happens. -/
theorem step_control (h : i.InSequence ∨ i = fresh) (hb : Obeyed b) :
    i.step b = (i, [.execute b]) := by
  obtain ⟨hlow, hcan, hsub, hesc⟩ := hb
  have hcancel : ¬ (b = 0x18 ∨ b = 0x1a) := not_or.mpr ⟨hcan, hsub⟩
  obtain ⟨t, m⟩ := i
  -- where a sequence is in progress, tracker and machine each say so
  have hkept : t.next b = t ∧ m.step b = (m, [.execute b]) := by
    rcases h with ⟨hagree, hm⟩ | hfresh
    · cases hagree with
      | escape =>
        simp only [Tracker.next, Machine.step, if_neg hcancel, if_neg hesc, Machine.fromEscape]
        grind
      | escapeIntermediate intermediates =>
        simp only [Tracker.next, Machine.step, if_neg hcancel, if_neg hesc,
          Machine.fromEscapeIntermediate]
        grind
      | control part h =>
        simp only [Tracker.next, Machine.step, if_neg hcancel, if_neg hesc, Machine.fromControl]
        grind
      | _ => exact hm.elim
    · obtain ⟨rfl, rfl⟩ := Interpreter.mk.inj hfresh
      simp only [Tracker.next, Machine.step, if_neg hcancel, if_neg hesc, Machine.fromGround]
      grind
  rw [step_ascii _ (UInt8.lt_trans hlow (by decide)), hkept.1, hkept.2]

/-- Outside of a sequence control characters are executed one by one. -/
theorem run_controls {bs : List UInt8} (hbs : ∀ b ∈ bs, Obeyed b) :
    fresh.run bs = (fresh, bs.map .execute) := by
  induction bs with
  | nil => rfl
  | cons b bs ih =>
    obtain ⟨hb, hbs⟩ := List.forall_mem_cons.mp hbs
    rw [run, step_control (.inr rfl) hb, ih hbs]
    rfl

/-- The bytes lead from one state to the other, all inside a sequence, and nothing is handed on. -/
inductive Gathers : Interpreter → List UInt8 → Interpreter → Prop
  | nil {i : Interpreter} (h : i.InSequence) : Gathers i [] i
  | cons {i j k : Interpreter} {b : UInt8} {bs : List UInt8} (h : i.InSequence)
      (hstep : i.step b = (j, [])) (hrest : Gathers j bs k) : Gathers i (b :: bs) k

namespace Gathers

variable {bs controls w : List UInt8}

theorem inSequence (h : Gathers i bs k) : i.InSequence := by
  cases h with
  | nil h => exact h
  | cons h => exact h

/-- What is gathered hands nothing on. -/
theorem run_eq (h : Gathers i bs k) : i.run bs = (k, []) := by
  induction h with
  | nil => rfl
  | cons _ hstep _ ih =>
    rw [run, hstep, ih]
    rfl

/-- **Control characters do not disturb what is gathered.** -/
theorem run_interleaved (h : Gathers i bs k) (hw : Interleaved controls bs w)
    (hcontrols : ∀ b ∈ controls, Obeyed b) : i.run w = (k, controls.map .execute) := by
  -- a control character keeps the state, so what is left to gather is gathered from the same one
  induction hw generalizing i with
  | nil =>
    cases h
    rfl
  | left _ ih =>
    obtain ⟨hb, hcontrols⟩ := List.forall_mem_cons.mp hcontrols
    rw [run, step_control (.inl h.inSequence) hb, ih h hcontrols]
    rfl
  | right _ ih =>
    cases h with
    | cons _ hstep hrest =>
      rw [run, hstep, ih hrest hcontrols]
      rfl

end Gathers

end Interpreter

/-! ### Sequences -/

/-- A complete escape or control sequence. -/
inductive Sequence where
  /-- `ESC [`, parameter and intermediate bytes in any order, and a final byte. -/
  | control (params : List UInt8) (final : UInt8) (hparams : ∀ b ∈ params, 0x20 ≤ b ∧ b ≤ 0x3f)
      (hfinal : 0x40 ≤ final ∧ final ≤ 0x7e)
  /-- ESC, intermediate bytes and a final byte that begins nothing else. -/
  | escape (intermediates : List UInt8) (final : UInt8)
      (hintermediates : ∀ b ∈ intermediates, 0x20 ≤ b ∧ b ≤ 0x2f)
      (hfinal : 0x30 ≤ final ∧ final ≤ 0x7e)
      (hcomplete : intermediates = [] → final ∉ [0x5b, 0x5d, 0x50, 0x58, 0x5e, 0x5f])

namespace Sequence

/-- The bytes between ESC and the final byte. -/
def middle : Sequence → List UInt8
  | .control params .. => 0x5b :: params
  | .escape intermediates .. => intermediates

/-- The byte that ends the sequence. -/
def final : Sequence → UInt8
  | .control _ final .. | .escape _ final .. => final

/-- The sequence with these bytes between ESC and its final byte. -/
def around (q : Sequence) (body : List UInt8) : List UInt8 := 0x1b :: body ++ [q.final]

/-- The bytes of the sequence. -/
def bytes (q : Sequence) : List UInt8 := q.around q.middle

theorem around_ne_nil (q : Sequence) (body : List UInt8) : q.around body ≠ [] :=
  List.cons_ne_nil _ _

theorem append_bytes_ne_nil (q : Sequence) (w : List UInt8) : w ++ q.bytes ≠ [] :=
  List.append_ne_nil_of_right_ne_nil w (q.around_ne_nil q.middle)

/-- All of them are ASCII. -/
theorem middle_lt (q : Sequence) : ∀ b ∈ q.middle, b < 0x80 := by
  cases q with
  | control params final hparams =>
    refine List.forall_mem_cons.mpr ⟨by decide, fun b hb => ?_⟩
    have := hparams b hb
    grind
  | escape intermediates final hintermediates =>
    intro b hb
    have := hintermediates b hb
    grind

theorem final_lt (q : Sequence) : q.final < 0x80 := by
  cases q with
  | control params final _ hfinal => exact UInt8.lt_of_le_of_lt hfinal.2 (by decide)
  | escape intermediates final _ hfinal => exact UInt8.lt_of_le_of_lt hfinal.2 (by decide)

end Sequence

namespace Interpreter

theorem inSequence_control (part : ControlPart) (h : Header) :
    InSequence ⟨.control, .control part h⟩ := ⟨.control part h, trivial⟩

theorem inSequence_escapeIntermediate (intermediates : List UInt8) :
    InSequence ⟨.escapeIntermediate, .escapeIntermediate intermediates⟩ :=
  ⟨.escapeIntermediate intermediates, trivial⟩

/-- Parameters are gathered, whatever they are. -/
theorem gathers_params {params : List UInt8} (hparams : ∀ b ∈ params, 0x20 ≤ b ∧ b ≤ 0x3f)
    (part : ControlPart) (h : Header) :
    ∃ part' h', Gathers ⟨.control, .control part h⟩ params ⟨.control, .control part' h'⟩ := by
  induction params generalizing part h with
  | nil => exact ⟨part, h, .nil (inSequence_control part h)⟩
  | cons b params ih =>
    obtain ⟨hb, hparams⟩ := List.forall_mem_cons.mp hparams
    have hcancel : ¬ (b = 0x18 ∨ b = 0x1a) := by grind
    have hesc : ¬ b = 0x1b := by grind
    -- the byte may change the part and the header, but it ends no sequence
    obtain ⟨part₁, h₁, hmachine⟩ : ∃ part₁ h₁,
        (Machine.control part h).step b = (.control part₁ h₁, []) := by
      simp only [Machine.step, if_neg hcancel, if_neg hesc, Machine.fromControl,
        if_neg (show ¬ b < 0x20 by grind), if_neg (show ¬ 0x7f ≤ b by grind),
        if_neg (show ¬ 0x40 ≤ b by grind)]
      cases part <;> dsimp only <;> (repeat' split) <;> exact ⟨_, _, rfl⟩
    have htracker : Tracker.control.next b = .control := by
      simp only [Tracker.next]
      grind
    obtain ⟨part', h', hrest⟩ := ih hparams part₁ h₁
    refine ⟨part', h', .cons (inSequence_control part h) ?_ hrest⟩
    rw [step_ascii _ (by grind), hmachine, htracker]

/-- Intermediates behind an escape are gathered, whatever they are. -/
theorem gathers_intermediates {more : List UInt8} (hmore : ∀ b ∈ more, 0x20 ≤ b ∧ b ≤ 0x2f)
    (intermediates : List UInt8) :
    ∃ intermediates', Gathers ⟨.escapeIntermediate, .escapeIntermediate intermediates⟩ more
      ⟨.escapeIntermediate, .escapeIntermediate intermediates'⟩ := by
  induction more generalizing intermediates with
  | nil => exact ⟨intermediates, .nil (inSequence_escapeIntermediate intermediates)⟩
  | cons b more ih =>
    obtain ⟨hb, hmore⟩ := List.forall_mem_cons.mp hmore
    obtain ⟨intermediates', hrest⟩ := ih hmore (collectEscape intermediates b)
    refine ⟨intermediates', .cons (inSequence_escapeIntermediate intermediates) ?_ hrest⟩
    rw [step_ascii _ (by grind)]
    simp only [Tracker.next, Machine.step, Machine.fromEscapeIntermediate]
    grind

/-- **A sequence is gathered up to its final byte**, and that one ends it. -/
theorem gathers_middle (q : Sequence) :
    ∃ k, Gathers ⟨.escape, .escape⟩ q.middle k ∧ (k.step q.final).1 = fresh := by
  have hopen : InSequence ⟨.escape, .escape⟩ := ⟨.escape, trivial⟩
  cases q with
  | control params final hparams hfinal =>
    obtain ⟨part, h, hgathers⟩ := gathers_params hparams .entry {}
    refine ⟨_, .cons hopen rfl hgathers, ?_⟩
    rw [Sequence.final, step_ascii _ (by grind)]
    simp only [Tracker.next, Machine.step, Machine.fromControl, fresh]
    grind
  | escape intermediates final hintermediates hfinal hcomplete =>
    cases intermediates with
    | nil =>
      -- directly behind ESC the final byte must not begin anything else
      refine ⟨_, .nil hopen, ?_⟩
      have hothers := hcomplete rfl
      simp only [List.mem_cons, List.not_mem_nil, or_false, not_or] at hothers
      rw [Sequence.final, step_ascii _ (by grind)]
      simp only [Tracker.next, Machine.step, Machine.fromEscape, fresh]
      grind
    | cons b more =>
      obtain ⟨hb, hmore⟩ := List.forall_mem_cons.mp hintermediates
      obtain ⟨intermediates', hgathers⟩ := gathers_intermediates hmore [b]
      refine ⟨_, .cons hopen ?_ hgathers, ?_⟩
      · rw [step_ascii _ (by grind)]
        simp only [Tracker.next, Machine.step, Machine.fromEscape]
        grind
      · rw [Sequence.final, step_ascii _ (by grind)]
        simp only [Tracker.next, Machine.step, Machine.fromEscapeIntermediate, fresh]
        grind

/-- **An interrupted sequence is read as the control characters and then the sequence.** -/
theorem run_around (q : Sequence) {controls body : List UInt8}
    (hcontrols : ∀ b ∈ controls, Obeyed b) (hbody : Interleaved controls q.middle body) :
    fresh.run (q.around body) = fresh.run (controls ++ q.bytes) ∧
      (fresh.run (q.around body)).1 = fresh := by
  obtain ⟨k, hgathers, hend⟩ := gathers_middle q
  have hopen : fresh.step 0x1b = (⟨.escape, .escape⟩, []) := rfl
  have hrun : fresh.run (q.around body) =
      ((k.step q.final).1, controls.map .execute ++ (k.step q.final).2) := by
    rw [Sequence.around, List.cons_append, run, hopen, run_append,
      hgathers.run_interleaved hbody hcontrols]
    simp only [run, List.nil_append, List.append_nil]
  have hplain : fresh.run q.bytes = ((k.step q.final).1, (k.step q.final).2) := by
    rw [Sequence.bytes, Sequence.around, List.cons_append, run, hopen, run_append, hgathers.run_eq]
    simp only [run, List.nil_append, List.append_nil]
  rw [hrun, run_append, run_controls hcontrols, hplain]
  exact ⟨rfl, hend⟩

end Interpreter

end Escape

/-! ### What is held back before it -/

namespace Utf8

theorem repair_ascii {w : List UInt8} (hw : ∀ b ∈ w, b < 0x80) : repair w = (w, []) := by
  have hsame : w.flatMap latin1 = w := by
    induction w with
    | nil => rfl
    | cons b w ih =>
      obtain ⟨hb, hw⟩ := List.forall_mem_cons.mp hw
      rw [List.flatMap_cons, ih hw, latin1, encode_one (UInt8.lt_iff_toNat_lt.mp hb),
        UInt8.ofNat_toNat]
      rfl
  rw [← hsame, flatMap_latin1, repair_encode]

/-- What is held back is given up before ASCII text. -/
theorem repair_held_ascii {held w : List UInt8} (h : repair held = ([], held)) (hne : w ≠ [])
    (hw : ∀ b ∈ w, b < 0x80) : repair (held ++ w) = (held.flatMap latin1 ++ w, []) := by
  obtain ⟨x, w, rfl⟩ := List.exists_cons_of_ne_nil hne
  have hx : within tail x = false := Bool.eq_false_iff.mpr fun htail => by
    have hlt := hw x List.mem_cons_self
    have hle := le_of_tail htail
    grind
  rw [repair_held_append h hx, repair_ascii hw]

end Utf8

namespace Reader

variable {r : Reader}

/-- With no sequence in progress, ASCII text is read as from the start, behind what was held
back. -/
theorem feed_ascii (hr : r.interpreter = .fresh) (hh : r.decoder.Holds) {w : List UInt8}
    (hne : w ≠ []) (hw : ∀ b ∈ w, b < 0x80) :
    r.feed w = ((fresh.read w).1,
      (fresh.read (r.decoder.held.flatMap Utf8.latin1)).2 ++ (fresh.read w).2) := by
  obtain ⟨decoder, interpreter⟩ := r
  obtain rfl : interpreter = .fresh := hr
  have hdecode : decoder.decode w = (.fresh, decoder.held.flatMap Utf8.latin1 ++ w) := by
    rw [Decoder.decode, Utf8.repair_held_ascii hh hne hw]
    rfl
  -- characters are printed, and leave the reader as it was
  have hheld : (fresh.read (decoder.held.flatMap Utf8.latin1)).1 = fresh := by
    rw [Utf8.flatMap_latin1, read, fresh, Escape.Interpreter.run_text fun c hc => ?_]
    obtain ⟨b, hb, rfl⟩ := List.mem_map.mp hc
    have hle := UInt8.le_iff_toNat_le.mp (Utf8.le_of_mem_held hh b hb)
    have hlt := b.toNat_lt
    have hval : (Char.ofNat b.toNat).toNat = b.toNat := Utf8.toNat_val_ofNat (.inl (by omega))
    rw [hval]
    exact Nat.le_trans (by decide) hle
  rw [feed, hdecode]
  change fresh.read _ = _
  rw [read_append, hheld]

/-- **An interrupted sequence is read as the control characters and then the sequence**, and nothing
is in progress behind it. -/
theorem feed_around (hr : r.interpreter = .fresh) (hh : r.decoder.Holds) (q : Escape.Sequence)
    {controls body : List UInt8} (hcontrols : ∀ b ∈ controls, Escape.Obeyed b)
    (hbody : Escape.Interleaved controls q.middle body) :
    r.feed (q.around body) = r.feed (controls ++ q.bytes) ∧
      (r.feed (q.around body)).1 = fresh := by
  have hlow : ∀ b ∈ controls, b < 0x80 := fun b hb =>
    UInt8.lt_trans (hcontrols b hb).1 (by decide)
  have hascii : ∀ body : List UInt8, (∀ b ∈ body, b < 0x80) → ∀ b ∈ q.around body, b < 0x80 :=
    fun body hbody => List.forall_mem_append.mpr
      ⟨List.forall_mem_cons.mpr ⟨by decide, hbody⟩, List.forall_mem_singleton.mpr q.final_lt⟩
  have hinterrupted : ∀ b ∈ q.around body, b < 0x80 := hascii body fun b hb =>
    (hbody.mem hb).elim (hlow b) (q.middle_lt b)
  have hplain : ∀ b ∈ controls ++ q.bytes, b < 0x80 :=
    List.forall_mem_append.mpr ⟨hlow, hascii q.middle q.middle_lt⟩
  obtain ⟨hrun, hend⟩ := Escape.Interpreter.run_around q hcontrols hbody
  rw [feed_ascii hr hh (q.around_ne_nil body) hinterrupted,
    feed_ascii hr hh (q.append_bytes_ne_nil controls) hplain]
  simp only [read, fresh] at hrun hend ⊢
  rw [← hrun, hend]
  exact ⟨rfl, rfl⟩

end Reader

namespace Parser

variable {p : Parser}

/-- No sequence is in progress; the decoder may hold back the beginning of a character. -/
structure Grounded (p : Parser) : Prop where
  tracker : p.guarded.tracker = .ground
  phase : p.guarded.registers.phase = .ground
  holds : p.decoder.Holds

theorem Reachable.grounded (h : p.Reachable) (ht : p.guarded.tracker = .ground)
    (hp : p.guarded.registers.phase = .ground) : p.Grounded :=
  ⟨ht, hp, h.wellFormed.2⟩

theorem Grounded.clean (h : p.Grounded) : p.Clean := fun hphase => by
  rw [h.phase] at hphase
  cases hphase

/-- Where no sequence is in progress, leftover registers do not matter. -/
theorem Grounded.interpreter_eq (h : p.Grounded) : p.emulator.interpreter = .fresh := by
  change p.guarded.view = _
  rw [Escape.Guarded.view, Escape.Registers.view, h.tracker, h.phase]
  rfl

/-- A parser whose reader is fresh is at rest. -/
theorem atRest_of_reader (h : p.emulator.reader = .fresh) : p.AtRest := by
  obtain ⟨⟨held⟩, ⟨tracker, registers⟩, screen⟩ := p
  obtain ⟨hdecoder, hinterpreter⟩ := Reader.mk.inj h
  obtain ⟨htracker, hmachine⟩ := Escape.Interpreter.mk.inj hinterpreter
  refine ⟨htracker, ?_, congrArg Decoder.held hdecoder⟩
  obtain ⟨phase, header, body, code, expected⟩ := registers
  cases phase with
  | ground => rfl
  | _ => cases hmachine

/-- **Control characters inside a sequence are obeyed in place and do not disturb it.**  Take a
parser in the ground state, and put control characters other than CAN, SUB and ESC anywhere between
the ESC of a complete escape or control sequence and its final byte.  However these bytes are cut
into chunks, they give the screen and the outcome that the control characters and then the sequence
give.  The parser may also be taken without its registers: then decoder, tracker and machine are the
same afterwards as well.  And behind the sequence the parser is at rest. -/
theorem feedAll?_interrupted (hp : p.Grounded) (q : Escape.Sequence)
    {controls body : List UInt8} (hcontrols : ∀ b ∈ controls, Escape.Obeyed b)
    (hbody : Escape.Interleaved controls q.middle body) {chunks plain : List (List UInt8)}
    (hchunks : chunks.flatten = q.around body) (hplain : plain.flatten = controls ++ q.bytes) :
    (p.feedAll? chunks).map (fun (p', o) => (p'.screen, o)) =
        (p.feedAll? plain).map (fun (p', o) => (p'.screen, o)) ∧
      p.emulator.feedAll? chunks = p.emulator.feedAll? plain ∧
      ∀ p' o, p.feedAll? chunks = some (p', o) → p'.AtRest := by
  obtain ⟨hfeed, hrest⟩ := Reader.feed_around (r := p.emulator.reader) hp.interpreter_eq hp.holds q
    hcontrols hbody
  have hinterrupted : p.emulator.feedAll? chunks =
      Reader.perform? (p.emulator.reader.feed (q.around body)) p.screen := by
    have hne : chunks.flatten ≠ [] := hchunks ▸ q.around_ne_nil body
    rw [Emulator.feedAll?_flatten hne, hchunks, Emulator.feed?_eq]
    rfl
  have hsame : p.emulator.feedAll? chunks = p.emulator.feedAll? plain := by
    have hne : plain.flatten ≠ [] := hplain ▸ q.append_bytes_ne_nil controls
    rw [hinterrupted, hfeed, Emulator.feedAll?_flatten hne, hplain, Emulator.feed?_eq]
    rfl
  refine ⟨?_, hsame, fun p' o hp' => atRest_of_reader ?_⟩
  · rw [screen_feedAll? hp.clean, screen_feedAll? hp.clean, hsame]
  · rw [← feedAll?_emulator hp.clean, hp', Option.map_some, Reader.perform?] at hinterrupted
    obtain ⟨s, -, heq⟩ := Option.map_eq_some_iff.mp hinterrupted.symm
    have hemulator := congrArg Prod.fst heq
    dsimp only at hemulator
    rw [← hemulator, Emulator.reader_emulator, hrest]

/-- A position with a bell in it, a line feed behind ESC, and a line feed before the final byte. -/
def interruptedMove : List (List UInt8) :=
  [[0x1b, 0x0a, 0x5b, 0x31, 0x07], [0x3b, 0x33, 0x0a], [0x48]]

/-- The control characters first, and then the position. -/
def plainMove : List (List UInt8) :=
  [[0x0a, 0x07, 0x0a], [0x1b, 0x5b, 0x31, 0x3b, 0x33, 0x48]]

/-- The first byte of a character is held back; ESC gives it up, the line feeds scroll, and the
cursor goes to the third column of the first row. -/
theorem feedAll?_interrupted_move :
    ∃ p : Parser, (ofDimensions ⟨2, 4⟩).operate? (.call (.feed [0x61, 0xc3])) = some p ∧
      p.decoder.held = [0xc3] ∧
      (p.feedAll? interruptedMove).map (fun (p', o) => (p'.screen, o)) =
        (p.feedAll? plainMove).map (fun (p', o) => (p'.screen, o)) ∧
      p.emulator.feedAll? interruptedMove = p.emulator.feedAll? plainMove ∧
      (∀ p' o, p.feedAll? interruptedMove = some (p', o) → p'.AtRest) ∧
      (p.feedAll? interruptedMove).map (fun (p', o) => (p'.screen.cursor, o)) =
        some (⟨0, 2⟩, ⟨"Ã\n\n", [], 1⟩) := by
  have hrun : ((ofDimensions ⟨2, 4⟩).operate? (.call (.feed [0x61, 0xc3]))).map
      (fun p => (p.decoder.held, p.guarded.tracker, p.guarded.registers.phase,
        (p.feedAll? interruptedMove).map fun (p', o) => (p'.screen.cursor, o))) =
      some ([0xc3], .ground, .ground, some (⟨0, 2⟩, ⟨"Ã\n\n", [], 1⟩)) := by decide +kernel
  obtain ⟨p, hp, hstate⟩ := Option.map_eq_some_iff.mp hrun
  simp only [Prod.mk.injEq] at hstate
  obtain ⟨hheld, htracker, hphase, houtcome⟩ := hstate
  have hground : p.Grounded := (Reachable.operate (.start ⟨2, 4⟩) hp).grounded htracker hphase
  let q : Escape.Sequence := .control [0x31, 0x3b, 0x33] 0x48 (by simp) (by decide)
  have hbody : Escape.Interleaved [0x0a, 0x07, 0x0a] q.middle
      [0x0a, 0x5b, 0x31, 0x07, 0x3b, 0x33, 0x0a] :=
    .left (.right (.right (.left (.right (.right (.left .nil))))))
  obtain ⟨hscreen, hemulator, hrest⟩ := feedAll?_interrupted hground q
    (by simp [Escape.Obeyed]) hbody
    (show interruptedMove.flatten = q.around _ from rfl)
    (show plainMove.flatten = _ ++ q.bytes from rfl)
  exact ⟨p, hp, hheld, hscreen, hemulator, hrest, houtcome⟩

end Parser

end VirtualTerminal
