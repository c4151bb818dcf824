import VirtualTerminal.Proofs.Registers

/-!
# Resync — a cancelled sequence leaves no trace

A character above 0x7f that comes inside an escape or control sequence cancels it.  Tracker and
machine then stand where fresh ones stand (`Interpreter.resync_of_inSequence`), and the CAN that the
machine is given asks for nothing; so the character and whatever follows it are read as from a fresh
state (`Reader.feed_inSequence`).

The registers of the machine are not fresh: parameters and intermediate bytes of the cancelled
sequence are still in them.  A `Parser` is an emulator with its registers.  In every state it can
reach, the registers hold nothing that is read again before it is cleared
(`Parser.Reachable.sound`), and it does what the emulator does (`Parser.feedAll?_emulator`).

**Nothing of the sequence is left** (`Parser.feedAll?_resync`).
-/

namespace VirtualTerminal

namespace Escape.Interpreter

variable {i : Interpreter} {b : UInt8}

/-- A byte above 0x7f cancels the sequence in progress. -/
theorem resync_of_inSequence (h : Agree i.tracker i.machine) (hm : i.machine.InSequence)
    (hb : 0x80 ≤ b) : i.resync b = (fresh, [.execute can]) := by
  obtain ⟨tracker, machine⟩ := i
  cases h with
  | escape | escapeIntermediate | control =>
    simp [resync, Tracker.rejects, hb, Machine.step, Machine.leave, can, fresh]
  | _ => exact absurd hm id

/-- It is then read as from a fresh state, but for the CAN. -/
theorem run_of_inSequence (h : Agree i.tracker i.machine) (hm : i.machine.InSequence)
    (hb : 0x80 ≤ b) (text : List UInt8) :
    i.run (b :: text) =
      ((fresh.run (b :: text)).1, .execute can :: (fresh.run (b :: text)).2) := by
  have hfresh : fresh.resync b = (fresh, []) := if_neg (by simp [Tracker.rejects, fresh])
  simp only [run, step, resync_of_inSequence h hm hb, hfresh, List.nil_append, List.cons_append]

end Escape.Interpreter

namespace Reader

variable {r : Reader}

/-- What begins with a character above 0x7f is read inside a sequence as it is from the start. -/
theorem feed_inSequence (h : Escape.Agree r.interpreter.tracker r.interpreter.machine)
    (hm : r.interpreter.machine.InSequence) (hheld : r.decoder.held = []) {c : Char}
    (hc : 0x80 ≤ c.toNat) (t : List UInt8) :
    r.feed (String.utf8EncodeChar c ++ t) = fresh.feed (String.utf8EncodeChar c ++ t) := by
  obtain ⟨⟨held⟩, interpreter⟩ := r
  obtain rfl : held = [] := hheld
  obtain ⟨b, rest, henc, hb⟩ := Utf8.exists_encode_of_le hc
  -- the text begins with the character
  have htext : (Decoder.fresh.decode (String.utf8EncodeChar c ++ t)).2 =
      b :: (rest ++ (Utf8.repair t).1) := by
    rw [Decoder.decode_fresh, Utf8.repair_wellFormed_append (Utf8.wellFormed_encodeChar c), henc]
    rfl
  have hrun := Escape.Interpreter.run_of_inSequence h hm hb (rest ++ (Utf8.repair t).1)
  simp only [feed, read, fresh, show (⟨[]⟩ : Decoder) = .fresh from rfl, htext]
  rw [hrun, List.flatMap_cons]
  rfl

end Reader

namespace Emulator

/-- A feed that begins with a character above 0x7f does inside a sequence what it does from the
start, on the same screen. -/
theorem feed?_inSequence {e : Emulator}
    (h : Escape.Agree e.interpreter.tracker e.interpreter.machine)
    (hm : e.interpreter.machine.InSequence) (hheld : e.decoder.held = []) {c : Char}
    (hc : 0x80 ≤ c.toNat) (t : List UInt8) :
    e.feed? (String.utf8EncodeChar c ++ t) =
      feed? { screen := e.screen } (String.utf8EncodeChar c ++ t) := by
  rw [feed?_eq, feed?_eq, Reader.feed_inSequence h hm hheld hc]
  rfl

/-- However the bytes are cut into chunks. -/
theorem feedAll?_inSequence {e : Emulator}
    (h : Escape.Agree e.interpreter.tracker e.interpreter.machine)
    (hm : e.interpreter.machine.InSequence) (hheld : e.decoder.held = []) {c : Char}
    (hc : 0x80 ≤ c.toNat) {t : List UInt8} {chunks : List (List UInt8)}
    (hchunks : chunks.flatten = String.utf8EncodeChar c ++ t) :
    e.feedAll? chunks = feedAll? chunks { screen := e.screen } := by
  have hne : chunks.flatten ≠ [] :=
    hchunks ▸ List.append_ne_nil_of_left_ne_nil (Utf8.encode_ne_nil c) t
  rw [feedAll?_flatten hne, feedAll?_flatten hne, hchunks, feed?_inSequence h hm hheld hc]

/-- Between two calls the interpreter is between two characters. -/
theorem settled_of_operate? {e e' : Emulator} {op : Operation} (h : e.interpreter.Settled)
    (hop : e.operate? op = some e') : e'.interpreter.Settled := by
  have hrun : e.operateAll? [op] = some e' := by
    rw [operateAll?, hop]
    rfl
  obtain ⟨cs, hcs⟩ := Utf8.wellFormed_iff.mp (e.decoder.wellFormed_operateAll [op])
  rw [interpreter_of_operateAll? hrun, hcs]
  exact (h.run_encode cs).1

end Emulator

/-! ### With registers -/

/-- An emulator with the registers of its machine. -/
structure Parser where
  decoder : Decoder := .fresh
  guarded : Escape.Guarded := .fresh
  screen : Screen
deriving DecidableEq, Repr

namespace Parser

/-- A parser with a blank screen of this size. -/
def ofDimensions (d : Dimensions) : Parser := { screen := .blank d }

/-- Interprets decoded text. -/
def read? (p : Parser) (text : List UInt8) : Option (Parser × Outcome) :=
  let (guarded, actions) := p.guarded.run text
  let is := actions.flatMap Instruction.ofAction
  (p.screen.obeyAll? is).map fun screen =>
    ({ p with guarded := guarded, screen := screen }, Outcome.ofInstructions is)

/-- Feeds a chunk of the byte stream. -/
def feed? (p : Parser) (chunk : List UInt8) : Option (Parser × Outcome) :=
  let (decoder, text) := p.decoder.decode chunk
  { p with decoder := decoder }.read? text

/-- Ends the byte stream. -/
def finish? (p : Parser) : Option (Parser × Outcome) :=
  let (decoder, text) := p.decoder.finish
  { p with decoder := decoder }.read? text

/-- Carries out an operation. -/
def operate? (p : Parser) : Operation → Option Parser
  | .call (.feed chunk) => (p.feed? chunk).map Prod.fst
  | .call .finish => p.finish?.map Prod.fst
  | .call (.resize d) => some { p with screen := (p.screen.resize? d).getD p.screen }
  | .change c => (p.screen.change? c).map fun screen => { p with screen := screen }

/-- Feeds chunks one after another; the outcomes are put together. -/
def feedAll? : List (List UInt8) → Parser → Option (Parser × Outcome)
  | [], p => some (p, .none)
  | chunk :: rest, p =>
    (p.feed? chunk).bind fun (p, o) => (feedAll? rest p).map fun (p', o') => (p', o.append o')

/-- The emulator as far as the registers can still be used. -/
def emulator (p : Parser) : Emulator := ⟨p.decoder, p.guarded.view, p.screen⟩

/-- Directly behind ESC the registers are clear. -/
def Clean (p : Parser) : Prop := p.guarded.registers.Clean

variable {p p' : Parser} {o : Outcome}

theorem clean_of_read? (h : p.Clean) {text : List UInt8} (hread : p.read? text = some (p', o)) :
    p'.Clean := by
  obtain ⟨s, -, heq⟩ := Option.map_eq_some_iff.mp hread
  obtain ⟨rfl, -⟩ := Prod.mk.inj heq
  exact (Escape.Guarded.run_view h text).2

/-- The parser does what the emulator does. -/
theorem read?_emulator (h : p.Clean) (text : List UInt8) :
    (p.read? text).map (fun (p, o) => (p.emulator, o)) =
      Reader.perform? (p.emulator.reader.read text) p.screen := by
  obtain ⟨hview, -⟩ := Escape.Guarded.run_view h text
  simp only [read?, Option.map_map, Reader.perform?, Reader.read, Emulator.reader, emulator,
    ← hview]
  rfl

theorem feed?_emulator (h : p.Clean) (chunk : List UInt8) :
    (p.feed? chunk).map (fun (p, o) => (p.emulator, o)) = p.emulator.feed? chunk := by
  rw [Emulator.feed?_eq]
  exact read?_emulator (p := { p with decoder := (p.decoder.decode chunk).1 }) h _

theorem clean_of_feed? (h : p.Clean) {chunk : List UInt8} (hfeed : p.feed? chunk = some (p', o)) :
    p'.Clean :=
  clean_of_read? (p := { p with decoder := (p.decoder.decode chunk).1 }) h hfeed

theorem finish?_emulator (h : p.Clean) :
    p.finish?.map (fun (p, o) => (p.emulator, o)) = p.emulator.finish? := by
  rw [Emulator.finish?_eq]
  exact read?_emulator (p := { p with decoder := p.decoder.finish.1 }) h _

theorem operate?_emulator (h : p.Clean) (op : Operation) :
    (p.operate? op).map emulator = p.emulator.operate? op := by
  cases op with
  | call c =>
    cases c with
    | feed chunk =>
      simp only [operate?, Emulator.operate?, Emulator.call?, ← feed?_emulator h, Option.map_map,
        Function.comp_def]
    | finish =>
      simp only [operate?, Emulator.operate?, Emulator.call?, ← finish?_emulator h,
        Option.map_map, Function.comp_def]
    | resize d =>
      simp only [operate?, Emulator.operate?, Emulator.call?, Emulator.resize?, emulator]
      cases p.screen.resize? d <;> rfl
  | change c =>
    simp only [operate?, Emulator.operate?, emulator, Option.map_map, Function.comp_def]

theorem clean_of_operate? (h : p.Clean) {op : Operation} (hop : p.operate? op = some p') :
    p'.Clean := by
  cases op with
  | call c =>
    cases c with
    | feed chunk =>
      obtain ⟨⟨p₁, o⟩, hfeed, rfl⟩ := Option.map_eq_some_iff.mp hop
      exact clean_of_feed? h hfeed
    | finish =>
      obtain ⟨⟨p₁, o⟩, hread, rfl⟩ := Option.map_eq_some_iff.mp hop
      exact clean_of_read? (p := { p with decoder := p.decoder.finish.1 }) h hread
    | resize d => exact Option.some.inj hop ▸ h
  | change c =>
    obtain ⟨s, -, rfl⟩ := Option.map_eq_some_iff.mp hop
    exact h

/-- **What is left in the registers is never seen.**  The chunks do to the parser what they do to
the emulator, with the same outcome. -/
theorem feedAll?_emulator (h : p.Clean) (chunks : List (List UInt8)) :
    (p.feedAll? chunks).map (fun (p, o) => (p.emulator, o)) = p.emulator.feedAll? chunks := by
  induction chunks generalizing p with
  | nil => rfl
  | cons chunk chunks ih =>
    rw [feedAll?, Emulator.feedAll?, ← feed?_emulator h]
    cases hfeed : p.feed? chunk with
    | none => rfl
    | some next =>
      obtain ⟨p₁, o⟩ := next
      simp only [Option.bind_some, Option.map_some, ← ih (clean_of_feed? h hfeed), Option.map_map,
        Function.comp_def]

theorem clean_of_feedAll? (h : p.Clean) {chunks : List (List UInt8)}
    (hfeed : p.feedAll? chunks = some (p', o)) : p'.Clean := by
  induction chunks generalizing p o with
  | nil =>
    obtain ⟨rfl, -⟩ := Prod.mk.inj (Option.some.inj hfeed)
    exact h
  | cons chunk chunks ih =>
    obtain ⟨⟨p₁, o₁⟩, h₁, hrest⟩ := Option.bind_eq_some_iff.mp hfeed
    obtain ⟨⟨p₂, o₂⟩, h₂, heq⟩ := Option.map_eq_some_iff.mp hrest
    obtain ⟨rfl, -⟩ := Prod.mk.inj heq
    exact ih (clean_of_feed? h h₁) h₂

/-- So the screen and the outcome are those of the emulator. -/
theorem screen_feedAll? (h : p.Clean) (chunks : List (List UInt8)) :
    (p.feedAll? chunks).map (fun (p, o) => (p.screen, o)) =
      (p.emulator.feedAll? chunks).map (fun (e, o) => (e.screen, o)) := by
  rw [← feedAll?_emulator h, Option.map_map]
  rfl

theorem clean_ofScreen (s : Screen) : ({ screen := s } : Parser).Clean := nofun

/-- What a parser can become by operations, from a blank screen on. -/
inductive Reachable : Parser → Prop
  | start (d : Dimensions) : Reachable (ofDimensions d)
  | operate {p p' : Parser} {op : Operation} (h : Reachable p) (hop : p.operate? op = some p') :
      Reachable p'

/-- A parser that can be reached is clean, and between two characters. -/
theorem Reachable.sound (h : p.Reachable) : p.Clean ∧ p.emulator.interpreter.Settled := by
  induction h with
  | start d => exact ⟨nofun, Escape.Interpreter.settled_fresh⟩
  | @operate p p' op _ hop ih =>
    obtain ⟨hclean, hsettled⟩ := ih
    have heop : p.emulator.operate? op = some p'.emulator := by
      rw [← operate?_emulator hclean, hop]
      rfl
    exact ⟨clean_of_operate? hclean hop, Emulator.settled_of_operate? hsettled heop⟩

/-- The parser is inside an escape or control sequence. -/
def InSequence (p : Parser) : Prop := p.guarded.registers.view.InSequence

/-- **Nothing of a cancelled sequence is left.**  Take a parser that has been reached in any way and
is inside an escape or control sequence, with no byte held back.  A character above 0x7f and any
bytes behind it, in chunks, give the same screen and the same outcome as on a parser with this
screen that has read nothing yet.  The parser may also be taken without its registers: then decoder,
tracker and machine are the same afterwards as well. -/
theorem feedAll?_resync (hp : p.Reachable) (hseq : p.InSequence) (hheld : p.decoder.held = [])
    {c : Char} (hc : 0x80 ≤ c.toNat) {t : List UInt8} {chunks : List (List UInt8)}
    (hchunks : chunks.flatten = String.utf8EncodeChar c ++ t) :
    (p.feedAll? chunks).map (fun (p', o) => (p'.screen, o)) =
        (feedAll? chunks { screen := p.screen }).map (fun (p', o) => (p'.screen, o)) ∧
      p.emulator.feedAll? chunks = Emulator.feedAll? chunks { screen := p.screen } := by
  obtain ⟨hclean, hsettled⟩ := hp.sound
  have heq : p.emulator.feedAll? chunks = Emulator.feedAll? chunks { screen := p.screen } :=
    Emulator.feedAll?_inSequence hsettled.agree hseq hheld hc hchunks
  refine ⟨?_, heq⟩
  rw [screen_feedAll? hclean, screen_feedAll? (clean_ofScreen p.screen), heq]
  rfl

/-- The beginning of a control sequence, `CSI 3 1`. -/
def colorBegun : List UInt8 := [0x1b, 0x5b, 0x33, 0x31]

/-- The character é, cut in two, and behind it `CSI m` and a letter. -/
def accented : List (List UInt8) := [[0xc3], [0xa9, 0x1b, 0x5b, 0x6d, 0x42]]

/-- Behind `CSI 3 1` the registers hold a number, and é and what follows are shown as if they did
not. -/
theorem feedAll?_resync_accented :
    ∃ p : Parser, (ofDimensions ⟨1, 4⟩).operate? (.call (.feed colorBegun)) = some p ∧
      p.guarded.registers.header.params.number = 31 ∧
      p.InSequence ∧ p.decoder.held = [] ∧ 0x80 ≤ 'é'.toNat ∧
      accented.flatten = String.utf8EncodeChar 'é' ++ [0x1b, 0x5b, 0x6d, 0x42] ∧
      ((p.feedAll? accented).map (fun (p', o) => (p'.screen, o)) =
          (feedAll? accented { screen := p.screen }).map (fun (p', o) => (p'.screen, o)) ∧
        p.emulator.feedAll? accented = Emulator.feedAll? accented { screen := p.screen }) ∧
      (p.feedAll? accented).map (fun (_, o) => o.transcript) = some "éB" := by
  have hrun : ((ofDimensions ⟨1, 4⟩).operate? (.call (.feed colorBegun))).map
      (fun p => (p.guarded.registers.header.params.number, p.guarded.registers.phase,
        p.decoder.held, (p.feedAll? accented).map fun (_, o) => o.transcript)) =
      some (31, .control .params, [], some "éB") := by decide +kernel
  obtain ⟨p, hp, hstate⟩ := Option.map_eq_some_iff.mp hrun
  simp only [Prod.mk.injEq] at hstate
  obtain ⟨hnumber, hphase, hheld, htranscript⟩ := hstate
  have hseq : p.InSequence := by
    rw [InSequence, Escape.Registers.view, hphase]
    trivial
  have hc : 0x80 ≤ 'é'.toNat := by decide
  have hchunks : accented.flatten = String.utf8EncodeChar 'é' ++ [0x1b, 0x5b, 0x6d, 0x42] := by
    decide +kernel
  exact ⟨p, hp, hnumber, hseq, hheld, hc, hchunks,
    feedAll?_resync (.operate (.start ⟨1, 4⟩) hp) hseq hheld hc hchunks, htranscript⟩

end Parser

end VirtualTerminal
