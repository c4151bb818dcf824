import VirtualTerminal.Proofs.Overflow
import VirtualTerminal.Proofs.Resync

/-!
# Reset — a full reset forgets what came before it

ESC c makes the screen a blank one of the same size.  It does so in whatever state it is read:

* bytes that the decoder holds back become Latin-1 characters, for ESC continues no UTF-8 sequence
  (`Utf8.repair_held_append`), and the decoder holds nothing any more;
* the sequence or string in progress ends at ESC, and behind `c` the interpreter is fresh
  (`Interpreter.Settled.run_fullReset`);
* what is still obeyed before the reset, Latin-1 characters and the operating-system command that ESC
  ends, needs no column beyond the range (`Instruction.Harmless`), so the reset is always reached.

The registers of the machine are not cleared, but nothing of them is read again, as for `Resync`.

**A full reset forgets** (`Parser.feedAll?_fullReset`).
-/

namespace VirtualTerminal

/-! ### What is held back -/

namespace Utf8

/-- Where the bytes so far match and a byte follows that lies in none of the ranges, the sequence is
broken there. -/
theorem follow_cut_append {more : Nat} {rs : List Span} {bytes : List UInt8} {x : UInt8}
    (h : follow more rs bytes = .cut) (hx : ∀ r ∈ rs, within r x = false) (w : List UInt8) :
    follow more rs (bytes ++ x :: w) = .broken (more + bytes.length) := by
  induction rs generalizing more bytes with
  | nil => cases h
  | cons r rs ih =>
    cases bytes with
    | nil =>
      rw [List.nil_append, follow, hx r List.mem_cons_self]
      rfl
    | cons b bytes =>
      rw [follow] at h
      rw [List.cons_append, follow]
      split at h
      · rw [if_pos ‹_›, ih h fun r hr => hx r (List.mem_cons_of_mem _ hr), List.length_cons,
          Nat.add_assoc, Nat.add_comm 1]
      · cases h

theorem opening_cut_append {b x : UInt8} {rest : List UInt8} (h : opening b rest = .cut)
    (hx : within tail x = false) (w : List UInt8) :
    opening b (rest ++ x :: w) = .broken rest.length := by
  unfold opening at h ⊢
  cases hrs : continuations b with
  | none => simp [hrs] at h
  | some rs =>
    rw [hrs] at h
    have hnone : ∀ r ∈ rs, within r x = false := fun r hr =>
      Bool.eq_false_iff.mpr fun hr' =>
        absurd ((range_of_continuations hrs r hr).2 x hr') (Bool.eq_false_iff.mp hx)
    exact (follow_cut_append h hnone w).trans (by rw [Nat.zero_add])

/-- Bytes that are held back whole are the beginning of one sequence. -/
theorem opening_of_held {b : UInt8} {rest : List UInt8} (h : repair (b :: rest) = ([], b :: rest)) :
    opening b rest = .cut := by
  rw [repair] at h
  cases hop : opening b rest with
  | cut => rfl
  | scalar more => simp [hop] at h
  | broken more =>
    have hne : latin1 b ≠ [] := encode_ne_nil _
    simp [hop, hne] at h

/-- **A byte that continues nothing gives up what is held back**, one Latin-1 character for each
byte. -/
theorem repair_held_append {held : List UInt8} {x : UInt8} (h : repair held = ([], held))
    (hx : within tail x = false) (w : List UInt8) :
    repair (held ++ x :: w) =
      (held.flatMap latin1 ++ (repair (x :: w)).1, (repair (x :: w)).2) := by
  cases held with
  | nil => rfl
  | cons b rest =>
    rw [List.cons_append, repair, opening_cut_append (opening_of_held h) hx]
    simp only [List.take_left, List.drop_left]

theorem le_of_mem_latin1 {b x : UInt8} (hb : 0x80 ≤ b) (hx : x ∈ latin1 b) : 0x80 ≤ x := by
  have hb : 0x80 ≤ b.toNat := UInt8.le_iff_toNat_le.mp hb
  have hlt := b.toNat_lt
  rw [latin1, encode_two hb (by omega)] at hx
  refine UInt8.le_iff_toNat_le.mpr ?_
  change 0x80 ≤ x.toNat
  simp only [List.mem_cons, List.not_mem_nil, or_false] at hx
  rcases hx with rfl | rfl
  · rw [toNat_ofNat_of_lt (by omega)]
    omega
  · rw [toNat_ofNat_of_lt (by omega)]
    omega

/-- The bytes that are held back are above 0x7f. -/
theorem le_of_mem_held {held : List UInt8} (h : repair held = ([], held)) :
    ∀ x ∈ held, 0x80 ≤ x := by
  cases held with
  | nil => nofun
  | cons b rest =>
    have hop := opening_of_held h
    refine List.forall_mem_cons.mpr ⟨?_, fun x hx => le_of_tail (tail_of_mem_cut hop x hx)⟩
    refine UInt8.le_iff_toNat_le.mpr (Nat.not_lt.mp fun hb => ?_)
    rw [opening, continuations_one hb] at hop
    cases hop

end Utf8

/-! ### What is still read before the reset -/

namespace Escape

/-- The bytes ESC c. -/
def fullReset : List UInt8 := [0x1b, 0x63]

/-- A byte above 0x7f prints, or does nothing. -/
theorem Machine.print_of_mem_step {m : Machine} {b : UInt8} (hb : 0x80 ≤ b) :
    ∀ a ∈ (m.step b).2, ∃ c, a = .print c := by
  cases m with
  | scalar code expected =>
    simp only [step, fromScalar]
    grind
  | ground =>
    simp only [step, fromGround]
    grind
  | escape =>
    simp only [step, fromEscape]
    grind
  | escapeIntermediate intermediates =>
    simp only [step, fromEscapeIntermediate]
    grind
  | control part h =>
    simp only [step, fromControl]
    grind
  | device part =>
    simp only [step]
    grind
  | ignoredString =>
    simp only [step]
    grind
  | command body =>
    simp only [step, fromCommand]
    grind

namespace Interpreter

variable {i : Interpreter} {b : UInt8}

/-- What is rejected is read in the ground state, and anything else where it comes. -/
theorem resync_cases (h : Agree i.tracker i.machine) (b : UInt8) :
    i.resync b = (fresh, [.execute can]) ∨ i.resync b = (i, []) ∧ i.tracker.rejects b = false := by
  cases hrejects : i.tracker.rejects b with
  | false => exact .inr ⟨if_neg (Bool.eq_false_iff.mp hrejects), rfl⟩
  | true =>
    obtain ⟨hb, hkind⟩ := (Bool.and_eq_true _ _).mp hrejects
    have hm : i.machine.InSequence := by
      obtain ⟨tracker, machine⟩ := i
      cases h with
      | escape | escapeIntermediate | control => trivial
      | _ => cases hkind
    exact .inl (resync_of_inSequence h hm (of_decide_eq_true hb))

/-- Under the tracker it may also cancel the sequence in progress, and tracker and machine go on to
states that belong together. -/
theorem mem_step_of_le (h : Agree i.tracker i.machine) (hb : 0x80 ≤ b) :
    Agree (i.step b).1.tracker (i.step b).1.machine ∧
      ∀ a ∈ (i.step b).2, a = .execute can ∨ ∃ c, a = .print c := by
  rw [Interpreter.step]
  rcases resync_cases h b with hresync | ⟨hresync, hrejects⟩
  · rw [hresync]
    refine ⟨Agree.ground.next (Bool.and_false _) (fun h => by cases h), fun a ha => ?_⟩
    rcases List.mem_cons.mp ha with rfl | ha
    · exact .inl rfl
    · exact .inr (Machine.print_of_mem_step hb a ha)
  · rw [hresync]
    exact ⟨h.next hrejects fun _ => hb, fun a ha => .inr (Machine.print_of_mem_step hb a ha)⟩

/-- So does a text of such bytes. -/
theorem mem_run_of_le (h : Agree i.tracker i.machine) {text : List UInt8}
    (htext : ∀ b ∈ text, 0x80 ≤ b) :
    ∀ a ∈ (i.run text).2, a = .execute can ∨ ∃ c, a = .print c := by
  induction text generalizing i with
  | nil => nofun
  | cons b text ih =>
    obtain ⟨hagree, hstep⟩ := mem_step_of_le h (htext b List.mem_cons_self)
    intro a ha
    rcases List.mem_append.mp ha with ha | ha
    · exact hstep a ha
    · exact ih hagree (fun x hx => htext x (List.mem_cons_of_mem _ hx)) a ha

/-- **ESC ends what is in progress**, and behind `c` the interpreter is fresh. -/
theorem Settled.run_fullReset (h : i.Settled) :
    i.run fullReset = (fresh, i.machine.leave ++ [.escape [] 0x63]) := by
  have hresync : i.resync 0x1b = (i, []) := if_neg (by simp [Tracker.rejects])
  have hescape : i.step 0x1b = (⟨.escape, .escape⟩, i.machine.leave) := by
    simp only [Interpreter.step, hresync, Machine.step_escape h.complete]
    rfl
  rw [fullReset, run, hescape]
  rfl

end Interpreter

end Escape

/-! ### What is still obeyed before the reset -/

namespace Instruction

/-- The instruction needs no column beyond the range, whatever the screen. -/
def Harmless : Instruction → Prop
  | .tab => False
  | .print c => ∀ width, Width.columns? c = some width → width ≤ 1
  | _ => True

theorem Harmless.not_overflows {i : Instruction} (hi : i.Harmless) {s : Screen} (h : s.WellFormed)
    (hd : s.dims.Fits) : ¬ i.Overflows s := by
  cases i with
  | tab => exact hi.elim
  | print c =>
    rintro ⟨-, width, hwidth, hover⟩
    have hone : width ≤ 1 := hi width hwidth
    have hcol := h.col_lt
    have hcols := hd.cols_le
    omega
  | _ => exact id

theorem harmless_ofCommand (arguments : List (List UInt8)) :
    ∀ i ∈ ofCommand arguments, i.Harmless := by
  intro i hi
  unfold ofCommand at hi
  split at hi
  · cases hi
  · rename_i command arguments
    split at hi
    · simp_all [Harmless]
    · split at hi
      · simp_all [Harmless]
      · split at hi
        · cases arguments with
          | nil => cases hi
          | cons kind rest =>
            simp only [List.head?_cons, Option.map_some, Option.getD_some, ofMark] at hi
            split at hi <;> simp_all [Harmless]
        · cases hi

theorem harmless_leave (m : Escape.Machine) :
    ∀ i ∈ m.leave.flatMap ofAction, i.Harmless := by
  intro i hi
  obtain ⟨a, ha, hi⟩ := List.mem_flatMap.mp hi
  cases m with
  | command body =>
    obtain rfl := List.mem_singleton.mp ha
    exact harmless_ofCommand _ i hi
  | _ => cases ha

/-- No Latin-1 character takes two columns. -/
theorem harmless_print_latin1 (b : UInt8) : (print (Char.ofNat b.toNat)).Harmless := by
  have hlt := b.toNat_lt
  have hn : (Char.ofNat b.toNat).toNat = b.toNat := Utf8.toNat_val_ofNat (.inl (by omega))
  have hranges : ∀ r ∈ Width.wideRanges, 0x100 ≤ r.1 := by decide +kernel
  have hnarrow : Width.covers Width.wideRanges b.toNat = false :=
    List.any_eq_false.mpr fun r hr => by
      have := hranges r hr
      simp only [Bool.and_eq_true, decide_eq_true_eq]
      omega
  intro width hwidth
  rw [Width.columns?, hn, hnarrow, if_neg (show ¬ b.toNat = 0x17d8 by omega)] at hwidth
  grind

end Instruction

namespace Screen

/-- Where no instruction needs a column beyond the range, all of them are obeyed. -/
theorem exists_obeyAll? {s : Screen} (h : s.WellFormed) (hd : s.dims.Fits) {is : List Instruction}
    (his : ∀ i ∈ is, i.Harmless) : ∃ s', s.obeyAll? is = some s' := by
  refine Option.ne_none_iff_exists'.mp fun hnone => ?_
  obtain ⟨before, i, after, s', rfl, hs', hover⟩ := (obeyAll?_eq_none_iff h hd is).mp hnone
  have hi : i.Harmless := his i (List.mem_append_right _ List.mem_cons_self)
  exact hi.not_overflows (h.obeyAll? hs') ((dims_obeyAll? h hs').symm ▸ hd) hover

end Screen

/-! ### The reset -/

namespace Reader

variable {r : Reader}

/-- What is held back is read as Latin-1 characters to print, if as anything. -/
theorem exists_print_of_mem_read_held (hs : r.interpreter.Settled) (hh : r.decoder.Holds)
    {i : Instruction} (hi : i ∈ (r.read (r.decoder.held.flatMap Utf8.latin1)).2) :
    ∃ b : UInt8, i = .print (Char.ofNat b.toNat) := by
  have hhigh : ∀ x ∈ r.decoder.held.flatMap Utf8.latin1, 0x80 ≤ x := fun x hx => by
    obtain ⟨b, hb, hx⟩ := List.mem_flatMap.mp hx
    exact Utf8.le_of_mem_latin1 (Utf8.le_of_mem_held hh b hb) hx
  obtain ⟨a, ha, hi⟩ := List.mem_flatMap.mp hi
  rcases Escape.Interpreter.mem_run_of_le hs.agree hhigh a ha with rfl | ⟨c, rfl⟩
  · cases hi
  · -- what is printed is one of the characters
    have hprinted : c ∈ Escape.printed (r.interpreter.run (r.decoder.held.flatMap Utf8.latin1)).2 :=
      List.mem_filterMap.mpr ⟨.print c, ha, rfl⟩
    rw [Utf8.flatMap_latin1] at hprinted
    obtain ⟨b, -, rfl⟩ := List.mem_map.mp ((hs.run_encode _).2.subset hprinted)
    unfold Instruction.ofAction at hi
    dsimp only at hi
    split at hi
    · cases hi
    · exact ⟨b, List.mem_singleton.mp hi⟩

/-- The Latin-1 characters of what is held back ask for nothing that needs much room. -/
theorem harmless_read_held (hs : r.interpreter.Settled) (hh : r.decoder.Holds) :
    ∀ i ∈ (r.read (r.decoder.held.flatMap Utf8.latin1)).2, i.Harmless := by
  intro i hi
  obtain ⟨b, rfl⟩ := exists_print_of_mem_read_held hs hh hi
  exact Instruction.harmless_print_latin1 b

/-- **A full reset is read in every state**, behind instructions that need no room, and leaves a
fresh reader. -/
theorem feed_fullReset (hs : r.interpreter.Settled) (hh : r.decoder.Holds) :
    (r.feed Escape.fullReset).1 = fresh ∧
      ∃ is, (r.feed Escape.fullReset).2 = is ++ [.reset] ∧ ∀ i ∈ is, i.Harmless := by
  have hrepair : Utf8.repair Escape.fullReset = (Escape.fullReset, []) := by decide +kernel
  have hdecode : r.decoder.decode Escape.fullReset =
      (.fresh, r.decoder.held.flatMap Utf8.latin1 ++ Escape.fullReset) := by
    have happend := Utf8.repair_held_append hh (x := 0x1b) rfl [0x63]
    rw [show (0x1b : UInt8) :: [0x63] = Escape.fullReset from rfl, hrepair] at happend
    rw [Decoder.decode, happend]
    rfl
  obtain ⟨cs, hcs⟩ := Utf8.wellFormed_iff.mp (Utf8.wellFormed_latin1 r.decoder.held)
  have hsettled := (hs.run_encode cs).1
  rw [← hcs] at hsettled
  rw [feed, hdecode]
  simp only [read, Escape.Interpreter.run_append, hsettled.run_fullReset, List.flatMap_append]
  refine ⟨rfl, _, (List.append_assoc ..).symm, fun i hi => ?_⟩
  rcases List.mem_append.mp hi with hi | hi
  · exact harmless_read_held hs hh i hi
  · exact Instruction.harmless_leave _ i hi

end Reader

namespace Emulator

variable {e : Emulator}

/-- **A full reset leaves a fresh emulator** of the same size. -/
theorem feed?_fullReset (hw : e.screen.WellFormed) (hd : e.screen.dims.Fits)
    (hs : e.interpreter.Settled) (hh : e.decoder.Holds) :
    ∃ o, e.feed? Escape.fullReset = some (ofDimensions e.screen.dims, o) := by
  obtain ⟨hreader, is, his, hharmless⟩ := Reader.feed_fullReset (r := e.reader) hs hh
  obtain ⟨s, hrun⟩ := Screen.exists_obeyAll? hw hd hharmless
  have hreset : e.screen.obeyAll? (is ++ [.reset]) = some (.blank e.screen.dims) := by
    rw [Screen.obeyAll?_append, hrun, Option.bind_some, ← Screen.dims_obeyAll? hw hrun]
    rfl
  refine ⟨Outcome.ofInstructions (is ++ [.reset]), ?_⟩
  rw [feed?_eq, Reader.perform?, hreader, his, hreset]
  rfl

end Emulator

namespace Decoder

theorem Holds.operate {d : Decoder} (h : d.Holds) (op : Operation) : (d.operate op).1.Holds := by
  cases op with
  | call c =>
    cases c with
    | feed chunk => exact d.holds_decode chunk
    | finish => exact holds_fresh
    | resize size => exact h
  | change c => exact h

end Decoder

namespace Parser

variable {p : Parser}

/-- A parser that can be reached has a well-formed screen, and holds back nothing but the beginning
of a sequence. -/
theorem Reachable.wellFormed (h : p.Reachable) : p.screen.WellFormed ∧ p.decoder.Holds := by
  induction h with
  | start d => exact ⟨.blank d, Decoder.holds_fresh⟩
  | @operate p p' op hp hop ih =>
    obtain ⟨hw, hh⟩ := ih
    have heop : p.emulator.operate? op = some p'.emulator := by
      rw [← operate?_emulator hp.sound.1, hop]
      rfl
    rw [Emulator.operate?_eq] at heop
    obtain ⟨s, hs, heq⟩ := Option.map_eq_some_iff.mp heop
    rw [Reader.operate_reader] at heq
    have hscreen : p'.screen = s := congrArg Emulator.screen heq.symm
    have hdecoder : p'.decoder = (p.decoder.operate op).1 := congrArg Emulator.decoder heq.symm
    rw [hscreen, hdecoder]
    exact ⟨hw.changeAll? hs, hh.operate op⟩

/-- **A full reset forgets.**  Take a parser that has been reached in any way, with a screen of
sixteen-bit size.  Feeding ESC c, cut or not, succeeds and leaves a blank screen of the same size, and
whatever is fed afterwards gives the screen and the outcome that a fresh parser of this size gives.
The parser may also be taken without its registers: then decoder, tracker and machine are those of a
fresh one as well. -/
theorem feedAll?_fullReset (hp : p.Reachable) (hd : p.screen.dims.Fits)
    {chunks : List (List UInt8)} (hchunks : chunks.flatten = Escape.fullReset) :
    ∃ p' o, p.feedAll? chunks = some (p', o) ∧ p'.screen = .blank p.screen.dims ∧
      p'.emulator = .ofDimensions p.screen.dims ∧
      ∀ rest, (p'.feedAll? rest).map (fun (q, o) => (q.screen, o)) =
        ((ofDimensions p.screen.dims).feedAll? rest).map (fun (q, o) => (q.screen, o)) := by
  obtain ⟨hclean, hsettled⟩ := hp.sound
  obtain ⟨hw, hh⟩ := hp.wellFormed
  obtain ⟨o, hfeed⟩ := Emulator.feed?_fullReset (e := p.emulator) hw hd hsettled hh
  have hall : p.emulator.feedAll? chunks = some (.ofDimensions p.screen.dims, o) := by
    cases chunks with
    | nil => cases hchunks
    | cons chunk chunks =>
      rw [Emulator.feedAll?_cons, hchunks]
      exact hfeed
  rw [← feedAll?_emulator hclean] at hall
  obtain ⟨⟨p', o'⟩, hp', heq⟩ := Option.map_eq_some_iff.mp hall
  obtain ⟨hemulator, -⟩ := Prod.mk.inj heq
  refine ⟨p', o', hp', congrArg Emulator.screen hemulator, hemulator, fun rest => ?_⟩
  rw [screen_feedAll? (clean_of_feedAll? hclean hp'), hemulator,
    screen_feedAll? (p := ofDimensions p.screen.dims) (clean_ofScreen _)]
  rfl

/-- Red text, a saved cursor, margins, a title in progress, and the first two of three bytes of a
character. -/
def leftOpen : List UInt8 :=
  [0x1b, 0x5b, 0x33, 0x31, 0x6d, 0x61, 0x62, 0x1b, 0x37, 0x1b, 0x5b, 0x31, 0x3b, 0x32, 0x72,
    0x1b, 0x5d, 0x32, 0x3b, 0x74, 0xe2, 0x82]

/-- Three rows of two columns with all this left open: the title is told of when ESC ends it, and
nothing else is left. -/
theorem feedAll?_fullReset_leftOpen :
    ∃ p : Parser, (ofDimensions ⟨3, 2⟩).operate? (.call (.feed leftOpen)) = some p ∧
      p.decoder.held = [0xe2, 0x82] ∧ p.guarded.registers.phase = .command ∧
      p.screen.style ≠ .plain ∧ p.screen.saved ≠ none ∧ p.screen.margins = ⟨0, 1⟩ ∧
      p.screen.dims.Fits ∧ [[0x1b], [0x63]].flatten = Escape.fullReset ∧
      ∃ p' o, p.feedAll? [[0x1b], [0x63]] = some (p', o) ∧ o.titles.length = 1 ∧
        p'.screen = .blank p.screen.dims ∧ p'.emulator = .ofDimensions p.screen.dims ∧
        ∀ rest, (p'.feedAll? rest).map (fun (q, o) => (q.screen, o)) =
          ((ofDimensions p.screen.dims).feedAll? rest).map (fun (q, o) => (q.screen, o)) := by
  have hrun : ((ofDimensions ⟨3, 2⟩).operate? (.call (.feed leftOpen))).map
      (fun p => ((p.decoder.held, p.guarded.registers.phase, decide (p.screen.style = .plain)),
        (p.screen.saved.isSome, p.screen.margins, p.screen.dims),
        (p.feedAll? [[0x1b], [0x63]]).map fun (_, o) => o.titles.length)) =
      some (([0xe2, 0x82], .command, false), (true, ⟨0, 1⟩, ⟨3, 2⟩), some 1) := by decide +kernel
  obtain ⟨p, hp, hstate⟩ := Option.map_eq_some_iff.mp hrun
  simp only [Prod.mk.injEq] at hstate
  obtain ⟨⟨hheld, hphase, hstyle⟩, ⟨hsaved, hmargins, hdims⟩, htitles⟩ := hstate
  have hfits : p.screen.dims.Fits := by
    rw [hdims]
    exact ⟨by decide, by decide⟩
  have hchunks : [[0x1b], [0x63]].flatten = Escape.fullReset := rfl
  obtain ⟨p', o, hp', hreset⟩ := feedAll?_fullReset (.operate (.start ⟨3, 2⟩) hp) hfits hchunks
  rw [hp'] at htitles
  exact ⟨p, hp, hheld, hphase, of_decide_eq_false hstyle,
    Option.isSome_iff_ne_none.mp hsaved, hmargins, hfits, hchunks, p', o, hp',
    Option.some.inj htitles, hreset⟩

end Parser

end VirtualTerminal
