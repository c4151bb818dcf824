import VirtualTerminal.Proofs.Agreement

/-!
# Printing — text in the ground state

Where no sequence is in progress, each character from U+0020 on is handed on as it is, and the
interpreter is then in the same state again (`Interpreter.run_char`, `Interpreter.run_text`).  The
chunks a text is fed in do not matter (`Emulator.feedAll?_encode`).
-/

namespace VirtualTerminal

namespace Escape.Interpreter

/-- A byte from 0x20 on finds the ground state. -/
theorem step_fresh {b : UInt8} (hb : 0x20 ≤ b) :
    fresh.step b = (⟨.ground, (Machine.fromGround b).1⟩, (Machine.fromGround b).2) := by
  have hresync : fresh.resync b = (fresh, []) := if_neg (by simp [Tracker.rejects, fresh])
  have hcancel : ¬ (b = 0x18 ∨ b = 0x1a) := by grind
  have hescape : ¬ b = 0x1b := by grind
  simp only [step, hresync]
  simp only [fresh, Machine.step, Tracker.next, if_neg hcancel, if_neg hescape, List.nil_append]

/-- **A character is printed.** -/
theorem run_char {c : Char} (hc : 0x20 ≤ c.toNat) :
    fresh.run (String.utf8EncodeChar c) = (fresh, [.print c]) := by
  obtain ⟨b, rest, rs, henc, hrs, hmatches⟩ := Utf8.exists_matches_encode c
  have hchar := Utf8.scalarOf_encode henc
  rw [henc, run]
  rcases Nat.lt_or_ge b.toNat 0x80 with hascii | hlead
  · -- the character is this one byte
    rw [Utf8.continuations_one hascii] at hrs
    obtain rfl := Option.some.inj hrs
    obtain rfl := hmatches.eq_nil
    rw [Utf8.scalarOf_ascii hascii] at hchar
    have hb : 0x20 ≤ b.toNat := by
      have hval := Utf8.toNat_val_ofNat (n := b.toNat) (.inl (by omega))
      rw [hchar] at hval
      exact hval ▸ hc
    have hstep : Machine.fromGround b = (.ground, [.print c]) := by
      rw [Machine.fromGround, if_neg (Nat.not_lt.mpr hb ∘ UInt8.lt_iff_toNat_lt.mp),
        if_pos (UInt8.lt_iff_toNat_lt.mpr hascii), hchar]
    rw [step_fresh (UInt8.le_iff_toNat_le.mpr hb), hstep]
    rfl
  · have hb : 0x80 ≤ b := UInt8.le_iff_toNat_le.mpr hlead
    have hne : rest ≠ [] := by
      rintro rfl
      cases hmatches
      exact Utf8.continuations_ne_nil hlead hrs
    rw [step_fresh (by grind), Machine.fromGround_lead hb hrs,
      run_scalar hmatches (Utf8.tail_of_mem_encode henc) hne]
    exact congrArg (fun c => (fresh, [Action.print c])) hchar

/-- **A text is printed character by character.** -/
theorem run_text {cs : List Char} (hcs : ∀ c ∈ cs, 0x20 ≤ c.toNat) :
    fresh.run (Utf8.encode cs) = (fresh, cs.map .print) := by
  induction cs with
  | nil => rfl
  | cons c cs ih =>
    rw [Utf8.encode_cons, run_append, run_char (hcs c List.mem_cons_self),
      ih fun c hc => hcs c (List.mem_cons_of_mem _ hc)]
    rfl

end Escape.Interpreter

/-- A character that is no control character is shown. -/
theorem Instruction.ofAction_print {c : Char} (hc : Width.isControl c = false) :
    ofAction (.print c) = [.print c] := if_neg (Bool.eq_false_iff.mp hc)

/-- A text is decoded as it is. -/
theorem Reader.feed_encode (cs : List Char) :
    fresh.feed (Utf8.encode cs) = fresh.read (Utf8.encode cs) := by
  rw [feed]
  simp only [fresh, Decoder.decode_fresh, Utf8.repair_encode]
  rfl

/-- **A text fed in any chunks**, with nothing in progress, is read and obeyed at once. -/
theorem Emulator.feedAll?_encode (s : Screen) {cs : List Char} {chunks : List (List UInt8)}
    (h : chunks.flatten = Utf8.encode cs) :
    feedAll? chunks { screen := s } = Reader.perform? (Reader.fresh.read (Utf8.encode cs)) s := by
  cases chunks with
  | nil =>
    rw [← h]
    rfl
  | cons chunk rest =>
    rw [feedAll?_cons, h, feed?_eq, ← Reader.feed_encode]
    rfl

end VirtualTerminal
