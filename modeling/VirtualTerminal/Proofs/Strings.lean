import VirtualTerminal.Proofs.Printing
import VirtualTerminal.Proofs.Resync

/-!
# Strings — what is shown of a string that should be dropped

The bodies of device-control, start-of-string, privacy and application strings are read byte by byte
and dropped.  In a body the byte 0x9C ends the string, and it does so inside a character, too: U+201C
is E2 80 9C.  The bytes left of the character belong to no character then and are passed over, and
what follows up to ESC \ is shown like any text (`StringKind.leaked`).

A device-control string begins with a header, in which 0x9C has no effect.

**A string is dropped exactly if nothing of it leaks** (`Parser.feedAll?_string`).
-/

namespace VirtualTerminal

namespace Escape

namespace Machine

/-- Inside a string that is dropped. -/
def InString : Machine → Prop
  | .device _ | .ignoredString => True
  | _ => False

/-- Inside the body of such a string. -/
def InBody : Machine → Prop
  | .device .ignored | .device .body | .ignoredString => True
  | _ => False

instance : DecidablePred InBody
  | .device .ignored | .device .body | .ignoredString => isTrue trivial
  | .device .entry | .device .params | .device .intermediates | .ground | .scalar _ _ | .escape
  | .escapeIntermediate _ | .control _ _ | .command _ => isFalse id

/-- The part of the string behind a character that does not end it; only one below U+0080 can end the
header. -/
def behind (m : Machine) (c : Char) : Machine :=
  match m with
  | .device part => if c.toNat < 0x80 then fromDevice part (UInt8.ofNat c.toNat) else m
  | m => m

/-- The characters behind the one that ends the string, if one does. -/
def leaked : Machine → List Char → List Char
  | _, [] => []
  | m, c :: cs =>
    if m.InBody ∧ 0x9c ∈ String.utf8EncodeChar c then cs else leaked (m.behind c) cs

variable {b : UInt8}

theorem step_device (part : DevicePart) (hb : 0x20 ≤ b) :
    (device part).step b = (fromDevice part b, []) := by
  simp only [step, if_neg (show ¬ (b = 0x18 ∨ b = 0x1a) by grind), if_neg (show ¬ b = 0x1b by grind)]

theorem step_ignoredString (hb : 0x20 ≤ b) :
    ignoredString.step b = (if b = 0x9c then .ground else .ignoredString, []) := by
  simp only [step, if_neg (show ¬ (b = 0x18 ∨ b = 0x1a) by grind), if_neg (show ¬ b = 0x1b by grind)]

/-- Nothing leaks where no character contains the byte that ends a string. -/
theorem leaked_eq_nil {cs : List Char} (h : ∀ c ∈ cs, 0x9c ∉ String.utf8EncodeChar c)
    (m : Machine) : m.leaked cs = [] := by
  induction cs generalizing m with
  | nil => rfl
  | cons c cs ih =>
    obtain ⟨hc, hcs⟩ := List.forall_mem_cons.mp h
    rw [leaked, if_neg fun hends => hc hends.2]
    exact ih hcs _

end Machine

namespace Interpreter

variable {t : Tracker} {m : Machine} {b : UInt8}

theorem resync_string (h : Agree t m) (hm : m.InString) (b : UInt8) :
    t.rejects b = false ∧ resync ⟨t, m⟩ b = (⟨t, m⟩, []) := by
  have hrejects : t.rejects b = false := by
    cases h <;> first | exact hm.elim | simp [Tracker.rejects]
  exact ⟨hrejects, if_neg (by rw [hrejects]; exact Bool.false_ne_true)⟩

/-- Inside a string a byte is dropped; tracker and machine go on together. -/
theorem step_string (h : Agree t m) (hm : m.InString) {m' : Machine}
    (hnext : m.step b = (m', [])) :
    ∃ t', Agree t' m' ∧ step ⟨t, m⟩ b = (⟨t', m'⟩, []) := by
  obtain ⟨hrejects, hresync⟩ := resync_string h hm b
  have hagree := h.next hrejects fun hscalar => by
    cases m with
    | scalar code expected => exact hm.elim
    | _ => exact hscalar.elim
  rw [hnext] at hagree
  refine ⟨t.next b, hagree, ?_⟩
  simp only [step, hresync, hnext, List.append_nil]

/-- In the body the byte 0x9C ends the string. -/
theorem step_end (h : Agree t m) (hm : m.InBody) : step ⟨t, m⟩ 0x9c = (fresh, []) := by
  cases h with
  | device part => cases part <;> first | exact hm.elim | rfl
  | ahead part => cases part <;> first | exact hm.elim | rfl
  | ignoredString => rfl
  | _ => exact hm.elim

/-- A byte above 0x7f that does not end the string leaves the part of it. -/
theorem step_above (h : Agree t m) (hm : m.InString) (hb : 0x80 ≤ b)
    (hends : ¬ (m.InBody ∧ b = 0x9c)) :
    ∃ t', Agree t' m ∧ step ⟨t, m⟩ b = (⟨t', m⟩, []) := by
  refine step_string h hm ?_
  have hspace : 0x20 ≤ b := by grind
  cases m with
  | device part =>
    rw [Machine.step_device part hspace]
    cases part with
    | entry | params | intermediates => simp only [Machine.fromDevice]; grind
    | ignored | body =>
      have hne : ¬ b = 0x9c := fun hb => hends ⟨trivial, hb⟩
      simp only [Machine.fromDevice, if_neg hne]
  | ignoredString =>
    have hne : ¬ b = 0x9c := fun hb => hends ⟨trivial, hb⟩
    rw [Machine.step_ignoredString hspace, if_neg hne]
  | _ => exact hm.elim

/-- A byte below 0x80 may end the header. -/
theorem step_below (h : Agree t m) (hm : m.InString) {c : Char} (hc : 0x20 ≤ c.toNat)
    (hascii : c.toNat < 0x80) :
    (m.behind c).InString ∧ ∃ t', Agree t' (m.behind c) ∧
      step ⟨t, m⟩ (UInt8.ofNat c.toNat) = (⟨t', m.behind c⟩, []) := by
  have hval : (UInt8.ofNat c.toNat).toNat = c.toNat := Utf8.toNat_ofNat_of_lt (by omega)
  generalize hb : UInt8.ofNat c.toNat = b at hval ⊢
  have hspace : 0x20 ≤ b := UInt8.le_iff_toNat_le.mpr (hval ▸ hc)
  have hbelow : b < 0x80 := UInt8.lt_iff_toNat_lt.mpr (hval ▸ hascii)
  cases m with
  | device part =>
    have hbehind : (Machine.device part).behind c = Machine.fromDevice part b := by
      rw [Machine.behind, if_pos hascii, hb]
    rw [hbehind]
    refine ⟨?_, step_string h hm (Machine.step_device part hspace)⟩
    cases part <;> simp only [Machine.fromDevice] <;> grind [Machine.InString]
  | ignoredString =>
    refine ⟨trivial, step_string h hm ?_⟩
    rw [Machine.step_ignoredString hspace, if_neg (by grind)]
    rfl
  | _ => exact hm.elim

/-! ### Characters -/

/-- Bytes that belong to no character are passed over. -/
theorem run_tails {bs : List UInt8} (h : ∀ b ∈ bs, Utf8.within Utf8.tail b = true) :
    fresh.run bs = (fresh, []) := by
  induction bs with
  | nil => rfl
  | cons b bs ih =>
    obtain ⟨hb, hbs⟩ := List.forall_mem_cons.mp h
    have htail := Utf8.le_of_tail hb
    rw [run, step_fresh (by grind), Machine.fromGround_tail htail (Utf8.continuations_tail hb)]
    simp only [List.nil_append]
    exact ih hbs

/-- The bytes of a character above U+007F: all of them are dropped, or those up to the one that ends
the string. -/
theorem run_above (h : Agree t m) (hm : m.InString) {bs : List UInt8} (hbs : ∀ b ∈ bs, 0x80 ≤ b) :
    if m.InBody ∧ 0x9c ∈ bs then
      ∃ front back, bs = front ++ 0x9c :: back ∧ run bs ⟨t, m⟩ = run back fresh
    else ∃ t', Agree t' m ∧ run bs ⟨t, m⟩ = (⟨t', m⟩, []) := by
  induction bs generalizing t with
  | nil =>
    rw [if_neg fun hends => List.not_mem_nil hends.2]
    exact ⟨t, h, rfl⟩
  | cons b bs ih =>
    obtain ⟨hb, hbs⟩ := List.forall_mem_cons.mp hbs
    by_cases hends : m.InBody ∧ b = 0x9c
    · obtain ⟨hbody, rfl⟩ := hends
      rw [if_pos ⟨hbody, List.mem_cons_self⟩]
      refine ⟨[], bs, rfl, ?_⟩
      rw [run, step_end h hbody]
      rfl
    · obtain ⟨t', h', hstep⟩ := step_above h hm hb hends
      have hrun : run (b :: bs) ⟨t, m⟩ = run bs ⟨t', m⟩ := by
        rw [run, hstep]
        rfl
      have hrest := ih h' hbs
      rw [hrun]
      split at hrest
      · obtain ⟨hbody, hmem⟩ := ‹m.InBody ∧ 0x9c ∈ bs›
        rw [if_pos ⟨hbody, List.mem_cons_of_mem b hmem⟩]
        obtain ⟨front, back, rfl, hback⟩ := hrest
        exact ⟨b :: front, back, rfl, hback⟩
      · rw [if_neg ?_]
        · exact hrest
        · rintro ⟨hbody, hmem⟩
          rcases List.mem_cons.mp hmem with rfl | hmem
          · exact hends ⟨hbody, rfl⟩
          · exact ‹¬ (m.InBody ∧ 0x9c ∈ bs)› ⟨hbody, hmem⟩

/-- **A character in a string** ends the string, or leaves the part of it that is behind it. -/
theorem run_dropped (h : Agree t m) (hm : m.InString) {c : Char} (hc : 0x20 ≤ c.toNat) :
    if m.InBody ∧ 0x9c ∈ String.utf8EncodeChar c then
      run (String.utf8EncodeChar c) ⟨t, m⟩ = (fresh, [])
    else (m.behind c).InString ∧ ∃ t', Agree t' (m.behind c) ∧
      run (String.utf8EncodeChar c) ⟨t, m⟩ = (⟨t', m.behind c⟩, []) := by
  rcases Nat.lt_or_ge c.toNat 0x80 with hascii | habove
  · have henc : String.utf8EncodeChar c = [UInt8.ofNat c.toNat] := by
      rw [← Utf8.encode_one hascii, Char.ofNat_toNat]
    obtain ⟨hstring, t', h', hstep⟩ := step_below h hm hc hascii
    rw [henc, if_neg ?_]
    · refine ⟨hstring, t', h', ?_⟩
      rw [run, hstep]
      rfl
    · rintro ⟨-, hmem⟩
      have hval : (UInt8.ofNat c.toNat).toNat = c.toNat := Utf8.toNat_ofNat_of_lt (by omega)
      rw [← List.mem_singleton.mp hmem] at hval
      exact absurd hval (show ¬ 0x9c = c.toNat by omega)
  · have hbehind : m.behind c = m := by
      cases m with
      | device part => rw [Machine.behind, if_neg (by omega)]
      | _ => rfl
    obtain ⟨b, rest, henc, hb⟩ := Utf8.exists_encode_of_le habove
    have htails := Utf8.tail_of_mem_encode henc
    have hbytes : ∀ x ∈ b :: rest, 0x80 ≤ x :=
      List.forall_mem_cons.mpr ⟨hb, fun x hx => Utf8.le_of_tail (htails x hx)⟩
    have hrun := run_above h hm hbytes
    rw [henc, hbehind]
    split at hrun
    · rw [if_pos ‹_›]
      obtain ⟨front, back, hsplit, hback⟩ := hrun
      rw [hback]
      refine run_tails fun x hx => htails x ?_
      -- what is left of the character are continuation bytes
      cases front with
      | nil => exact (List.cons.inj hsplit).2 ▸ hx
      | cons _ front =>
        rw [(List.cons.inj hsplit).2]
        exact List.mem_append_right _ (List.mem_cons_of_mem _ hx)
    · rw [if_neg ‹_›]
      exact ⟨hm, hrun⟩

/-- The end of a string, `ESC \`, in a string or in the ground state. -/
theorem run_terminator (h : Agree t m) (hm : m.InString ∨ m = .ground) :
    run [0x1b, 0x5c] ⟨t, m⟩ = (fresh, [.escape [] 0x5c]) := by
  cases h <;> first | rfl | exact absurd hm (by simp [Machine.InString])

/-- **A payload and the end of its string**: what leaks is printed. -/
theorem run_payload (h : Agree t m) (hm : m.InString) {cs : List Char}
    (hcs : ∀ c ∈ cs, 0x20 ≤ c.toNat) :
    run (Utf8.encode cs ++ [0x1b, 0x5c]) ⟨t, m⟩ =
      (fresh, (m.leaked cs).map .print ++ [.escape [] 0x5c]) := by
  induction cs generalizing t m with
  | nil => exact run_terminator h (.inl hm)
  | cons c cs ih =>
    obtain ⟨hc, hcs⟩ := List.forall_mem_cons.mp hcs
    have hchar := run_dropped h hm hc
    rw [Utf8.encode_cons, List.append_assoc, run_append, Machine.leaked]
    split at hchar
    · have hend : fresh.run [0x1b, 0x5c] = (fresh, [.escape [] 0x5c]) :=
        run_terminator .ground (.inr rfl)
      rw [if_pos ‹_›, hchar, run_append, run_text hcs, hend]
      rfl
    · obtain ⟨hm', t', h', hrun⟩ := hchar
      rw [if_neg ‹_›, hrun, ih h' hm' hcs]
      rfl

end Interpreter

end Escape

/-! ### Strings -/

/-- The strings whose payload is dropped. -/
inductive StringKind where
  | deviceControl
  | startOfString
  | privacy
  | application
deriving DecidableEq, Repr

namespace StringKind

/-- The character that begins the string behind ESC. -/
def introducer : StringKind → Char
  | .deviceControl => 'P'
  | .startOfString => 'X'
  | .privacy => '^'
  | .application => '_'

/-- The part of the string that its payload begins with. -/
def opened : StringKind → Escape.Machine
  | .deviceControl => .device .entry
  | _ => .ignoredString

/-- The string with this payload: ESC, the introducer, the payload, and ESC \. -/
def characters (k : StringKind) (payload : List Char) : List Char :=
  ['\x1b', k.introducer] ++ payload ++ ['\x1b', '\\']

/-- What is shown of the payload: the characters behind the one that ends the string, except control
characters. -/
def shown (k : StringKind) (payload : List Char) : List Char :=
  (k.opened.leaked payload).filter fun c => !Width.isControl c

/-- **A string is read** as the characters that are shown of it. -/
theorem read_characters (k : StringKind) {payload : List Char}
    (hpayload : ∀ c ∈ payload, 0x20 ≤ c.toNat) :
    Reader.fresh.read (Utf8.encode (k.characters payload)) =
      (.fresh, (k.shown payload).map .print) := by
  have hopen : Escape.Interpreter.fresh.run (Utf8.encode ['\x1b', k.introducer]) =
      (⟨.string, k.opened⟩, []) := by
    cases k <;> decide +kernel
  have hagree : Escape.Agree .string k.opened := by
    cases k
    · exact .device .entry
    all_goals exact .ignoredString
  have hstring : k.opened.InString := by
    cases k <;> trivial
  have hend : Utf8.encode ['\x1b', '\\'] = [0x1b, 0x5c] := by decide +kernel
  have hrun : Escape.Interpreter.fresh.run (Utf8.encode (k.characters payload)) =
      (.fresh, (k.opened.leaked payload).map .print ++ [.escape [] 0x5c]) := by
    rw [characters, List.append_assoc, Utf8.encode_append, Utf8.encode_append, hend,
      Escape.Interpreter.run_append, hopen, Escape.Interpreter.run_payload hagree hstring hpayload]
    rfl
  have hprint : ∀ cs : List Char, (cs.map Escape.Action.print).flatMap Instruction.ofAction =
      (cs.filter fun c => !Width.isControl c).map .print := by
    intro cs
    induction cs with
    | nil => rfl
    | cons c cs ih =>
      rw [List.map_cons, List.flatMap_cons, ih, List.filter_cons, Instruction.ofAction]
      cases Width.isControl c <;> rfl
  have hescape : Instruction.ofAction (.escape [] 0x5c) = [] := by decide
  simp only [Reader.read, Reader.fresh, hrun, List.flatMap_append, hprint, List.flatMap_singleton,
    hescape, List.append_nil, shown]

end StringKind

/-- Printing characters is recorded as their text. -/
theorem Outcome.ofInstructions_print (cs : List Char) :
    ofInstructions (cs.map .print) = { transcript := String.ofList cs } := by
  induction cs with
  | nil => rfl
  | cons c cs ih =>
    have hfirst : ofInstructions [.print c] = { transcript := String.singleton c } := rfl
    rw [List.map_cons, ← List.singleton_append, ofInstructions_append, ih, hfirst, append,
      String.ofList_cons]
    rfl

namespace Parser

/-- Nothing is in progress: tracker and machine are in the ground state, and no byte is held
back. -/
structure AtRest (p : Parser) : Prop where
  tracker : p.guarded.tracker = .ground
  phase : p.guarded.registers.phase = .ground
  held : p.decoder.held = []

variable {p : Parser}

theorem AtRest.clean (h : p.AtRest) : p.Clean := fun hphase => by
  rw [h.phase] at hphase
  cases hphase

theorem AtRest.emulator_eq (h : p.AtRest) : p.emulator = { screen := p.screen } := by
  have hview : p.guarded.view = .fresh := by
    rw [Escape.Guarded.view, Escape.Registers.view, h.tracker, h.phase]
    rfl
  have hdecoder : p.decoder = .fresh := congrArg Decoder.mk h.held
  rw [emulator, hview, hdecoder]

/-- **What a device-control, start-of-string, privacy or application string does.**  Feed such a
string, cut or not, to a parser at rest, with a payload of characters from U+0020 on.

* What is shown of the payload is printed, and the parser, but for registers, is at rest again.
* Nothing changes and the outcome is empty exactly if nothing is shown of the payload.
* So it is if no character of the payload contains the byte 0x9C. -/
theorem feedAll?_string (hp : p.AtRest) (k : StringKind) {payload : List Char}
    (hpayload : ∀ c ∈ payload, 0x20 ≤ c.toNat) {chunks : List (List UInt8)}
    (hchunks : chunks.flatten = Utf8.encode (k.characters payload)) :
    (p.feedAll? chunks).map (fun (p', o) => (p'.emulator, o)) =
        (p.screen.obeyAll? ((k.shown payload).map .print)).map (fun s =>
          ({ screen := s }, { transcript := String.ofList (k.shown payload) })) ∧
      ((p.feedAll? chunks).map (fun (p', o) => (p'.screen, o)) = some (p.screen, .none) ↔
        k.shown payload = []) ∧
      ((∀ c ∈ payload, 0x9c ∉ String.utf8EncodeChar c) → k.shown payload = []) := by
  have hfeed : p.emulator.feedAll? chunks =
      (p.screen.obeyAll? ((k.shown payload).map .print)).map (fun s =>
        ({ screen := s }, { transcript := String.ofList (k.shown payload) })) := by
    rw [hp.emulator_eq, Emulator.feedAll?_encode _ hchunks, k.read_characters hpayload,
      Reader.perform?, Outcome.ofInstructions_print]
    rfl
  have hexact := (feedAll?_emulator hp.clean chunks).trans hfeed
  refine ⟨hexact, ?_, fun hnone => ?_⟩
  · rw [screen_feedAll? hp.clean, hfeed, Option.map_map]
    constructor
    · intro hsame
      obtain ⟨s, -, heq⟩ := Option.map_eq_some_iff.mp hsame
      have htranscript := congrArg (fun o => o.2.transcript.toList) heq
      simpa [Outcome.none] using htranscript
    · intro hshown
      rw [hshown]
      rfl
  · rw [StringKind.shown, Escape.Machine.leaked_eq_nil hnone]
    rfl

/-- A quotation mark and a word in a string, with the quotation mark E2 80 9C cut in two. -/
def quoted : List (List UInt8) := [[0x1b, 0x58, 0xe2, 0x80], [0x9c, 0x68, 0x69, 0x1b, 0x5c]]

/-- The word leaks: it is shown on the screen and in the transcript. -/
theorem feedAll?_string_quoted :
    AtRest { screen := .blank ⟨1, 8⟩ } ∧ (∀ c ∈ ['“', 'h', 'i'], 0x20 ≤ c.toNat ∧ c ≠ '\u009c') ∧
      quoted.flatten = Utf8.encode (StringKind.startOfString.characters ['“', 'h', 'i']) ∧
      ¬ (feedAll? quoted { screen := .blank ⟨1, 8⟩ }).map (fun (p', o) => (p'.screen, o)) =
        some (.blank ⟨1, 8⟩, .none) ∧
      (feedAll? quoted { screen := .blank ⟨1, 8⟩ }).map
        (fun (p', o) => (p'.screen.content, o.transcript)) = some ("hi", "hi") := by
  have hrest : AtRest { screen := .blank ⟨1, 8⟩ } := ⟨rfl, rfl, rfl⟩
  have hpayload : ∀ c ∈ ['“', 'h', 'i'], 0x20 ≤ c.toNat ∧ c ≠ '\u009c' := by
    simp only [List.forall_mem_cons]
    exact ⟨by decide, by decide, by decide, nofun⟩
  have hchunks : quoted.flatten =
      Utf8.encode (StringKind.startOfString.characters ['“', 'h', 'i']) := by decide +kernel
  have hshown : StringKind.startOfString.shown ['“', 'h', 'i'] = ['h', 'i'] := by decide +kernel
  obtain ⟨-, hdropped, -⟩ :=
    feedAll?_string hrest .startOfString (fun c hc => (hpayload c hc).1) hchunks
  refine ⟨hrest, hpayload, hchunks, ?_, by decide +kernel⟩
  rw [hdropped, hshown]
  exact List.cons_ne_nil _ _

end Parser

end VirtualTerminal
