import VirtualTerminal.Proofs.Strings

/-!
# Commands — titles and links

An operating-system command sets the window title (OSC 2) or the link of the text behind it (OSC 8).
Its body is cut at semicolons into arguments, and the title or link is put together from them again,
so that semicolons inside it are kept.  There is room for sixteen arguments and for 1024 bytes in
them.  What is kept of a body is a front part of it (`Command.kept`, `Command.arguments_foldl_put`);
its end can cut a character in two, which is then replaced (`Utf8.decodeLossy_front`).

**A title or link is what is kept of its text**, and is the text itself exactly if the text has room
(`Parser.feedAll?_textCommand`).
-/

namespace VirtualTerminal

/-! ### Lossy decoding -/

namespace Utf8

/-- Some, but not all, of the bytes that the ranges expect. -/
theorem follow_front {rs : List Span} {bs back : List UInt8} (h : Matches rs (bs ++ back))
    (hback : back ≠ []) (more : Nat) : follow more rs bs = .cut := by
  induction bs generalizing rs more with
  | nil =>
    cases h with
    | nil => exact absurd rfl hback
    | cons hwithin t => rfl
  | cons b bs ih =>
    cases h with
    | cons hwithin t =>
      rw [follow, if_pos hwithin]
      exact ih t _

/-- A text in front is decoded as it is. -/
theorem decodeLossy_append (cs : List Char) (w : List UInt8) :
    decodeLossy (encode cs ++ w) = cs ++ decodeLossy w := by
  induction cs with
  | nil => rfl
  | cons c cs ih =>
    obtain ⟨b, bs, -, henc, -⟩ := exists_matches_encode c
    have hopening : opening b (bs ++ (encode cs ++ w)) = .scalar bs.length :=
      opening_encode henc _
    rw [encode_cons, henc, List.append_assoc, List.cons_append, decodeLossy, hopening]
    simp only [List.take_left, List.drop_left, ih, scalarOf_encode henc, List.cons_append]

theorem decodeLossy_encode (cs : List Char) : decodeLossy (encode cs) = cs := by
  have h := decodeLossy_append cs []
  rwa [decodeLossy, List.append_nil, List.append_nil] at h

/-- **A character that the end cuts short is replaced.** -/
theorem decodeLossy_front {c : Char} {front back : List UInt8}
    (henc : String.utf8EncodeChar c = front ++ back) (hfront : front ≠ []) (hback : back ≠ []) :
    decodeLossy front = [replacement] := by
  obtain ⟨b, bs, rs, henc', hb, hmatches⟩ := exists_matches_encode c
  cases front with
  | nil => exact absurd rfl hfront
  | cons b' front =>
    obtain ⟨rfl, rfl⟩ := List.cons.inj (henc.symm.trans henc')
    have hcut : opening b' front = .cut := by
      rw [opening, hb]
      exact follow_front hmatches hback 0
    rw [decodeLossy, hcut]

/-- No byte of a text without control characters is one. -/
theorem le_of_mem_encode {cs : List Char} (h : ∀ c ∈ cs, 0x20 ≤ c.toNat) :
    ∀ b ∈ encode cs, 0x20 ≤ b := by
  intro b hb
  obtain ⟨c, hc, hb⟩ := List.mem_flatMap.mp hb
  rcases Nat.lt_or_ge c.toNat 0x80 with hascii | habove
  · rw [← Char.ofNat_toNat c, encode_one hascii, List.mem_singleton] at hb
    rw [hb, UInt8.le_iff_toNat_le, toNat_ofNat_of_lt (by omega)]
    exact h c hc
  · obtain ⟨b', rest, henc, hlead⟩ := exists_encode_of_le habove
    rw [henc] at hb
    have hhigh : 0x80 ≤ b := by
      rcases List.mem_cons.mp hb with rfl | hb
      · exact hlead
      · exact le_of_tail (tail_of_mem_encode henc b hb)
    exact UInt8.le_trans (by decide) hhigh

end Utf8

/-! ### What is kept of a body -/

namespace Escape

namespace Command

/-- A semicolon. -/
abbrev separator : UInt8 := 0x3b

/-- What is kept of the bytes of a body behind `closed` arguments, where `size` bytes are kept
already. -/
def kept (closed size : Nat) : List UInt8 → List UInt8
  | [] => []
  | b :: rest =>
    if size = byteLimit then []
    else if b = separator then
      -- the argument behind the last semicolon has no room, and nor has the semicolon then
      if closed + 1 = limit then [] else b :: kept (closed + 1) size rest
    else b :: kept closed (size + 1) rest

theorem kept_isPrefix (closed size : Nat) (w : List UInt8) : kept closed size w <+: w := by
  fun_induction kept closed size w with
  | case1 => exact List.nil_prefix
  | case2 => exact List.nil_prefix
  | case3 => exact List.nil_prefix
  | case4 closed size rest hsize hclosed ih => exact List.cons_prefix_cons.mpr ⟨rfl, ih⟩
  | case5 closed size b rest hsize hb ih => exact List.cons_prefix_cons.mpr ⟨rfl, ih⟩

/-- **All is kept exactly if there is room**: for one more argument than there are semicolons, and
in front of the last byte for the bytes that are none. -/
theorem kept_eq_self_iff {closed size : Nat} (hclosed : closed < limit) (hsize : size < byteLimit)
    (w : List UInt8) :
    kept closed size w = w ↔
      closed + w.count separator < limit ∧
        size + w.dropLast.countP (· != separator) < byteLimit := by
  induction w generalizing closed size with
  | nil => exact iff_of_true rfl ⟨hclosed, hsize⟩
  | cons b rest ih =>
    rw [kept, if_neg (Nat.ne_of_lt hsize)]
    by_cases hb : b = separator
    · subst hb
      rw [if_pos rfl, List.count_cons_self]
      have hlast : (separator :: rest).dropLast.countP (· != separator) =
          rest.dropLast.countP (· != separator) := by
        cases rest with
        | nil => rfl
        | cons b' rest => exact List.countP_cons_of_neg (by simp)
      rw [hlast]
      by_cases hfull : closed + 1 = limit
      · rw [if_pos hfull]
        exact iff_of_false nofun fun h => by omega
      · rw [if_neg hfull, List.cons.injEq, ih (by omega) hsize]
        simp only [true_and]
        rw [Nat.add_right_comm, Nat.add_assoc]
    · rw [if_neg hb, List.cons.injEq, List.count_cons_of_ne hb]
      simp only [true_and]
      cases rest with
      | nil => exact iff_of_true rfl ⟨hclosed, hsize⟩
      | cons b' rest =>
        have hlast : (b :: b' :: rest).dropLast.countP (· != separator) =
            (b' :: rest).dropLast.countP (· != separator) + 1 :=
          List.countP_cons_of_pos (by simpa using hb)
        rw [hlast]
        by_cases hfull : size + 1 = byteLimit
        · rw [kept, if_pos hfull]
          exact iff_of_false nofun fun h => by omega
        · rw [ih hclosed (by omega)]
          omega

/-! ### Joining the arguments -/

/-- Joining one more piece. -/
theorem intercalate_concat {pieces : List (List UInt8)} (h : pieces ≠ []) (a : List UInt8) :
    [separator].intercalate (pieces ++ [a]) = [separator].intercalate pieces ++ separator :: a := by
  induction pieces with
  | nil => exact absurd rfl h
  | cons p pieces ih =>
    cases pieces with
    | nil =>
      rw [List.singleton_append, List.intercalate_cons_cons, List.intercalate_singleton,
        List.intercalate_singleton, List.append_assoc, List.singleton_append]
    | cons q pieces =>
      have hrest := ih (List.cons_ne_nil q pieces)
      rw [List.cons_append] at hrest
      rw [List.cons_append, List.cons_append, List.intercalate_cons_cons, hrest,
        List.intercalate_cons_cons]
      simp only [List.append_assoc]

/-- The last piece goes on. -/
theorem intercalate_extend (pieces : List (List UInt8)) (a b : List UInt8) :
    [separator].intercalate (pieces ++ [a ++ b]) =
      [separator].intercalate (pieces ++ [a]) ++ b := by
  cases pieces with
  | nil => simp only [List.nil_append, List.intercalate_singleton]
  | cons p pieces =>
    rw [intercalate_concat (List.cons_ne_nil p pieces),
      intercalate_concat (List.cons_ne_nil p pieces), List.append_assoc, List.cons_append]

section Put
variable {c : Command} {b : UInt8}

theorem put_of_isFull (h : c.isFull = true) (b : UInt8) : c.put b = c := if_pos (by rw [h]; rfl)

theorem put_of_size_eq (h : c.size = byteLimit) (b : UInt8) : c.put b = c :=
  if_pos (by rw [h, beq_self_eq_true, Bool.or_true])

theorem put_separator (hfull : c.isFull = false) (hsize : c.size ≠ byteLimit) :
    c.put separator = ⟨c.closed ++ [c.current.toList], #[]⟩ := by
  have hroom : (c.isFull || c.size == byteLimit) = false := by
    rw [hfull, beq_false_of_ne hsize, Bool.or_false]
  rw [put, hroom, if_neg Bool.false_ne_true, if_pos rfl, close, hfull, if_neg Bool.false_ne_true]

theorem put_byte (hfull : c.isFull = false) (hsize : c.size ≠ byteLimit) (hb : b ≠ separator) :
    c.put b = ⟨c.closed, c.current.push b⟩ := by
  have hroom : (c.isFull || c.size == byteLimit) = false := by
    rw [hfull, beq_false_of_ne hsize, Bool.or_false]
  rw [put, hroom, if_neg Bool.false_ne_true, if_neg hb]

theorem foldl_put_of_isFull (h : c.isFull = true) (w : List UInt8) : w.foldl put c = c := by
  induction w with
  | nil => rfl
  | cons b rest ih => rw [List.foldl_cons, put_of_isFull h, ih]

end Put

theorem kept_of_size_eq (closed : Nat) (w : List UInt8) : kept closed byteLimit w = [] := by
  cases w with
  | nil => rfl
  | cons b rest => exact if_pos rfl

/-- **The arguments of a body, joined, are what is kept of it.**  `front` are the arguments that are
closed before the text to be joined begins. -/
theorem arguments_foldl_put (front pieces : List (List UInt8)) (current : Array UInt8)
    (h : (front ++ pieces).length < limit) (w : List UInt8) :
    ∃ pieces', (w.foldl put ⟨front ++ pieces, current⟩).arguments = front ++ pieces' ∧
      [separator].intercalate pieces' =
        [separator].intercalate (pieces ++ [current.toList]) ++
          kept (front ++ pieces).length (size ⟨front ++ pieces, current⟩) w := by
  induction w generalizing pieces current with
  | nil =>
    have hroom : isFull ⟨front ++ pieces, current⟩ = false := beq_false_of_ne (Nat.ne_of_lt h)
    refine ⟨pieces ++ [current.toList], ?_, (List.append_nil _).symm⟩
    simp only [List.foldl_nil, arguments, close, hroom, Bool.false_eq_true, if_false,
      List.append_assoc]
  | cons b rest ih =>
    have hroom : isFull ⟨front ++ pieces, current⟩ = false := beq_false_of_ne (Nat.ne_of_lt h)
    rw [List.foldl_cons]
    by_cases hsize : size ⟨front ++ pieces, current⟩ = byteLimit
    · -- neither this byte nor any behind it is kept
      have hrest := ih pieces current h
      rw [hsize, kept_of_size_eq] at hrest
      rw [put_of_size_eq hsize, hsize, kept_of_size_eq]
      exact hrest
    rw [kept, if_neg hsize]
    by_cases hb : b = separator
    · subst hb
      have hclosed : (front ++ pieces) ++ [current.toList] =
          front ++ (pieces ++ [current.toList]) := List.append_assoc ..
      have hlength : (front ++ (pieces ++ [current.toList])).length =
          (front ++ pieces).length + 1 := by
        rw [← hclosed, List.length_append, List.length_singleton]
      rw [put_separator hroom hsize, if_pos rfl, hclosed]
      by_cases hfull : (front ++ pieces).length + 1 = limit
      · have hisFull : isFull ⟨front ++ (pieces ++ [current.toList]), #[]⟩ = true :=
          beq_iff_eq.mpr (hlength.trans hfull)
        rw [foldl_put_of_isFull hisFull, arguments, close, if_pos hisFull, if_pos hfull]
        exact ⟨_, rfl, (List.append_nil _).symm⟩
      · have hkept : size ⟨front ++ (pieces ++ [current.toList]), #[]⟩ =
            size ⟨front ++ pieces, current⟩ := by
          simp [size, Nat.add_assoc]
        obtain ⟨pieces', harguments, hjoined⟩ :=
          ih (pieces ++ [current.toList]) #[] (by omega)
        rw [intercalate_concat (List.append_ne_nil_of_right_ne_nil _ (List.cons_ne_nil _ _)),
          hlength, hkept, List.append_assoc] at hjoined
        rw [if_neg hfull]
        exact ⟨pieces', harguments, hjoined⟩
    · have hkept : size ⟨front ++ pieces, current.push b⟩ =
          size ⟨front ++ pieces, current⟩ + 1 := by
        simp [size, Nat.add_assoc]
      obtain ⟨pieces', harguments, hjoined⟩ := ih pieces (current.push b) h
      rw [Array.toList_push, intercalate_extend, hkept, List.append_assoc] at hjoined
      rw [put_byte hroom hsize hb, if_neg hb]
      exact ⟨pieces', harguments, hjoined⟩

end Command

namespace Interpreter

/-- A byte of the body is kept, as far as there is room. -/
theorem step_body {b : UInt8} (hb : 0x20 ≤ b) (body : Command) :
    step ⟨.command, .command body⟩ b = (⟨.command, .command (body.put b)⟩, []) := by
  have hcancel : ¬ (b = 0x18 ∨ b = 0x1a) := by grind
  have hescape : ¬ b = 0x1b := by grind
  have hbell : ¬ b = 0x07 := by grind
  have hcontrol : ¬ b < 0x20 := by grind
  have hresync : resync ⟨.command, .command body⟩ b = (⟨.command, .command body⟩, []) :=
    if_neg (by simp [Tracker.rejects])
  simp only [step, hresync, Machine.step, Machine.fromCommand, Tracker.next, if_neg hcancel,
    if_neg hescape, if_neg hbell, if_neg hcontrol, List.append_nil]

theorem run_body {bs : List UInt8} (h : ∀ b ∈ bs, 0x20 ≤ b) (body : Command) :
    run bs ⟨.command, .command body⟩ = (⟨.command, .command (bs.foldl Command.put body)⟩, []) := by
  induction bs generalizing body with
  | nil => rfl
  | cons b bs ih =>
    obtain ⟨hb, hbs⟩ := List.forall_mem_cons.mp h
    rw [run, step_body hb, ih hbs]
    rfl

end Interpreter

end Escape

/-! ### Titles and links -/

/-- The operating-system commands that carry a text. -/
inductive TextCommand where
  /-- The window title. -/
  | title
  /-- The link of the text that follows. -/
  | link
deriving DecidableEq, Repr

/-- How a command can end. -/
inductive Terminator where
  /-- By BEL. -/
  | bell
  /-- By ESC and a backslash. -/
  | escape
deriving DecidableEq, Repr

namespace Terminator

/-- The characters that end the command. -/
def characters : Terminator → List Char
  | .bell => ['\x07']
  | .escape => ['\x1b', '\\']

/-- What is handed on at the end of a command: its arguments, and the escape sequence that ended
it. -/
theorem run_characters (t : Terminator) (body : Escape.Command) :
    Escape.Interpreter.run (Utf8.encode t.characters) ⟨.command, .command body⟩ =
      (.fresh, .command body.arguments ::
        match t with
        | .bell => []
        | .escape => [.escape [] 0x5c]) := by
  cases t with
  | bell =>
    have hend : Utf8.encode bell.characters = [0x07] := by decide +kernel
    rw [hend]
    rfl
  | escape =>
    have hend : Utf8.encode escape.characters = [0x1b, 0x5c] := by decide +kernel
    rw [hend]
    rfl

end Terminator

namespace TextCommand

open Escape (Command)

/-- What stands in front of the text. -/
def front : TextCommand → List Char
  | .title => ['2', ';']
  | .link => ['8', ';', ';']

/-- The arguments in front of the text. -/
def arguments : TextCommand → List (List UInt8)
  | .title => [[0x32]]
  | .link => [[0x38], []]

/-- The command with this text. -/
def characters (k : TextCommand) (text : List Char) (t : Terminator) : List Char :=
  ['\x1b', ']'] ++ (k.front ++ text ++ t.characters)

/-- The bytes that are kept of a text; the number of the command has taken the room of one. -/
def kept (k : TextCommand) (text : List Char) : List UInt8 :=
  Command.kept k.arguments.length 1 (Utf8.encode text)

/-- The text that is kept of a text. -/
def received (k : TextCommand) (text : List Char) : List Char := Utf8.decodeLossy (k.kept text)

/-- There is room for the whole text: for the arguments that its semicolons make of it, and for the
bytes that are no semicolons. -/
def HasRoom (k : TextCommand) (text : List Char) : Prop :=
  k.arguments.length + (Utf8.encode text).count Command.separator < Command.limit ∧
    1 + (Utf8.encode text).dropLast.countP (· != Command.separator) < Command.byteLimit

instance (k : TextCommand) (text : List Char) : Decidable (k.HasRoom text) :=
  inferInstanceAs (Decidable (_ ∧ _))

/-- The link that a text names; no text ends the link. -/
def target (text : List Char) : Option String :=
  if text.isEmpty then none else some (String.ofList text)

/-- What the command asks for. -/
def instruction (k : TextCommand) (text : List Char) : Instruction :=
  match k with
  | .title => .title (String.ofList text)
  | .link => .setLink (target text)

/-- What the command does to a screen, and its outcome. -/
def effect (k : TextCommand) (s : Screen) (text : List Char) : Screen × Outcome :=
  match k with
  | .title => (s, { titles := [String.ofList text] })
  | .link => (s.setLink (target text), .none)

variable {k : TextCommand} {text text' : List Char}

/-! ### How much is received -/

theorem kept_isPrefix (k : TextCommand) (text : List Char) : k.kept text <+: Utf8.encode text :=
  Command.kept_isPrefix ..

theorem kept_eq_iff_hasRoom : k.kept text = Utf8.encode text ↔ k.HasRoom text := by
  have hclosed : k.arguments.length < Command.limit := by cases k <;> decide
  exact Command.kept_eq_self_iff hclosed (by decide) _

/-- **The text is received whole exactly if it has room**; or else nothing but a part of a last
replacement character is missing, which is replaced by itself. -/
theorem received_eq_iff :
    k.received text = text ↔
      k.HasRoom text ∨ ∃ cs, text = cs ++ [Utf8.replacement] ∧
        (Utf8.encode cs).length < (k.kept text).length := by
  rw [← kept_eq_iff_hasRoom]
  obtain ⟨dropped, hsplit⟩ := k.kept_isPrefix text
  constructor
  · intro h
    rw [received] at h
    obtain ⟨cs, front, hkept, hfront⟩ := Utf8.exists_of_encode_eq_append hsplit.symm
    rw [hkept, Utf8.decodeLossy_append] at h
    obtain rfl | ⟨hne, c, cs', back, rfl, henc, hdropped⟩ := hfront
    · rw [Utf8.decodeLossy, List.append_nil] at h
      left
      rw [hkept, List.append_nil, h]
    · have hchar : Utf8.decodeLossy front = c :: cs' := List.append_cancel_left h
      by_cases hback : back = []
      · left
        rw [hback, List.append_nil] at henc
        have hone := Utf8.decodeLossy_encode [c]
        rw [Utf8.encode, List.flatMap_singleton, henc, hchar] at hone
        rw [hkept, Utf8.encode_append, Utf8.encode_cons, (List.cons.inj hone).2, henc]
        exact congrArg _ (List.append_nil _).symm
      · right
        rw [Utf8.decodeLossy_front henc hne hback] at hchar
        obtain ⟨rfl, rfl⟩ := List.cons.inj hchar
        refine ⟨cs, rfl, ?_⟩
        rw [hkept, List.length_append]
        exact Nat.lt_add_of_pos_right (List.length_pos_iff.mpr hne)
  · rintro (h | ⟨cs, rfl, hlength⟩)
    · rw [received, h, Utf8.decodeLossy_encode]
    · rw [Utf8.encode_append] at hsplit
      obtain ⟨front, hkept, hback⟩ | ⟨front, hkept, hback⟩ := List.append_eq_append_iff.mp hsplit
      · have := congrArg List.length hkept
        rw [List.length_append] at this
        omega
      · -- what is kept ends inside the replacement character, or behind it
        have hfront : front ≠ [] := by
          rintro rfl
          rw [hkept, List.append_nil] at hlength
          exact Nat.lt_irrefl _ hlength
        rw [received, hkept, Utf8.decodeLossy_append]
        congr 1
        by_cases hdropped : dropped = []
        · rw [hdropped, List.append_nil] at hback
          rw [← hback]
          exact Utf8.decodeLossy_encode [Utf8.replacement]
        · rw [Utf8.encode_cons] at hback
          exact Utf8.decodeLossy_front ((List.append_nil _).symm.trans hback) hfront hdropped

/-! ### Reading a command -/

/-- The arguments in front of the text are closed when it begins. -/
theorem foldl_put_front (k : TextCommand) :
    (Utf8.encode k.front).foldl Command.put {} = ⟨k.arguments, #[]⟩ := by
  cases k with
  | title =>
    have hfront : Utf8.encode (front .title) = [0x32, 0x3b] := by decide +kernel
    rw [hfront]
    rfl
  | link =>
    have hfront : Utf8.encode (front .link) = [0x38, 0x3b, 0x3b] := by decide +kernel
    rw [hfront]
    rfl

/-- The arguments behind those in front are joined to the text of the instruction. -/
theorem ofCommand_arguments (k : TextCommand) (pieces : List (List UInt8)) :
    Instruction.ofCommand (k.arguments ++ pieces) =
      [k.instruction (Utf8.decodeLossy ([Command.separator].intercalate pieces))] := by
  cases k with
  | title => rfl
  | link =>
    have hzero : Instruction.named [0x38] "0" = false := by decide
    have htwo : Instruction.named [0x38] "2" = false := by decide
    have height : Instruction.named [0x38] "8" = true := by decide
    simp only [arguments, List.cons_append, Instruction.ofCommand, hzero, htwo, height,
      Bool.or_self, Bool.false_eq_true, if_true, if_false, List.drop_succ_cons, List.drop_zero,
      List.nil_append, instruction, target, Instruction.joined, String.isEmpty_iff,
      String.ofList_eq_empty_iff, List.isEmpty_iff]

/-- **A command is read** as one instruction, with what is received of its text. -/
theorem read_characters (k : TextCommand) (htext : ∀ c ∈ text, 0x20 ≤ c.toNat) (t : Terminator) :
    Reader.fresh.read (Utf8.encode (k.characters text t)) =
      (.fresh, [k.instruction (k.received text)]) := by
  have hopen : Escape.Interpreter.fresh.run (Utf8.encode ['\x1b', ']']) =
      (⟨.command, .command {}⟩, []) := by decide +kernel
  have hfront : ∀ c ∈ k.front, 0x20 ≤ c.toNat := by cases k <;> simp [front]
  have hbody : ∀ b ∈ Utf8.encode (k.front ++ text), 0x20 ≤ b :=
    Utf8.le_of_mem_encode (List.forall_mem_append.mpr ⟨hfront, htext⟩)
  have hclosed : (k.arguments ++ []).length < Command.limit := by cases k <;> decide
  have hsize : Command.size ⟨k.arguments ++ [], #[]⟩ = 1 := by cases k <;> rfl
  obtain ⟨pieces, harguments, hjoined⟩ :=
    Command.arguments_foldl_put k.arguments [] #[] hclosed (Utf8.encode text)
  rw [hsize, List.append_nil, List.nil_append, List.intercalate_singleton,
    List.nil_append] at hjoined
  rw [List.append_nil] at harguments
  have hend : (match t with
      | .bell => []
      | .escape => [Escape.Action.escape [] 0x5c]).flatMap Instruction.ofAction = [] := by
    cases t <;> decide
  rw [characters, Utf8.encode_append, Utf8.encode_append, Reader.read, Reader.fresh,
    Escape.Interpreter.run_append, hopen, Escape.Interpreter.run_append,
    Escape.Interpreter.run_body hbody, t.run_characters, Utf8.encode_append, List.foldl_append,
    foldl_put_front, harguments, List.nil_append, List.nil_append, List.flatMap_cons, hend,
    List.append_nil, Instruction.ofAction, ofCommand_arguments, hjoined]
  rfl

/-! ### The effect of a command -/

theorem target_injective : Function.Injective target := by
  intro text text' h
  rw [target, target] at h
  cases text with
  | nil =>
    cases text' with
    | nil => rfl
    | cons c text' => cases h
  | cons c text =>
    cases text' with
    | nil => cases h
    | cons c' text' => exact String.ofList_injective (Option.some.inj h)

/-- Different texts have different effects. -/
theorem effect_injective (k : TextCommand) (s : Screen) : Function.Injective (k.effect s) := by
  intro text text' h
  cases k with
  | title =>
    have htitles : [String.ofList text] = [String.ofList text'] :=
      congrArg (fun r => r.2.titles) h
    exact String.ofList_injective (List.cons.inj htitles).1
  | link =>
    have hlink : target text = target text' := congrArg (fun r => r.1.link) h
    exact target_injective hlink

/-- The instruction has the effect of the command. -/
theorem perform?_instruction (k : TextCommand) (s : Screen) (text : List Char) :
    Reader.perform? (.fresh, [k.instruction text]) s =
      some ({ screen := (k.effect s text).1 }, (k.effect s text).2) := by
  cases k <;> rfl

end TextCommand

namespace Parser
variable {p : Parser} {text : List Char}

/-- **What setting a title or a link does.**  Feed such a command, cut or not and ended either way,
to a parser at rest, with a text of characters from U+0020 on.

* A title is reported and the screen does not change; a link is set and nothing else changes; and
  the parser, but for registers, is at rest again.  The title or link is what is received of the
  text.
* It is the text itself exactly if that has room, or if nothing but a part of a replacement
  character at its end is missing. -/
theorem feedAll?_textCommand (hp : p.AtRest) (k : TextCommand) (t : Terminator)
    (htext : ∀ c ∈ text, 0x20 ≤ c.toNat) {chunks : List (List UInt8)}
    (hchunks : chunks.flatten = Utf8.encode (k.characters text t)) :
    (p.feedAll? chunks).map (fun (p', o) => (p'.emulator, o)) =
        some ({ screen := (k.effect p.screen (k.received text)).1 },
          (k.effect p.screen (k.received text)).2) ∧
      ((p.feedAll? chunks).map (fun (p', o) => (p'.screen, o)) = some (k.effect p.screen text) ↔
        k.HasRoom text ∨ ∃ cs, text = cs ++ [Utf8.replacement] ∧
          (Utf8.encode cs).length < (k.kept text).length) := by
  have hfeed : p.emulator.feedAll? chunks =
      some ({ screen := (k.effect p.screen (k.received text)).1 },
        (k.effect p.screen (k.received text)).2) := by
    rw [hp.emulator_eq, Emulator.feedAll?_encode _ hchunks, k.read_characters htext t,
      k.perform?_instruction]
  refine ⟨(feedAll?_emulator hp.clean chunks).trans hfeed, ?_⟩
  rw [screen_feedAll? hp.clean, hfeed, ← TextCommand.received_eq_iff, Option.map_some,
    Option.some_inj]
  exact (k.effect_injective p.screen).eq_iff

/-- A title with more semicolons than a command has arguments, in two chunks. -/
def crowded : List (List UInt8) :=
  [[0x1b, 0x5d, 0x32, 0x3b], List.replicate 15 0x3b ++ [0x78, 0x07]]

/-- Its end is lost: neither the last semicolon nor the letter behind it is in the title. -/
theorem feedAll?_textCommand_crowded :
    AtRest { screen := .blank ⟨1, 8⟩ } ∧
      (∀ c ∈ List.replicate 15 ';' ++ ['x'], 0x20 ≤ c.toNat) ∧
      crowded.flatten =
        Utf8.encode (TextCommand.title.characters (List.replicate 15 ';' ++ ['x']) .bell) ∧
      ¬ (feedAll? crowded { screen := .blank ⟨1, 8⟩ }).map (fun (p', o) => (p'.screen, o)) =
        some (.blank ⟨1, 8⟩, { titles := [";;;;;;;;;;;;;;;x"] }) ∧
      (feedAll? crowded { screen := .blank ⟨1, 8⟩ }).map (fun (p', o) => (p'.emulator, o)) =
        some ({ screen := .blank ⟨1, 8⟩ }, { titles := [";;;;;;;;;;;;;;"] }) := by
  have hrest : AtRest { screen := .blank ⟨1, 8⟩ } := ⟨rfl, rfl, rfl⟩
  have htext : ∀ c ∈ List.replicate 15 ';' ++ ['x'], 0x20 ≤ c.toNat := by
    refine List.forall_mem_append.mpr ⟨fun c hc => ?_, List.forall_mem_singleton.mpr (by decide)⟩
    rw [List.eq_of_mem_replicate hc]
    decide
  have hchunks : crowded.flatten =
      Utf8.encode (TextCommand.title.characters (List.replicate 15 ';' ++ ['x']) .bell) := by
    decide +kernel
  have hreceived : TextCommand.title.received (List.replicate 15 ';' ++ ['x']) =
      List.replicate 14 ';' := by decide +kernel
  have hroom : ¬ TextCommand.title.HasRoom (List.replicate 15 ';' ++ ['x']) := by decide +kernel
  obtain ⟨hexact, hwhole⟩ := feedAll?_textCommand hrest .title .bell htext hchunks
  refine ⟨hrest, htext, hchunks, fun hsame => ?_, ?_⟩
  · obtain h | ⟨cs, hcs, -⟩ := hwhole.mp hsame
    · exact hroom h
    · exact absurd (List.append_inj_right' hcs rfl) (by decide)
  · rw [hexact, hreceived]
    rfl

end Parser

end VirtualTerminal
