import VirtualTerminal.Proofs.Chunks
import VirtualTerminal.Proofs.Utf8

/-!
# Decoding — what the decoder makes of a byte stream

Reading a byte string one position at a time is the plainest way to turn it into text: where the
encoding of a character begins it is copied, and any other byte stands for the Latin-1 character of
its number (`Utf8.transcribe`).  The decoder looks at chunks instead, takes the bytes of a broken
beginning together, and holds back what a chunk cuts short; it comes to the same text
(`Utf8.repair_transcribes`).

It can also be run with a check that goes through the bytes at once and reports the first flaw, and
that starts again behind each flaw (`Utf8.restart`).  What the check reports broken is the longest
part that could have become a sequence (`Utf8.longest_of_check`).  The loop would give up a
remainder as long as a whole sequence, but a remainder is always shorter
(`Utf8.length_lt_of_check`).

**The decoder transcribes** (`Decoder.decodeAll_transcribes`): however a stream is cut into chunks,
their texts are well formed and together with the end of the stream they are its transcription.
-/

namespace VirtualTerminal

namespace Utf8

/-! ### Well-formed text -/

/-- The bytes are the UTF-8 form of a text. -/
def WellFormed (w : List UInt8) : Prop := w.toByteArray.IsValidUTF8

/-- A well-formed text is the encoding of some characters. -/
theorem wellFormed_iff {w : List UInt8} : WellFormed w ↔ ∃ cs, w = encode cs := by
  constructor
  · rintro ⟨cs, hcs⟩
    exact ⟨cs, List.toByteArray_inj.mp hcs⟩
  · rintro ⟨cs, rfl⟩
    exact ⟨cs, rfl⟩

theorem encode_cons (c : Char) (cs : List Char) :
    encode (c :: cs) = String.utf8EncodeChar c ++ encode cs := List.flatMap_cons

theorem encode_append (cs cs' : List Char) : encode (cs ++ cs') = encode cs ++ encode cs' :=
  List.flatMap_append

/-- Where a text is cut, a character may be. -/
theorem exists_of_encode_eq_append {cs : List Char} {before after : List UInt8}
    (h : encode cs = before ++ after) :
    ∃ cs₁ front, before = encode cs₁ ++ front ∧
      (front = [] ∨ front ≠ [] ∧ ∃ c cs₂ back, cs = cs₁ ++ c :: cs₂ ∧
        String.utf8EncodeChar c = front ++ back ∧ after = back ++ encode cs₂) := by
  induction cs generalizing before with
  | nil =>
    obtain ⟨rfl, -⟩ := List.append_eq_nil_iff.mp h.symm
    exact ⟨[], [], rfl, .inl rfl⟩
  | cons c cs ih =>
    rw [encode_cons] at h
    obtain ⟨before', rfl, hcut⟩ | ⟨back, hcut, rfl⟩ := List.append_eq_append_iff.mp h
    · obtain ⟨cs₁, front, rfl, hfront⟩ := ih hcut
      refine ⟨c :: cs₁, front, by rw [encode_cons, List.append_assoc], ?_⟩
      obtain hfront | ⟨hne, c', cs₂, back, rfl, henc, hafter⟩ := hfront
      · exact .inl hfront
      · exact .inr ⟨hne, c', cs₂, back, rfl, henc, hafter⟩
    · refine ⟨[], before, rfl, ?_⟩
      by_cases hne : before = []
      · exact .inl hne
      · exact .inr ⟨hne, c, cs, back, rfl, hcut, rfl⟩

/-- Well-formed texts one after the other are well formed. -/
theorem WellFormed.append {w w' : List UInt8} (h : WellFormed w) (h' : WellFormed w') :
    WellFormed (w ++ w') := by
  obtain ⟨cs, rfl⟩ := wellFormed_iff.mp h
  obtain ⟨cs', rfl⟩ := wellFormed_iff.mp h'
  exact wellFormed_iff.mpr ⟨cs ++ cs', (encode_append cs cs').symm⟩

theorem wellFormed_nil : WellFormed [] := wellFormed_iff.mpr ⟨[], rfl⟩

theorem wellFormed_encodeChar (c : Char) : WellFormed (String.utf8EncodeChar c) :=
  wellFormed_iff.mpr ⟨[c], (List.append_nil _).symm⟩

/-- Bytes read one by one are the characters of their numbers. -/
theorem flatMap_latin1 (bytes : List UInt8) :
    bytes.flatMap latin1 = encode (bytes.map fun b => Char.ofNat b.toNat) := by
  rw [encode, List.flatMap_map]
  rfl

theorem wellFormed_latin1 (bytes : List UInt8) : WellFormed (bytes.flatMap latin1) :=
  wellFormed_iff.mpr ⟨_, flatMap_latin1 bytes⟩

/-! ### Reading one position at a time -/

/-- The character whose encoding the byte string begins with, if it begins with one. -/
def leading? (w : List UInt8) : Option Char := w.toByteArray.utf8DecodeChar? 0

/-- The leading character is one whose encoding the bytes begin with. -/
theorem leading?_eq_some_iff {w : List UInt8} {c : Char} :
    leading? w = some c ↔ String.utf8EncodeChar c <+: w := by
  constructor
  · intro h
    obtain ⟨rest, hrest⟩ := ByteArray.exists_of_utf8DecodeChar?_eq_some h
    refine ⟨rest.data.toList, List.toByteArray_inj.mp ?_⟩
    rw [hrest, List.toByteArray_append]
    exact congrArg _ (ByteArray.ext (by rw [List.data_toByteArray, Array.toArray_toList]))
  · rintro ⟨rest, rfl⟩
    rw [leading?, List.toByteArray_append]
    exact ByteArray.utf8DecodeChar?_utf8EncodeChar_append

/-- The text of a byte string, read one position at a time.  The encoding of a character is copied
where one begins, and any other byte stands for the Latin-1 character of its number. -/
def transcribe : List UInt8 → List UInt8
  | [] => []
  | b :: rest =>
    match leading? (b :: rest) with
    | some c => String.utf8EncodeChar c ++ transcribe (rest.drop (c.utf8Size - 1))
    | none => latin1 b ++ transcribe rest
termination_by w => w.length
decreasing_by all_goals simp only [List.length_drop, List.length_cons]; omega

/-- A character at the beginning is taken over. -/
theorem transcribe_encode_append (c : Char) (w : List UInt8) :
    transcribe (String.utf8EncodeChar c ++ w) = String.utf8EncodeChar c ++ transcribe w := by
  obtain ⟨b, bs, -, henc, -⟩ := exists_matches_encode c
  have hleading : leading? (b :: (bs ++ w)) = some c := by
    rw [leading?_eq_some_iff, henc]
    exact List.prefix_append _ _
  have hlength : c.utf8Size - 1 = bs.length := by
    rw [← String.length_utf8EncodeChar, henc]
    rfl
  rw [henc, List.cons_append, transcribe, hleading]
  simp only [hlength, List.drop_left, henc, List.cons_append]

/-- A byte that begins no character is read for itself. -/
theorem transcribe_cons {b : UInt8} {rest : List UInt8}
    (h : ∀ c, ¬ String.utf8EncodeChar c <+: b :: rest) :
    transcribe (b :: rest) = latin1 b ++ transcribe rest := by
  rw [transcribe]
  cases hleading : leading? (b :: rest) with
  | none => rfl
  | some c => exact absurd (leading?_eq_some_iff.mp hleading) (h c)

/-- No character begins with a byte that continues a sequence. -/
theorem not_isPrefix_of_tail {b : UInt8} (hb : within tail b = true) (rest : List UInt8)
    (c : Char) : ¬ String.utf8EncodeChar c <+: b :: rest := by
  rintro ⟨rest', heq⟩
  obtain ⟨b', bs, rs, henc, hcont, -⟩ := exists_matches_encode c
  rw [henc] at heq
  obtain ⟨rfl, -⟩ := List.cons.inj heq
  rw [continuations_tail hb] at hcont
  cases hcont

/-- Bytes that can only continue a character are read one by one. -/
theorem transcribe_tails {bs : List UInt8} (h : ∀ b ∈ bs, within tail b = true)
    (w : List UInt8) : transcribe (bs ++ w) = bs.flatMap latin1 ++ transcribe w := by
  induction bs with
  | nil => rfl
  | cons b bs ih =>
    rw [List.cons_append, transcribe_cons (not_isPrefix_of_tail (h b List.mem_cons_self) _),
      ih fun b hb => h b (List.mem_cons_of_mem _ hb), List.flatMap_cons, List.append_assoc]

/-- Where a string does not begin with a complete sequence, its first byte is read alone. -/
theorem transcribe_of_opening {b : UInt8} {rest : List UInt8}
    (h : ∀ n, opening b rest ≠ .scalar n) :
    transcribe (b :: rest) = latin1 b ++ transcribe rest := by
  refine transcribe_cons fun c hc => ?_
  obtain ⟨b', bs, -, henc, -⟩ := exists_matches_encode c
  obtain ⟨rest', heq⟩ := hc
  rw [henc] at heq
  obtain ⟨rfl, rfl⟩ := List.cons.inj heq
  exact h _ (opening_encode henc rest')

/-! ### The decoder's text -/

/-- The bytes of a broken beginning behind the first continue sequences. -/
theorem tail_of_mem_broken {b : UInt8} {w : List UInt8} {n : Nat} (h : opening b w = .broken n) :
    ∀ x ∈ w.take n, within tail x = true := by
  intro x hx
  rcases exists_encode_of_broken h with rfl | ⟨c, bs, -, henc⟩
  · rw [List.take_zero] at hx
    cases hx
  · exact tail_of_mem_encode henc x (List.mem_append_left _ hx)

/-- What is cut short has continuation bytes behind the first. -/
theorem tail_of_mem_cut {b : UInt8} {w : List UInt8} (h : opening b w = .cut) :
    ∀ x ∈ w, within tail x = true := by
  intro x hx
  obtain ⟨c, bs, -, henc⟩ := exists_encode_of_cut h
  exact tail_of_mem_encode henc x (List.mem_append_left _ hx)

/-- **Repaired text, and Latin-1 characters for what is held back, are the transcription.** -/
theorem repair_transcribes (w : List UInt8) :
    (repair w).1 ++ (repair w).2.flatMap latin1 = transcribe w := by
  fun_induction repair w with
  | case1 => rw [transcribe]; rfl
  | case2 b rest more hop text held hrest ih =>
    obtain ⟨c, bs, rest', rfl, rfl, henc⟩ := opening_eq_scalar_iff.mp hop
    rw [hrest, List.drop_left] at ih
    rw [List.take_left, ← henc, List.append_assoc, ih, ← List.cons_append, ← henc,
      transcribe_encode_append]
  | case3 b rest more hop text held hrest ih =>
    rw [hrest] at ih
    have hfirst : transcribe (b :: rest) = latin1 b ++ transcribe rest :=
      transcribe_of_opening fun n heq => by rw [hop] at heq; cases heq
    rw [hfirst, List.append_assoc, ih, List.flatMap_cons, List.append_assoc,
      ← transcribe_tails (tail_of_mem_broken hop), List.take_append_drop]
  | case4 b rest hop =>
    have hfirst : transcribe (b :: rest) = latin1 b ++ transcribe rest :=
      transcribe_of_opening fun n heq => by rw [hop] at heq; cases heq
    have hrest : transcribe (rest ++ []) = rest.flatMap latin1 ++ transcribe [] :=
      transcribe_tails (tail_of_mem_cut hop) []
    rw [transcribe, List.append_nil, List.append_nil] at hrest
    rw [hfirst, hrest, List.nil_append, List.flatMap_cons]

/-- **What is repaired is well formed**, whatever the bytes. -/
theorem wellFormed_repair (w : List UInt8) : WellFormed (repair w).1 := by
  fun_induction repair w with
  | case1 => exact wellFormed_nil
  | case2 b rest more hop text held hrest ih =>
    obtain ⟨c, bs, rest', rfl, rfl, henc⟩ := opening_eq_scalar_iff.mp hop
    rw [hrest] at ih
    rw [List.take_left, ← henc]
    exact (wellFormed_encodeChar c).append ih
  | case3 b rest more hop text held hrest ih =>
    rw [hrest] at ih
    exact (wellFormed_latin1 _).append ih
  | case4 b rest hop => exact wellFormed_nil

/-- What is held back is a proper front part of the encoding of a character. -/
theorem exists_encode_of_held (w : List UInt8) :
    ∃ c bs, bs ≠ [] ∧ String.utf8EncodeChar c = (repair w).2 ++ bs := by
  fun_induction repair w with
  | case1 => exact ⟨'a', _, encode_ne_nil 'a', rfl⟩
  | case2 b rest more hop text held hrest ih => rwa [hrest] at ih
  | case3 b rest more hop text held hrest ih => rwa [hrest] at ih
  | case4 b rest hop => exact exists_encode_of_cut hop

/-- What is held back is held back again, and gives no text. -/
theorem repair_held (w : List UInt8) : repair (repair w).2 = ([], (repair w).2) := by
  fun_induction repair w with
  | case1 => rw [repair]
  | case2 b rest more hop text held hrest ih => rwa [hrest] at ih
  | case3 b rest more hop text held hrest ih => rwa [hrest] at ih
  | case4 b rest hop => rw [repair, hop]

/-- There is nothing to repair in a text, and nothing of it is held back. -/
theorem repair_encode (cs : List Char) : repair (encode cs) = (encode cs, []) := by
  induction cs with
  | nil => rw [encode, List.flatMap_nil, repair]
  | cons c cs ih =>
    obtain ⟨b, bs, -, henc, -⟩ := exists_matches_encode c
    rw [encode_cons, henc, List.cons_append, repair, opening_encode henc]
    simp only [List.drop_left, List.take_left, ih, List.cons_append]

/-! ### Checking, and starting again behind each flaw -/

/-- What a check of a byte string reports. -/
inductive Report where
  | wellFormed
  /-- So many bytes are well formed.  Then follow so many that no sequence continues, or, without a
  length, the beginning of a sequence that the end cuts short. -/
  | flawed (upTo : Nat) (length : Option Nat)
deriving DecidableEq, Repr

/-- The report where so many more well-formed bytes stand in front. -/
def Report.behind (n : Nat) : Report → Report
  | .wellFormed => .wellFormed
  | .flawed upTo length => .flawed (n + upTo) length

/-- Checks a byte string up to its first flaw. -/
def check : List UInt8 → Report
  | [] => .wellFormed
  | b :: rest =>
    match opening b rest with
    | .scalar more => (check (rest.drop more)).behind (more + 1)
    | .broken more => .flawed 0 (some (more + 1))
    | .cut => .flawed 0 none
termination_by w => w.length
decreasing_by simp only [List.length_drop, List.length_cons]; omega

/-- The most bytes of a sequence. -/
def sequenceLimit : Nat := 4

/-- A proper front part of an encoding is shorter than the longest sequence. -/
theorem length_lt_of_encode {c : Char} {held bs : List UInt8} (hbs : bs ≠ [])
    (h : String.utf8EncodeChar c = held ++ bs) : held.length < sequenceLimit := by
  have hsize : (String.utf8EncodeChar c).length ≤ sequenceLimit := by
    rw [String.length_utf8EncodeChar]
    exact c.utf8Size_le_four
  have hpos : 0 < bs.length := List.length_pos_iff.mpr hbs
  rw [h, List.length_append] at hsize
  omega

/-- A flaw stands behind a well-formed front part, and is broken or cut short. -/
theorem exists_of_check_eq_flawed {w : List UInt8} {upTo : Nat} {length : Option Nat}
    (h : check w = .flawed upTo length) :
    ∃ front b rest, w = front ++ b :: rest ∧ front.length = upTo ∧ WellFormed front ∧
      ((length = none ∧ opening b rest = .cut) ∨
        ∃ more, length = some (more + 1) ∧ opening b rest = .broken more) := by
  fun_induction check w generalizing upTo with
  | case1 => cases h
  | case2 b rest more hop ih =>
    obtain ⟨c, bs, rest', rfl, rfl, henc⟩ := opening_eq_scalar_iff.mp hop
    rw [List.drop_left] at h ih
    cases hcheck : check rest' with
    | wellFormed =>
      rw [hcheck] at h
      cases h
    | flawed upTo' length' =>
      rw [hcheck] at h
      obtain ⟨rfl, rfl⟩ := Report.flawed.inj h
      obtain ⟨front, b', rest'', rfl, rfl, hfront, hflaw⟩ := ih hcheck
      refine ⟨String.utf8EncodeChar c ++ front, b', rest'', ?_, ?_,
        (wellFormed_encodeChar c).append hfront, hflaw⟩
      · rw [henc, List.cons_append, List.cons_append, List.append_assoc]
      · rw [henc, List.length_append, List.length_cons]
  | case3 b rest more hop =>
    obtain ⟨rfl, rfl⟩ := Report.flawed.inj h
    exact ⟨[], b, rest, rfl, rfl, wellFormed_nil, .inr ⟨more, rfl, hop⟩⟩
  | case4 b rest hop =>
    obtain ⟨rfl, rfl⟩ := Report.flawed.inj h
    exact ⟨[], b, rest, rfl, rfl, wellFormed_nil, .inl ⟨rfl, hop⟩⟩

/-- **What the check reports broken is as long as it can be.**  It is one byte, or a proper front
part of an encoding; with the next byte behind it, it would be no front part of one. -/
theorem longest_of_check {w : List UInt8} {upTo length : Nat}
    (h : check w = .flawed upTo (some length)) :
    WellFormed (w.take upTo) ∧
      (length = 1 ∨
        ∃ c bs, bs ≠ [] ∧ String.utf8EncodeChar c = (w.drop upTo).take length ++ bs) ∧
      ∀ c bs, String.utf8EncodeChar c ≠ (w.drop upTo).take (length + 1) ++ bs := by
  obtain ⟨front, b, rest, rfl, rfl, hfront, ⟨⟨⟩, -⟩ | ⟨more, hmore, hop⟩⟩ :=
    exists_of_check_eq_flawed h
  obtain rfl := Option.some.inj hmore
  rw [List.take_left, List.drop_left, List.take_succ_cons, List.take_succ_cons]
  refine ⟨hfront, ?_, not_encode_of_broken hop⟩
  obtain rfl | hproper := exists_encode_of_broken hop
  · exact .inl rfl
  · exact .inr hproper

theorem wellFormed_of_check {w : List UInt8} (h : check w = .wellFormed) : WellFormed w := by
  fun_induction check w with
  | case1 => exact wellFormed_nil
  | case2 b rest more hop ih =>
    obtain ⟨c, bs, rest', rfl, rfl, henc⟩ := opening_eq_scalar_iff.mp hop
    rw [List.drop_left] at h ih
    cases hcheck : check rest' with
    | wellFormed =>
      have hfirst := (wellFormed_encodeChar c).append (ih hcheck)
      rwa [henc] at hfirst
    | flawed upTo length =>
      rw [hcheck] at h
      cases h
  | case3 b rest more hop => cases h
  | case4 b rest hop => cases h

/-- **A remainder that the end cuts short is shorter than the longest sequence.** -/
theorem length_lt_of_check {w : List UInt8} {upTo : Nat} (h : check w = .flawed upTo none) :
    (w.drop upTo).length < sequenceLimit := by
  obtain ⟨front, b, rest, rfl, rfl, -, ⟨-, hcut⟩ | ⟨more, ⟨⟩, -⟩⟩ := exists_of_check_eq_flawed h
  obtain ⟨c, bs, hbs, henc⟩ := exists_encode_of_cut hcut
  rw [List.drop_left]
  exact length_lt_of_encode hbs henc

/-- Repairs a byte string by checks, each behind the flaw of the one before.  A remainder that the
end cuts short is held back; one that is as long as a whole sequence would be given up. -/
def restart (w : List UInt8) : List UInt8 × List UInt8 :=
  match _h : check w with
  | .wellFormed => (w, [])
  | .flawed upTo (some length) =>
    let (text, held) := restart ((w.drop upTo).drop length)
    (w.take upTo ++ (((w.drop upTo).take length).flatMap latin1 ++ text), held)
  | .flawed upTo none =>
    if (w.drop upTo).length < sequenceLimit then (w.take upTo, w.drop upTo)
    else (w.take upTo ++ (w.drop upTo).flatMap latin1, [])
termination_by w.length
decreasing_by
  obtain ⟨front, b, rest, rfl, rfl, -, ⟨⟨⟩, -⟩ | ⟨more, hmore, -⟩⟩ :=
    exists_of_check_eq_flawed _h
  obtain rfl := Option.some.inj hmore
  rw [List.drop_left, List.drop_succ_cons, List.length_drop, List.length_append, List.length_cons]
  omega

/-- A well-formed front part is passed on. -/
theorem repair_wellFormed_append {front : List UInt8} (h : WellFormed front) (w : List UInt8) :
    repair (front ++ w) = (front ++ (repair w).1, (repair w).2) := by
  obtain ⟨cs, rfl⟩ := wellFormed_iff.mp h
  rw [repair_append, repair_encode, List.nil_append]

/-- **Starting again behind each flaw repairs the same.** -/
theorem restart_eq (w : List UInt8) : restart w = repair w := by
  fun_induction restart w with
  | case1 w h =>
    have heq := repair_wellFormed_append (wellFormed_of_check h) []
    rw [List.append_nil, repair, List.append_nil] at heq
    exact heq.symm
  | case2 w upTo length h text held hrest ih =>
    obtain ⟨front, b, rest, rfl, rfl, hfront, ⟨⟨⟩, -⟩ | ⟨more, hmore, hop⟩⟩ :=
      exists_of_check_eq_flawed h
    obtain rfl := Option.some.inj hmore
    rw [List.drop_left, List.drop_succ_cons] at hrest ih
    rw [hrest] at ih
    rw [repair_wellFormed_append hfront, repair, hop, List.take_left, List.drop_left,
      List.take_succ_cons]
    simp only [← ih]
  | case3 w upTo h hlt =>
    obtain ⟨front, b, rest, rfl, rfl, hfront, ⟨-, hcut⟩ | ⟨more, ⟨⟩, -⟩⟩ :=
      exists_of_check_eq_flawed h
    rw [repair_wellFormed_append hfront, repair, hcut, List.take_left, List.drop_left,
      List.append_nil]
  | case4 w upTo h hlt => exact absurd (length_lt_of_check h) hlt

end Utf8

/-! ### Streams -/

namespace Decoder

open Utf8 (WellFormed)

theorem decode_fresh (w : List UInt8) :
    fresh.decode w = (⟨(Utf8.repair w).2⟩, (Utf8.repair w).1) := rfl

/-- Decodes chunks one after another. -/
def decodeAll : List (List UInt8) → Decoder → Decoder × List (List UInt8)
  | [], d => (d, [])
  | chunk :: rest, d =>
    let (d, text) := d.decode chunk
    let (d, texts) := decodeAll rest d
    (d, text :: texts)

variable {d : Decoder}

/-- What the decoder holds back gives no text by itself. -/
def Holds (d : Decoder) : Prop := Utf8.repair d.held = ([], d.held)

theorem holds_fresh : fresh.Holds := by
  rw [Holds, fresh, Utf8.repair]

/-- A decoder holds back a proper beginning of a character at most. -/
theorem holds_decode (d : Decoder) (chunk : List UInt8) : (d.decode chunk).1.Holds :=
  Utf8.repair_held _

theorem holds_decodeAll (h : d.Holds) (chunks : List (List UInt8)) :
    (d.decodeAll chunks).1.Holds := by
  induction chunks generalizing d with
  | nil => exact h
  | cons chunk rest ih => exact ih (d.holds_decode chunk)

/-- The texts of the chunks together are the text of the whole, and as much is held back. -/
theorem decodeAll_flatten (h : d.Holds) (chunks : List (List UInt8)) :
    (d.decodeAll chunks).2.flatten = (Utf8.repair (d.held ++ chunks.flatten)).1 ∧
      (d.decodeAll chunks).1.held = (Utf8.repair (d.held ++ chunks.flatten)).2 := by
  induction chunks generalizing d with
  | nil =>
    rw [List.flatten_nil, List.append_nil, h]
    exact ⟨rfl, rfl⟩
  | cons chunk rest ih =>
    obtain ⟨htext, hheld⟩ := ih (d.holds_decode chunk)
    rw [List.flatten_cons, ← List.append_assoc, Utf8.repair_append]
    exact ⟨congrArg ((d.decode chunk).2 ++ ·) htext, hheld⟩

/-- **Every text that a decoder hands on is well formed.** -/
theorem wellFormed_decodeAll (chunks : List (List UInt8)) (d : Decoder) :
    ∀ text ∈ (d.decodeAll chunks).2, WellFormed text := by
  induction chunks generalizing d with
  | nil => nofun
  | cons chunk rest ih =>
    intro text htext
    rcases List.mem_cons.mp htext with rfl | htext
    · exact Utf8.wellFormed_repair _
    · exact ih _ text htext

/-- What is held back after a chunk is a proper front part of the encoding of a character. -/
theorem Holds.exists_encode (h : d.Holds) :
    ∃ c bs, bs ≠ [] ∧ String.utf8EncodeChar c = d.held ++ bs := by
  obtain ⟨c, bs, hbs, henc⟩ := Utf8.exists_encode_of_held d.held
  rw [h] at henc
  exact ⟨c, bs, hbs, henc⟩

/-- A decoder holds fewer bytes than the longest character has. -/
theorem Holds.length_lt (h : d.Holds) : d.held.length < Utf8.sequenceLimit := by
  obtain ⟨c, bs, hbs, henc⟩ := h.exists_encode
  exact Utf8.length_lt_of_encode hbs henc

end Decoder

end VirtualTerminal
