import VirtualTerminal.Text.Decoder

/-!
# Utf8 — sequences and characters

The ranges that `Utf8.continuations` gives to the bytes behind a first byte are those of the bytes
of a character: the byte strings that match them are the encodings of characters, each of its own
(`exists_matches_encode`, `encode_scalarOf`).  So a byte string begins with a complete sequence
exactly if it begins with the encoding of a character (`opening_eq_scalar_iff`), and one that the
end of the string cuts short is a proper front part of such an encoding (`exists_encode_of_cut`).
-/

namespace VirtualTerminal.Utf8

/-- The bytes lie in the ranges, one in each. -/
inductive Matches : List Span → List UInt8 → Prop
  | nil : Matches [] []
  | cons {r : Span} {rs : List Span} {b : UInt8} {bs : List UInt8} (h : within r b = true)
      (t : Matches rs bs) : Matches (r :: rs) (b :: bs)

/-- There is a byte for each range. -/
theorem Matches.isEmpty_eq {rs : List Span} {bs : List UInt8} (h : Matches rs bs) :
    rs.isEmpty = bs.isEmpty := by
  cases h <;> rfl

theorem Matches.eq_nil {bs : List UInt8} (h : Matches [] bs) : bs = [] := by
  cases h
  rfl

/-! ### Bytes as numbers -/

section Numbers
variable {b x y z : UInt8} {n : Nat}

theorem within_iff {r : Span} : within r b = true ↔ r.1.toNat ≤ b.toNat ∧ b.toNat ≤ r.2.toNat := by
  simp only [within, Bool.and_eq_true, decide_eq_true_eq, UInt8.le_iff_toNat_le]

theorem within_tail_iff : within tail b = true ↔ 0x80 ≤ b.toNat ∧ b.toNat ≤ 0xbf := within_iff

theorem toNat_ofNat_of_lt (h : n < 256) : (UInt8.ofNat n).toNat = n :=
  (UInt8.toNat_ofNat' ..).trans (Nat.mod_eq_of_lt h)

theorem ofNat_eq (hb : n = b.toNat) : UInt8.ofNat n = b := by
  rw [hb, UInt8.ofNat_toNat]

/-- The ranges behind a first byte, by its number. -/
theorem continuations_eq (b : UInt8) :
    continuations b =
      if b.toNat < 0x80 then some []
      else if b.toNat < 0xc2 then none
      else if b.toNat < 0xe0 then some [tail]
      else if b.toNat = 0xe0 then some [(0xa0, 0xbf), tail]
      else if b.toNat = 0xed then some [(0x80, 0x9f), tail]
      else if b.toNat < 0xf0 then some [tail, tail]
      else if b.toNat = 0xf0 then some [(0x90, 0xbf), tail, tail]
      else if b.toNat < 0xf4 then some [tail, tail, tail]
      else if b.toNat = 0xf4 then some [(0x80, 0x8f), tail, tail]
      else none := by
  simp only [continuations, UInt8.lt_iff_toNat_lt, ← UInt8.toNat_inj]
  rfl

theorem continuations_one (h : b.toNat < 0x80) : continuations b = some [] := by
  rw [continuations_eq, if_pos h]

theorem continuations_two (h : 0xc2 ≤ b.toNat) (h' : b.toNat < 0xe0) :
    continuations b = some [tail] := by
  rw [continuations_eq, if_neg (by omega), if_neg (by omega), if_pos h']

/-- The second of three bytes keeps the sequence from being overlong or a surrogate. -/
theorem continuations_three (h : 0xe0 ≤ b.toNat) (h' : b.toNat < 0xf0) :
    ∃ r, continuations b = some [r, tail] ∧
      ∀ x, within r x = true ↔ within tail x = true ∧ (b.toNat = 0xe0 → 0xa0 ≤ x.toNat) ∧
        (b.toNat = 0xed → x.toNat ≤ 0x9f) := by
  simp only [within_tail_iff]
  rw [continuations_eq, if_neg (by omega), if_neg (by omega), if_neg (by omega)]
  by_cases hlow : b.toNat = 0xe0
  · refine ⟨_, if_pos hlow, fun x => within_iff.trans ?_⟩
    change 0xa0 ≤ x.toNat ∧ x.toNat ≤ 0xbf ↔ _
    omega
  · by_cases hsurrogate : b.toNat = 0xed
    · refine ⟨_, (if_neg hlow).trans (if_pos hsurrogate), fun x => within_iff.trans ?_⟩
      change 0x80 ≤ x.toNat ∧ x.toNat ≤ 0x9f ↔ _
      omega
    · refine ⟨_, (if_neg hlow).trans ((if_neg hsurrogate).trans (if_pos h')), fun x => ?_⟩
      rw [within_tail_iff]
      omega

/-- The second of four bytes keeps the sequence from being overlong or beyond the last character. -/
theorem continuations_four (h : 0xf0 ≤ b.toNat) (h' : b.toNat ≤ 0xf4) :
    ∃ r, continuations b = some [r, tail, tail] ∧
      ∀ x, within r x = true ↔ within tail x = true ∧ (b.toNat = 0xf0 → 0x90 ≤ x.toNat) ∧
        (b.toNat = 0xf4 → x.toNat ≤ 0x8f) := by
  simp only [within_tail_iff]
  rw [continuations_eq, if_neg (by omega), if_neg (by omega), if_neg (by omega),
    if_neg (by omega), if_neg (by omega), if_neg (by omega)]
  by_cases hlow : b.toNat = 0xf0
  · refine ⟨_, if_pos hlow, fun x => within_iff.trans ?_⟩
    change 0x90 ≤ x.toNat ∧ x.toNat ≤ 0xbf ↔ _
    omega
  · by_cases hlast : b.toNat = 0xf4
    · refine ⟨_, (if_neg hlow).trans ((if_neg (by omega)).trans (if_pos hlast)), fun x =>
        within_iff.trans ?_⟩
      change 0x80 ≤ x.toNat ∧ x.toNat ≤ 0x8f ↔ _
      omega
    · refine ⟨_, (if_neg hlow).trans (if_pos (by omega)), fun x => ?_⟩
      rw [within_tail_iff]
      omega

/-- No sequence begins with a continuation byte, with an overlong lead or behind the last one. -/
theorem continuations_eq_none (h : (0x80 ≤ b.toNat ∧ b.toNat < 0xc2) ∨ 0xf4 < b.toNat) :
    continuations b = none := by
  rw [continuations_eq, if_neg (by omega)]
  by_cases hc : b.toNat < 0xc2
  · exact if_pos hc
  · rw [if_neg hc, if_neg (by omega), if_neg (by omega), if_neg (by omega), if_neg (by omega),
      if_neg (by omega), if_neg (by omega), if_neg (by omega)]

/-- A byte above 0x7f does not stand alone. -/
theorem continuations_ne_nil (h : 0x80 ≤ b.toNat) : continuations b ≠ some [] := by
  rw [continuations_eq, if_neg (by omega)]
  grind

theorem le_of_tail (h : within tail b = true) : 0x80 ≤ b :=
  UInt8.le_iff_toNat_le.mpr (within_tail_iff.mp h).1

/-- A byte that continues a sequence begins none. -/
theorem continuations_tail (h : within tail b = true) : continuations b = none := by
  rw [within_tail_iff] at h
  exact continuations_eq_none (.inl (by omega))

/-- What a first byte contributes to the number of its character. -/
theorem leadBits_eq (b : UInt8) :
    leadBits b =
      if b.toNat < 0x80 then b.toNat
      else if b.toNat < 0xe0 then b.toNat % 32
      else if b.toNat < 0xf0 then b.toNat % 16
      else b.toNat % 8 := by
  simp only [leadBits, UInt8.lt_iff_toNat_lt]
  rfl

/-! ### The encoding of a number -/

theorem toNat_val_ofNat (h : n.isValidChar) : (Char.ofNat n).val.toNat = n := by
  rw [Char.ofNat, dif_pos h]
  rfl

/-- A number below 0x80 is encoded in one byte. -/
theorem encode_one (h : n < 0x80) : String.utf8EncodeChar (Char.ofNat n) = [UInt8.ofNat n] := by
  rw [String.utf8EncodeChar, toNat_val_ofNat (.inl (by omega))]
  exact if_pos (by omega)

/-- A number below 0x800 is encoded in two bytes, the second with six bits of it. -/
theorem encode_two (h : 0x80 ≤ n) (h' : n < 0x800) :
    String.utf8EncodeChar (Char.ofNat n) =
      [UInt8.ofNat (n / 64 + 192), UInt8.ofNat (n % 64 + 128)] := by
  rw [String.utf8EncodeChar, toNat_val_ofNat (.inl (by omega))]
  rw [if_neg (by omega), if_pos (by omega), Nat.mod_eq_of_lt (by omega : n / 64 < 32)]

/-- A number below 0x10000 is encoded in three bytes, with six bits behind the first each. -/
theorem encode_three (h : 0x800 ≤ n) (h' : n < 0x10000) (hv : n.isValidChar) :
    String.utf8EncodeChar (Char.ofNat n) =
      [UInt8.ofNat (n / 4096 + 224), UInt8.ofNat (n / 64 % 64 + 128),
        UInt8.ofNat (n % 64 + 128)] := by
  rw [String.utf8EncodeChar, toNat_val_ofNat hv]
  rw [if_neg (by omega), if_neg (by omega), if_pos (by omega),
    Nat.mod_eq_of_lt (by omega : n / 4096 < 16)]

/-- Any other number is encoded in four bytes, with six bits behind the first each. -/
theorem encode_four (h : 0x10000 ≤ n) (h' : n < 0x110000) :
    String.utf8EncodeChar (Char.ofNat n) =
      [UInt8.ofNat (n / 262144 + 240), UInt8.ofNat (n / 4096 % 64 + 128),
        UInt8.ofNat (n / 64 % 64 + 128), UInt8.ofNat (n % 64 + 128)] := by
  rw [String.utf8EncodeChar, toNat_val_ofNat (.inr ⟨by omega, h'⟩)]
  rw [if_neg (by omega), if_neg (by omega), if_neg (by omega),
    Nat.mod_eq_of_lt (by omega : n / 262144 < 8)]

/-! ### From bytes to a character -/

theorem scalarOf_ascii (h : b.toNat < 0x80) : scalarOf b [] = Char.ofNat b.toNat := by
  rw [scalarOf, List.foldl_nil, leadBits_eq, if_pos h]

theorem encode_scalarOf_one (h : b.toNat < 0x80) :
    String.utf8EncodeChar (scalarOf b []) = [b] := by
  rw [scalarOf_ascii h, encode_one h, UInt8.ofNat_toNat]

/-- Two bytes in their ranges are the encoding of what they are read as. -/
theorem encode_scalarOf_two (hb : 0xc2 ≤ b.toNat) (hb' : b.toNat < 0xe0)
    (hx : within tail x = true) : String.utf8EncodeChar (scalarOf b [x]) = [b, x] := by
  rw [within_tail_iff] at hx
  simp only [scalarOf, List.foldl_cons, List.foldl_nil, extend, leadBits_eq]
  rw [if_neg (by omega), if_pos hb', encode_two (by omega) (by omega), ofNat_eq (b := b) (by omega),
    ofNat_eq (b := x) (by omega)]

/-- Three bytes are the encoding of what they are read as, if neither overlong nor a surrogate. -/
theorem encode_scalarOf_three (hb : 0xe0 ≤ b.toNat) (hb' : b.toNat < 0xf0)
    (hx : within tail x = true) (hy : within tail y = true)
    (hlong : b.toNat = 0xe0 → 0xa0 ≤ x.toNat) (hsurrogate : b.toNat = 0xed → x.toNat ≤ 0x9f) :
    String.utf8EncodeChar (scalarOf b [x, y]) = [b, x, y] := by
  rw [within_tail_iff] at hx hy
  simp only [scalarOf, List.foldl_cons, List.foldl_nil, extend, leadBits_eq]
  have hvalid : ((b.toNat % 16 * 64 + x.toNat % 64) * 64 + y.toNat % 64).isValidChar := by
    simp only [Nat.isValidChar]
    omega
  rw [if_neg (by omega), if_neg (by omega), if_pos hb',
    encode_three (by omega) (by omega) hvalid, ofNat_eq (b := b) (by omega),
    ofNat_eq (b := x) (by omega), ofNat_eq (b := y) (by omega)]

/-- Four bytes are the encoding of what they are read as, if neither overlong nor out of range. -/
theorem encode_scalarOf_four (hb : 0xf0 ≤ b.toNat) (hb' : b.toNat ≤ 0xf4)
    (hx : within tail x = true) (hy : within tail y = true) (hz : within tail z = true)
    (hlong : b.toNat = 0xf0 → 0x90 ≤ x.toNat) (hlast : b.toNat = 0xf4 → x.toNat ≤ 0x8f) :
    String.utf8EncodeChar (scalarOf b [x, y, z]) = [b, x, y, z] := by
  rw [within_tail_iff] at hx hy hz
  simp only [scalarOf, List.foldl_cons, List.foldl_nil, extend, leadBits_eq]
  rw [if_neg (by omega), if_neg (by omega), if_neg (by omega),
    encode_four (by omega) (by omega), ofNat_eq (b := b) (by omega),
    ofNat_eq (b := x) (by omega), ofNat_eq (b := y) (by omega), ofNat_eq (b := z) (by omega)]

end Numbers

/-- **Matching bytes are the encoding of a character.** -/
theorem encode_scalarOf {b : UInt8} {rs : List Span} {rest : List UInt8}
    (hb : continuations b = some rs) (h : Matches rs rest) :
    String.utf8EncodeChar (scalarOf b rest) = b :: rest := by
  have hranges : b.toNat < 0x80 ∨ (0xc2 ≤ b.toNat ∧ b.toNat < 0xe0) ∨
      (0xe0 ≤ b.toNat ∧ b.toNat < 0xf0) ∨ (0xf0 ≤ b.toNat ∧ b.toNat ≤ 0xf4) ∨
      ((0x80 ≤ b.toNat ∧ b.toNat < 0xc2) ∨ 0xf4 < b.toNat) := by omega
  rcases hranges with h₁ | ⟨h₁, h₂⟩ | ⟨h₁, h₂⟩ | ⟨h₁, h₂⟩ | h₁
  · rw [continuations_one h₁] at hb
    obtain rfl := Option.some.inj hb
    cases h
    exact encode_scalarOf_one h₁
  · rw [continuations_two h₁ h₂] at hb
    obtain rfl := Option.some.inj hb
    obtain - | ⟨hx, ⟨⟩⟩ := h
    exact encode_scalarOf_two h₁ h₂ hx
  · obtain ⟨r, heq, hr⟩ := continuations_three h₁ h₂
    obtain rfl := Option.some.inj (heq.symm.trans hb)
    obtain - | ⟨hx, - | ⟨hy, ⟨⟩⟩⟩ := h
    obtain ⟨hx, hlong, hsurrogate⟩ := (hr _).mp hx
    exact encode_scalarOf_three h₁ h₂ hx hy hlong hsurrogate
  · obtain ⟨r, heq, hr⟩ := continuations_four h₁ h₂
    obtain rfl := Option.some.inj (heq.symm.trans hb)
    obtain - | ⟨hx, - | ⟨hy, - | ⟨hz, ⟨⟩⟩⟩⟩ := h
    obtain ⟨hx, hlong, hlast⟩ := (hr _).mp hx
    exact encode_scalarOf_four h₁ h₂ hx hy hz hlong hlast
  · rw [continuations_eq_none h₁] at hb
    cases hb

theorem within_tail_ofNat (n : Nat) : within tail (UInt8.ofNat (n % 64 + 128)) = true := by
  rw [within_tail_iff, toNat_ofNat_of_lt (by omega)]
  omega

/-- **The encoding of a character is a first byte with bytes that match its ranges.** -/
theorem exists_matches_encode (c : Char) :
    ∃ b rest rs, String.utf8EncodeChar c = b :: rest ∧ continuations b = some rs ∧
      Matches rs rest := by
  obtain ⟨n, hn, hv⟩ : ∃ n, Char.ofNat n = c ∧ n.isValidChar :=
    ⟨c.toNat, Char.ofNat_toNat c, c.valid⟩
  subst hn
  have hranges : n < 0x80 ∨ (0x80 ≤ n ∧ n < 0x800) ∨ (0x800 ≤ n ∧ n < 0x10000) ∨
      (0x10000 ≤ n ∧ n < 0x110000) := by
    simp only [Nat.isValidChar] at hv
    omega
  rcases hranges with h | ⟨h, h'⟩ | ⟨h, h'⟩ | ⟨h, h'⟩
  · refine ⟨_, _, _, encode_one h, continuations_one ?_, .nil⟩
    rwa [toNat_ofNat_of_lt (by omega)]
  · have hlead : (UInt8.ofNat (n / 64 + 192)).toNat = n / 64 + 192 := toNat_ofNat_of_lt (by omega)
    exact ⟨_, _, _, encode_two h h', continuations_two (by omega) (by omega),
      .cons (within_tail_ofNat n) .nil⟩
  · have hlead : (UInt8.ofNat (n / 4096 + 224)).toNat = n / 4096 + 224 :=
      toNat_ofNat_of_lt (by omega)
    have hsecond : (UInt8.ofNat (n / 64 % 64 + 128)).toNat = n / 64 % 64 + 128 :=
      toNat_ofNat_of_lt (by omega)
    obtain ⟨r, heq, hr⟩ := continuations_three (b := UInt8.ofNat (n / 4096 + 224))
      (by omega) (by omega)
    refine ⟨_, _, _, encode_three h h' hv, heq, .cons ((hr _).mpr ⟨within_tail_ofNat _, ?_⟩)
      (.cons (within_tail_ofNat n) .nil)⟩
    simp only [Nat.isValidChar] at hv
    omega
  · have hlead : (UInt8.ofNat (n / 262144 + 240)).toNat = n / 262144 + 240 :=
      toNat_ofNat_of_lt (by omega)
    have hsecond : (UInt8.ofNat (n / 4096 % 64 + 128)).toNat = n / 4096 % 64 + 128 :=
      toNat_ofNat_of_lt (by omega)
    obtain ⟨r, heq, hr⟩ := continuations_four (b := UInt8.ofNat (n / 262144 + 240))
      (by omega) (by omega)
    refine ⟨_, _, _, encode_four h h', heq, .cons ((hr _).mpr ⟨within_tail_ofNat _, ?_⟩)
      (.cons (within_tail_ofNat _) (.cons (within_tail_ofNat n) .nil))⟩
    omega

/-- Every character has a byte. -/
theorem encode_ne_nil (c : Char) : String.utf8EncodeChar c ≠ [] := by
  obtain ⟨b, rest, rs, henc, -⟩ := exists_matches_encode c
  rw [henc]
  exact List.cons_ne_nil b rest

/-- No two characters have the same bytes. -/
theorem encode_injective {c c' : Char} (h : String.utf8EncodeChar c = String.utf8EncodeChar c') :
    c = c' := by
  have hbytes : [c].utf8Encode = [c'].utf8Encode := by
    rw [List.utf8Encode_singleton, List.utf8Encode_singleton, h]
  have hdecode := List.utf8DecodeChar?_utf8Encode_singleton (c := c)
  rw [hbytes, List.utf8DecodeChar?_utf8Encode_singleton] at hdecode
  exact (Option.some.inj hdecode).symm

/-- What the bytes of a character are read as is the character. -/
theorem scalarOf_encode {c : Char} {b : UInt8} {rest : List UInt8}
    (h : String.utf8EncodeChar c = b :: rest) : scalarOf b rest = c := by
  obtain ⟨b', rest', rs, henc, hb, hmatches⟩ := exists_matches_encode c
  obtain ⟨rfl, rfl⟩ := List.cons.inj (h.symm.trans henc)
  exact encode_injective ((encode_scalarOf hb hmatches).trans henc.symm)

/-- A character above 0x7f begins with a byte above 0x7f. -/
theorem exists_encode_of_le {c : Char} (hc : 0x80 ≤ c.toNat) :
    ∃ b rest, String.utf8EncodeChar c = b :: rest ∧ 0x80 ≤ b := by
  obtain ⟨b, rest, rs, henc, hrs, hmatches⟩ := exists_matches_encode c
  refine ⟨b, rest, henc, UInt8.le_iff_toNat_le.mpr ?_⟩
  change 0x80 ≤ b.toNat
  refine Nat.not_lt.mp fun hb => ?_
  rw [continuations_one hb] at hrs
  obtain rfl := Option.some.inj hrs
  obtain rfl := hmatches.eq_nil
  -- the character is the byte
  have hchar := scalarOf_encode henc
  rw [scalarOf_ascii hb] at hchar
  have hnat : c.toNat = b.toNat := hchar ▸ toNat_val_ofNat (.inl (by omega))
  omega

/-! ### The ranges behind a first byte -/

/-- Every range behind a first byte holds a byte, and none but bytes that begin nothing. -/
theorem range_of_continuations {b : UInt8} {rs : List Span} (hb : continuations b = some rs) :
    ∀ r ∈ rs, within r r.1 = true ∧ ∀ x, within r x = true → within tail x = true := by
  intro r hr
  rw [continuations_eq] at hb
  have hmem : r ∈ [(0x80, 0xbf), (0xa0, 0xbf), (0x80, 0x9f), (0x90, 0xbf), (0x80, 0x8f)] := by
    grind [tail]
  simp only [within_iff, tail]
  simp only [List.mem_cons, List.not_mem_nil, or_false] at hmem
  rcases hmem with rfl | rfl | rfl | rfl | rfl <;> simp <;> omega

/-- Bytes that match continue a sequence, if the ranges are made for it. -/
theorem Matches.tail_of_mem {rs : List Span} {bs : List UInt8} (h : Matches rs bs)
    (hrs : ∀ r ∈ rs, ∀ x, within r x = true → within tail x = true) :
    ∀ x ∈ bs, within tail x = true := by
  induction h with
  | nil => nofun
  | cons hwithin _ ih =>
    intro x hx
    rcases List.mem_cons.mp hx with rfl | hx
    · exact hrs _ List.mem_cons_self _ hwithin
    · exact ih (fun r hr => hrs r (List.mem_cons_of_mem _ hr)) x hx

/-- The bytes of a character behind the first begin nothing. -/
theorem tail_of_mem_encode {c : Char} {b : UInt8} {rest : List UInt8}
    (h : String.utf8EncodeChar c = b :: rest) : ∀ x ∈ rest, within tail x = true := by
  obtain ⟨b', rest', rs, henc, hb, hmatches⟩ := exists_matches_encode c
  obtain ⟨rfl, rfl⟩ := List.cons.inj (h.symm.trans henc)
  exact hmatches.tail_of_mem fun r hr => (range_of_continuations hb r hr).2

/-- Ranges that hold a byte can be met. -/
theorem Matches.exists {rs : List Span} (hrs : ∀ r ∈ rs, within r r.1 = true) :
    Matches rs (rs.map Prod.fst) := by
  induction rs with
  | nil => exact .nil
  | cons r rs ih =>
    exact .cons (hrs r List.mem_cons_self) (ih fun r hr => hrs r (List.mem_cons_of_mem _ hr))

/-! ### How a byte string begins -/

/-- Bytes that match are followed to their end. -/
theorem follow_of_matches {rs : List Span} {bs : List UInt8} (h : Matches rs bs) (more : Nat)
    (rest : List UInt8) : follow more rs (bs ++ rest) = .scalar (more + bs.length) := by
  induction h generalizing more with
  | nil => rfl
  | cons hwithin _ ih =>
    rw [List.cons_append, follow, if_pos hwithin, ih, List.length_cons]
    congr 1
    omega

/-- What is followed to its end matches. -/
theorem matches_of_follow {more n : Nat} {rs : List Span} {w : List UInt8}
    (h : follow more rs w = .scalar n) :
    ∃ bs rest, w = bs ++ rest ∧ Matches rs bs ∧ n = more + bs.length := by
  induction rs generalizing more w with
  | nil =>
    obtain rfl := Opening.scalar.inj h
    exact ⟨[], w, rfl, .nil, rfl⟩
  | cons r rs ih =>
    cases w with
    | nil => cases h
    | cons b w =>
      rw [follow] at h
      split at h
      · obtain ⟨bs, rest, rfl, hmatches, rfl⟩ := ih h
        refine ⟨b :: bs, rest, rfl, .cons ‹_› hmatches, ?_⟩
        rw [List.length_cons]
        omega
      · cases h

theorem le_of_follow {more n : Nat} {rs : List Span} {w : List UInt8}
    (h : follow more rs w = .broken n) : more ≤ n := by
  induction rs generalizing more w with
  | nil => cases h
  | cons r rs ih =>
    cases w with
    | nil => cases h
    | cons b w =>
      rw [follow] at h
      split at h
      · exact Nat.le_of_succ_le (ih h)
      · exact Nat.le_of_eq (Opening.broken.inj h)

/-- Bytes that match a front part of the ranges can be completed, where every range holds a byte. -/
theorem exists_matches_of_follow {more n : Nat} {rs : List Span} {w : List UInt8}
    (hrs : ∀ r ∈ rs, within r r.1 = true) (h : follow more rs w = .broken n) :
    ∃ bs, bs ≠ [] ∧ Matches rs (w.take (n - more) ++ bs) := by
  induction rs generalizing more w with
  | nil => cases h
  | cons r rs ih =>
    have hrest : ∀ r ∈ rs, within r r.1 = true := fun r hr => hrs r (List.mem_cons_of_mem _ hr)
    cases w with
    | nil => cases h
    | cons b w =>
      rw [follow] at h
      split at h
      · have hle : more + 1 ≤ n := le_of_follow h
        obtain ⟨bs, hbs, hmatches⟩ := ih hrest h
        refine ⟨bs, hbs, ?_⟩
        rw [show n - more = (n - (more + 1)) + 1 by omega, List.take_succ_cons, List.cons_append]
        exact .cons ‹_› hmatches
      · obtain rfl := Opening.broken.inj h
        refine ⟨(r :: rs).map Prod.fst, nofun, ?_⟩
        rw [Nat.sub_self, List.take_zero, List.nil_append]
        exact .exists hrs

/-- With the next byte they match no longer. -/
theorem not_matches_of_follow {more n : Nat} {rs : List Span} {w : List UInt8}
    (h : follow more rs w = .broken n) (bs : List UInt8) :
    ¬ Matches rs (w.take (n - more + 1) ++ bs) := by
  induction rs generalizing more w with
  | nil => cases h
  | cons r rs ih =>
    cases w with
    | nil => cases h
    | cons b w =>
      rw [List.take_succ_cons, List.cons_append]
      rintro (- | ⟨hb, hrest⟩)
      rw [follow, if_pos hb] at h
      have hle : more + 1 ≤ n := le_of_follow h
      refine ih h ?_
      rwa [show n - (more + 1) + 1 = n - more by omega]

/-- What the end of the string cuts short can be completed. -/
theorem exists_matches_of_follow_cut {more : Nat} {rs : List Span} {w : List UInt8}
    (hrs : ∀ r ∈ rs, within r r.1 = true) (h : follow more rs w = .cut) :
    ∃ bs, bs ≠ [] ∧ Matches rs (w ++ bs) := by
  induction rs generalizing more w with
  | nil => cases h
  | cons r rs ih =>
    cases w with
    | nil => exact ⟨(r :: rs).map Prod.fst, nofun, .exists hrs⟩
    | cons b w =>
      rw [follow] at h
      split at h
      · obtain ⟨bs, hbs, hmatches⟩ := ih (fun r hr => hrs r (List.mem_cons_of_mem _ hr)) h
        exact ⟨bs, hbs, .cons ‹_› hmatches⟩
      · cases h

/-- The encoding of a character opens with the whole of it. -/
theorem opening_encode {c : Char} {b : UInt8} {bs : List UInt8}
    (h : String.utf8EncodeChar c = b :: bs) (rest : List UInt8) :
    opening b (bs ++ rest) = .scalar bs.length := by
  obtain ⟨b', bs', rs, henc, hb, hmatches⟩ := exists_matches_encode c
  obtain ⟨rfl, rfl⟩ := List.cons.inj (h.symm.trans henc)
  rw [opening, hb]
  exact (follow_of_matches hmatches 0 rest).trans (congrArg _ (Nat.zero_add _))

/-- **A complete sequence is the encoding of a character.** -/
theorem opening_eq_scalar_iff {b : UInt8} {w : List UInt8} {n : Nat} :
    opening b w = .scalar n ↔
      ∃ c bs rest, w = bs ++ rest ∧ bs.length = n ∧ String.utf8EncodeChar c = b :: bs := by
  constructor
  · intro h
    rw [opening] at h
    cases hb : continuations b with
    | none =>
      rw [hb] at h
      cases h
    | some rs =>
      rw [hb] at h
      obtain ⟨bs, rest, rfl, hmatches, rfl⟩ := matches_of_follow h
      exact ⟨scalarOf b bs, bs, rest, rfl, (Nat.zero_add _).symm, encode_scalarOf hb hmatches⟩
  · rintro ⟨c, bs, rest, rfl, rfl, henc⟩
    exact opening_encode henc rest

/-- The bytes that no sequence continues are one byte, or a proper front part of an encoding. -/
theorem exists_encode_of_broken {b : UInt8} {w : List UInt8} {n : Nat}
    (h : opening b w = .broken n) :
    n = 0 ∨ ∃ c bs, bs ≠ [] ∧ String.utf8EncodeChar c = b :: (w.take n ++ bs) := by
  rw [opening] at h
  cases hb : continuations b with
  | none =>
    rw [hb] at h
    exact .inl (Opening.broken.inj h).symm
  | some rs =>
    rw [hb] at h
    obtain ⟨bs, hbs, hmatches⟩ :=
      exists_matches_of_follow (fun r hr => (range_of_continuations hb r hr).1) h
    exact .inr ⟨_, bs, hbs, encode_scalarOf hb hmatches⟩

/-- With the next byte behind them they are no front part of an encoding. -/
theorem not_encode_of_broken {b : UInt8} {w : List UInt8} {n : Nat} (h : opening b w = .broken n)
    (c : Char) (bs : List UInt8) : String.utf8EncodeChar c ≠ b :: (w.take (n + 1) ++ bs) := by
  intro henc
  obtain ⟨b', rest, rs, henc', hb, hmatches⟩ := exists_matches_encode c
  obtain ⟨rfl, rfl⟩ := List.cons.inj (henc.symm.trans henc')
  rw [opening, hb] at h
  exact not_matches_of_follow h bs hmatches

/-- **A sequence that is cut short is a proper front part of an encoding.** -/
theorem exists_encode_of_cut {b : UInt8} {w : List UInt8} (h : opening b w = .cut) :
    ∃ c bs, bs ≠ [] ∧ String.utf8EncodeChar c = b :: (w ++ bs) := by
  rw [opening] at h
  cases hb : continuations b with
  | none =>
    rw [hb] at h
    cases h
  | some rs =>
    rw [hb] at h
    obtain ⟨bs, hbs, hmatches⟩ :=
      exists_matches_of_follow_cut (fun r hr => (range_of_continuations hb r hr).1) h
    exact ⟨_, bs, hbs, encode_scalarOf hb hmatches⟩

end VirtualTerminal.Utf8
