import VirtualTerminal.Proofs.Json.Number

/-!
# Json — Lexing

How written characters are gathered into lexemes.  A word goes on to the next character that ends
it, so the lexemes of a text depend on what follows; what follows a value in a written text is
nothing, a bracket, a comma or a colon (`Boundary`).

* `lexes_quoted`: a string between quotes is read as the string, whatever it contains
  (`lexemes?_escape`, one case for each way to escape a character).
* `lexes_word`: a number, a truth value or null is read as its value.
* `Lexes.cons`, `Lexes.followed`: lexemes come one after another where the characters do.
-/

namespace VirtualTerminal.Json

variable {c : Char} {cs more rest read : List Char} {l : Lexeme} {ls ls' : List Lexeme}
  {s t : Scan} {j : Json}

/-- A character that ends a word. -/
def endsWord (c : Char) : Bool := isBlank c || c == '"' || (punctuation? c).isSome

/-- The end of a text, or a character of punctuation with whatever follows it. -/
def Boundary : List Char → Prop
  | [] => True
  | c :: _ => (punctuation? c).isSome = true

/-- The characters are gathered into these lexemes, before those of what follows them. -/
def Lexes (cs : List Char) (ls : List Lexeme) : Prop :=
  ∀ rest, Boundary rest →
    lexemes? .between (cs ++ rest) = (lexemes? .between rest).map (ls ++ ·)

/-! ### One character -/

/-- One character is scanned, and the rest from where that leads. -/
theorem lexemes?_cons (h : scan? s c = some (t, ls)) (cs : List Char) :
    lexemes? s (c :: cs) = (lexemes? t cs).map (ls ++ ·) := by
  rw [lexemes?, h]
  show (lexemes? t cs).bind (fun rest => some (ls ++ rest)) = _
  rw [Option.map_eq_bind]
  rfl

theorem lexemes?_silent (h : scan? s c = some (t, [])) (cs : List Char) :
    lexemes? s (c :: cs) = lexemes? t cs := by
  rw [lexemes?_cons h]
  exact Option.map_id'

theorem scanBetween?_punctuation (h : punctuation? c = some l) :
    scanBetween? c = some (.between, [l]) := by
  rw [punctuation?.eq_def] at h
  split at h <;> cases h <;> rfl

/-- A word ends at any punctuation. -/
theorem endsWord_of_punctuation (h : (punctuation? c).isSome = true) : endsWord c = true := by
  rw [endsWord, h, Bool.or_true]

theorem endsWord_of_isMark (h : Numeral.isMark c = true) : endsWord c = false := by
  rw [← Bool.not_eq_true]
  intro hends
  rw [endsWord, isBlank, Bool.or_eq_true, Bool.or_eq_true] at hends
  rcases hends with (hblank | hquote) | hpunctuation
  · simp only [Bool.or_eq_true, beq_iff_eq] at hblank
    rcases hblank with ((rfl | rfl) | rfl) | rfl <;> exact absurd h (by decide)
  · rw [beq_iff_eq.mp hquote] at h
    exact absurd h (by decide)
  · rw [punctuation?.eq_def] at hpunctuation
    split at hpunctuation
    all_goals first | exact absurd h (by decide) | cases hpunctuation

/-! ### Strings -/

/-- A hexadecimal digit is read as it is written. -/
theorem hex?_hex : ∀ d < 16, Digit.hex? (Digit.hex d) = some d := by decide

/-- A character above the control characters that no escape is for. -/
theorem lexemes?_plain (hquote : c ≠ '"') (hbackslash : c ≠ '\\') (hle : ¬ c.toNat < 0x20) :
    lexemes? (.text read) (c :: rest) = lexemes? (.text (c :: read)) rest := by
  refine lexemes?_silent ?_ rest
  rw [scan?, if_neg hquote, if_neg hbackslash, if_neg hle]

/-- An escape of one letter. -/
theorem lexemes?_letter {letter : Char} (hu : letter ≠ 'u') (h : unescape? letter = some c) :
    lexemes? (.text read) ('\\' :: letter :: rest) = lexemes? (.text (c :: read)) rest := by
  have hescaped : scan? (.escaped read) letter = some (.text (c :: read), []) := by
    rw [scan?, if_neg hu, h]
    rfl
  rw [lexemes?_silent (t := .escaped read) rfl, lexemes?_silent hescaped]

/-- An escape by four digits. -/
theorem lexemes?_unicode (h : c.toNat < 0x20) :
    lexemes? (.text read)
        ('\\' :: 'u' :: '0' :: '0' :: Digit.hex (c.toNat / 16) :: Digit.hex (c.toNat % 16) :: rest) =
      lexemes? (.text (c :: read)) rest := by
  have hhigh : scan? (.unicode read none 2 0) (Digit.hex (c.toNat / 16)) =
      some (.unicode read none 1 (c.toNat / 16), []) := by
    simp [scan?, hex?_hex _ (show c.toNat / 16 < 16 by omega)]
  have hlow : scan? (.unicode read none 1 (c.toNat / 16)) (Digit.hex (c.toNat % 16)) =
      some (.text (c :: read), []) := by
    have hsum : c.toNat / 16 * 16 + c.toNat % 16 = c.toNat := by omega
    have hafter : afterUnicode read none c.toNat = some (.text (c :: read)) := by
      rw [afterUnicode, if_neg (by omega), if_neg (by omega), Char.ofNat_toNat]
    simp [scan?, hex?_hex _ (show c.toNat % 16 < 16 by omega), hsum, hafter]
  rw [lexemes?_silent (t := .escaped read) rfl,
    lexemes?_silent (t := .unicode read none 4 0) rfl,
    lexemes?_silent (t := .unicode read none 3 0) rfl,
    lexemes?_silent (t := .unicode read none 2 0) rfl, lexemes?_silent hhigh, lexemes?_silent hlow]

/-- **A character of a string**, however it is escaped, is read as itself. -/
theorem lexemes?_escape (c : Char) (read rest : List Char) :
    lexemes? (.text read) (escape c ++ rest) = lexemes? (.text (c :: read)) rest := by
  rw [escape.eq_def]
  split
  -- seven characters are escaped by a letter of their own
  iterate 7 exact lexemes?_letter (by decide) rfl
  · next hquote hbackslash _ _ _ _ _ =>
    split
    · exact lexemes?_unicode ‹_›
    · exact lexemes?_plain hquote hbackslash ‹_›

/-- The characters of a string are gathered, escaped or not. -/
theorem lexemes?_text (cs read rest : List Char) :
    lexemes? (.text read) (cs.flatMap escape ++ rest) = lexemes? (.text (cs.reverse ++ read)) rest := by
  induction cs generalizing read with
  | nil => rfl
  | cons c cs ih =>
    rw [List.flatMap_cons, List.append_assoc, lexemes?_escape, ih, List.reverse_cons,
      List.append_assoc, List.singleton_append]

/-- **A string between quotes.** -/
theorem lexes_quoted (text : String) : Lexes (quoted text) [.string text] := by
  intro rest _
  have hend : scan? (.text text.toList.reverse) '"' = some (.between, [.string text]) := by
    rw [scan?, if_pos rfl, List.reverse_reverse, String.ofList_toList]
  rw [quoted, List.cons_append, List.append_assoc, lexemes?_silent (t := .text []) rfl,
    lexemes?_text, List.append_nil, List.singleton_append, lexemes?_cons hend]

/-! ### Words -/

theorem lexemes?_word (h : ∀ c ∈ cs, endsWord c = false) (read rest : List Char) :
    lexemes? (.word read) (cs ++ rest) = lexemes? (.word (cs.reverse ++ read)) rest := by
  induction cs generalizing read with
  | nil => rfl
  | cons c cs ih =>
    obtain ⟨hc, hcs⟩ := List.forall_mem_cons.mp h
    have hstep : scan? (.word read) c = some (.word (c :: read), []) := by
      rw [scan?, if_neg]
      rw [endsWord] at hc
      rw [hc]
      exact Bool.false_ne_true
    rw [List.cons_append, lexemes?_silent hstep, ih hcs, List.reverse_cons, List.append_assoc,
      List.singleton_append]

/-- At its boundary a word becomes a lexeme. -/
theorem lexemes?_wordEnd (hrest : Boundary rest) (hj : scalar? read.reverse = some j) :
    lexemes? (.word read) rest = (lexemes? .between rest).map (.scalar j :: ·) := by
  cases rest with
  | nil =>
    simp only [lexemes?, hj, Option.map_some]
  | cons c rest =>
    obtain ⟨l, hl⟩ := Option.isSome_iff_exists.mp hrest
    have hends : endsWord c = true := endsWord_of_punctuation hrest
    -- the character that ends the word gives two lexemes at once
    have hword : scan? (.word read) c = some (.between, [.scalar j, l]) := by
      rw [endsWord] at hends
      rw [scan?, if_pos hends, hj, scanBetween?_punctuation hl]
      rfl
    rw [lexemes?_cons hword, lexemes?_cons (s := .between) (scanBetween?_punctuation hl),
      Option.map_map]
    rfl

/-- **A word** of marks is read as what it writes. -/
theorem lexes_word (hne : cs ≠ []) (hmarks : ∀ c ∈ cs, Numeral.isMark c = true)
    (hj : scalar? cs = some j) : Lexes cs [.scalar j] := by
  intro rest hrest
  obtain ⟨c, cs, rfl⟩ := List.exists_cons_of_ne_nil hne
  have hends : ∀ c' ∈ c :: cs, endsWord c' = false := fun c' hc' =>
    endsWord_of_isMark (hmarks c' hc')
  obtain ⟨hc, hcs⟩ := List.forall_mem_cons.mp hends
  have hbegin : scan? .between c = some (.word [c], []) := by
    rw [endsWord, Bool.or_eq_false_iff, Bool.or_eq_false_iff] at hc
    obtain ⟨⟨hblank, hquote⟩, hpunctuation⟩ := hc
    rw [scan?, scanBetween?, hblank, if_neg Bool.false_ne_true,
      if_neg (beq_eq_false_iff_ne.mp hquote)]
    rw [Option.isSome_eq_false_iff, Option.isNone_iff_eq_none] at hpunctuation
    rw [hpunctuation]
  have hscalar : scalar? (cs.reverse ++ [c]).reverse = some j := by
    rw [List.reverse_append, List.reverse_reverse]
    exact hj
  rw [List.cons_append, lexemes?_silent hbegin, lexemes?_word hcs, lexemes?_wordEnd hrest hscalar]
  rfl

/-! ### One after another -/

/-- Punctuation, and what comes behind it. -/
theorem Lexes.cons (h : Lexes cs ls) (hc : punctuation? c = some l) : Lexes (c :: cs) (l :: ls) := by
  intro rest hrest
  rw [List.cons_append, lexemes?_cons (s := .between) (scanBetween?_punctuation hc), h rest hrest,
    Option.map_map]
  rfl

theorem lexes_punctuation (hc : punctuation? c = some l) : Lexes [c] [l] :=
  Lexes.cons (fun _ _ => Option.map_id'.symm) hc

/-- Something, and what comes behind it and begins with punctuation. -/
theorem Lexes.followed (h : Lexes cs ls) (h' : Lexes more ls')
    (hboundary : ∀ rest, Boundary (more ++ rest)) : Lexes (cs ++ more) (ls ++ ls') := by
  intro rest hrest
  rw [List.append_assoc, h _ (hboundary rest), h' rest hrest, Option.map_map]
  refine congrArg (Option.map · _) ?_
  funext ls''
  exact (List.append_assoc _ _ _).symm

end VirtualTerminal.Json
