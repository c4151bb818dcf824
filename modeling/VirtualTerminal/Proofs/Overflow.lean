import VirtualTerminal.Proofs.Raster.Bounds

/-!
# Overflow — which streams leave the range of a sixteen-bit number

Two computations of a screen can leave the range: the next tab stop, and the column behind a
character.  An instruction overflows where it needs one of them too far to the right
(`Instruction.Overflows`), and a stream has no result exactly if such an instruction is reached in it
(`Emulator.feed?_eq_none_iff`).

A screen of at most `Screen.safeCols` columns never gets there, and every wider one does: its stream
is a motion to column `safeCols + 1`, counted from one, and a tab (`tabAtTheEdge`).  So the streams
are free of overflow exactly up to that width (`Raster.feed_never_overflows_iff`).
-/

namespace VirtualTerminal

/-- The first column, counted from zero, from which the next tab stop is no sixteen-bit number. -/
def Screen.safeCols : Nat := 65528

/-- No character takes more than three columns. -/
theorem Width.columns?_le {c : Char} {width : Nat} (h : columns? c = some width) : width ≤ 3 := by
  unfold columns? at h
  dsimp only at h
  split at h
  · cases h
  · split at h
    · obtain rfl := Option.some.inj h
      decide
    · split at h
      · obtain rfl := Option.some.inj h
        decide
      · split at h
        · obtain rfl := Option.some.inj h
          decide
        · split at h <;> (obtain rfl := Option.some.inj h; decide)

namespace Word

variable {a b : Nat}

theorem add?_of_lt (h : a + b < limit) : add? a b = some (a + b) := if_pos h

theorem add?_of_le (h : limit ≤ a + b) : add? a b = none := if_neg (Nat.not_lt_of_le h)

theorem mul?_of_lt (h : a * b < limit) : mul? a b = some (a * b) := if_pos h

theorem mul?_of_le (h : limit ≤ a * b) : mul? a b = none := if_neg (Nat.not_lt_of_le h)

end Word

/-- The instruction needs a column beyond the range: the tab stop right of a cursor that stands at
`safeCols` or behind it, or the column behind a character for which there is no room. -/
def Instruction.Overflows (s : Screen) : Instruction → Prop
  | .print c => s.pendingWrap = false ∧
      ∃ width, Width.columns? c = some width ∧ Word.max < s.cursor.col + width
  | .tab => Screen.safeCols ≤ s.cursor.col
  | _ => False

theorem Instruction.overflows_print {s : Screen} {c : Char} :
    Overflows s (.print c) ↔ s.pendingWrap = false ∧
      ∃ width, Width.columns? c = some width ∧ Word.max < s.cursor.col + width := Iff.rfl

theorem Instruction.overflows_tab {s : Screen} :
    Overflows s .tab ↔ Screen.safeCols ≤ s.cursor.col := Iff.rfl

namespace Screen

section Step
variable {s : Screen} (h : s.WellFormed) (hd : s.dims.Fits)
include h hd

/-- A tab has no result exactly where it overflows. -/
theorem tab?_eq_none_iff : s.tab? = none ↔ safeCols ≤ s.cursor.col := by
  have hcol : s.cursor.col < Word.max := Nat.lt_of_lt_of_le h.col_lt hd.cols_le
  have hnext : s.cursor.col / tabWidth + 1 < Word.limit := by
    simp only [tabWidth, Word.max, Word.limit] at hcol ⊢
    omega
  rw [tab?, Word.add?_of_lt hnext, Option.bind_eq_bind, Option.bind_some]
  by_cases hstop : (s.cursor.col / tabWidth + 1) * tabWidth < Word.limit
  · rw [Word.mul?_of_lt hstop]
    simp only [tabWidth, Word.limit] at hstop
    exact iff_of_false (by rintro ⟨⟩) (by simp only [safeCols]; omega)
  · rw [Word.mul?_of_le (Nat.le_of_not_lt hstop)]
    simp only [tabWidth, Word.limit] at hstop
    exact iff_of_true rfl (by simp only [safeCols]; omega)

omit h in
/-- Only the column behind the character can overflow, and not after a wrap. -/
theorem writeWide?_eq_none_iff {width : Nat} (hw : width ≤ s.dims.cols) (c : Char) :
    s.writeWide? width c = none ↔
      s.pendingWrap = false ∧ Word.max < s.cursor.col + width := by
  rw [writeWide?]
  cases hpending : s.pendingWrap with
  | true =>
    -- a pending wrap puts the cursor into the first column, where there is room
    have hroom : s.wrap.cursor.col + width < Word.limit := by
      rw [col_wrap, Nat.zero_add]
      exact Word.lt_limit (Nat.le_trans hw hd.cols_le)
    simp only [if_true, Word.add?_of_lt hroom]
    exact iff_of_false (by rintro ⟨⟩) (by rintro ⟨⟨⟩, -⟩)
  | false =>
    simp only [Bool.false_eq_true, if_false, true_and]
    by_cases hreach : s.cursor.col + width < Word.limit
    · rw [Word.add?_of_lt hreach]
      exact iff_of_false (by rintro ⟨⟩) (Nat.not_lt_of_le (Nat.le_of_lt_succ hreach))
    · rw [Word.add?_of_le (Nat.le_of_not_lt hreach)]
      exact iff_of_true rfl (Nat.le_of_not_lt hreach)

theorem write?_eq_none_iff (c : Char) :
    s.write? c = none ↔ Instruction.Overflows s (.print c) := by
  have hcol := h.col_lt
  have hmax := hd.cols_le
  rw [write?, Instruction.overflows_print]
  cases hcolumns : Width.columns? c with
  | none => exact iff_of_false (by rintro ⟨⟩) (by rintro ⟨-, width, ⟨⟩, -⟩)
  | some width =>
    have hthree := Width.columns?_le hcolumns
    dsimp only
    by_cases hskip : width = 0 ∨ s.dims.cols < width
    · rw [if_pos hskip]
      refine iff_of_false (by rintro ⟨⟩) ?_
      rintro ⟨-, width', heq, hover⟩
      obtain rfl := Option.some.inj heq
      simp only [Word.max] at hmax hover
      omega
    · rw [if_neg hskip, writeWide?_eq_none_iff hd (by omega)]
      refine and_congr_right fun _ => ⟨fun hover => ⟨width, rfl, hover⟩, ?_⟩
      rintro ⟨width', heq, hover⟩
      exact Option.some.inj heq ▸ hover

/-- An instruction has no result exactly if it overflows. -/
theorem obey?_eq_none_iff (i : Instruction) : i.obey? s = none ↔ i.Overflows s := by
  cases i with
  | print c => exact write?_eq_none_iff h hd c
  | tab => exact tab?_eq_none_iff h hd
  | _ => exact iff_of_false (by rintro ⟨⟩) id

end Step

/-- A run of instructions has no result exactly if one of them is reached and overflows. -/
theorem obeyAll?_eq_none_iff {s : Screen} (h : s.WellFormed) (hd : s.dims.Fits)
    (is : List Instruction) :
    s.obeyAll? is = none ↔
      ∃ before i after s', is = before ++ i :: after ∧ s.obeyAll? before = some s' ∧
        i.Overflows s' := by
  induction is generalizing s with
  | nil => exact iff_of_false (by rintro ⟨⟩) (by simp)
  | cons i is ih =>
    rw [obeyAll?]
    cases hs : i.obey? s with
    | none =>
      -- the first instruction is the one that overflows
      have hover := (obey?_eq_none_iff h hd i).mp hs
      exact iff_of_true rfl ⟨[], i, is, s, rfl, rfl, hover⟩
    | some s₁ =>
      have hdims := dims_obey? h hs
      rw [Option.bind_some, ih (h.obey? hs) (hdims ▸ hd)]
      constructor
      · rintro ⟨before, j, after, s', rfl, hrun, hover⟩
        refine ⟨i :: before, j, after, s', rfl, ?_, hover⟩
        rw [obeyAll?, hs, Option.bind_some, hrun]
      · rintro ⟨before, j, after, s', heq, hrun, hover⟩
        cases before with
        | nil =>
          -- the first instruction has a result, so it does not overflow
          obtain ⟨rfl, rfl⟩ := List.cons.inj heq
          obtain rfl := Option.some.inj hrun
          rw [(obey?_eq_none_iff h hd _).mpr hover] at hs
          cases hs
        | cons i' before =>
          obtain ⟨rfl, rfl⟩ := List.cons.inj heq
          rw [obeyAll?, hs, Option.bind_some] at hrun
          exact ⟨before, j, after, s', rfl, hrun, hover⟩

/-- No instruction overflows on a screen that is not too wide. -/
theorem not_overflows {s : Screen} (h : s.WellFormed) (hc : s.dims.cols ≤ safeCols)
    (i : Instruction) : ¬ i.Overflows s := by
  have hcol := h.col_lt
  simp only [safeCols] at hc
  cases i with
  | print c =>
    rintro ⟨-, width, hcolumns, hover⟩
    have hthree := Width.columns?_le hcolumns
    simp only [Word.max] at hover
    omega
  | tab =>
    intro hover
    rw [Instruction.overflows_tab, safeCols] at hover
    omega
  | _ => exact id

end Screen

/-- The bytes of a motion to column 65529, counted from one, and a tab. -/
def tabAtTheEdge : List UInt8 := [0x1b, 0x5b, 0x36, 0x35, 0x35, 0x32, 0x39, 0x47, 0x09]

theorem instructions_tabAtTheEdge :
    (Reader.fresh.feed tabAtTheEdge).2 = [.moveToColumn (Screen.safeCols + 1), .tab] := by
  decide +kernel

namespace Emulator

variable {d : Dimensions}

/-- A stream has no result exactly if an instruction is reached in it that overflows. -/
theorem feed?_eq_none_iff (hd : d.Fits) (chunk : List UInt8) :
    (ofDimensions d).feed? chunk = none ↔
      ∃ before i after s, (Reader.fresh.feed chunk).2 = before ++ i :: after ∧
        (Screen.blank d).obeyAll? before = some s ∧ i.Overflows s := by
  rw [feed?_eq, Reader.perform?, Option.map_eq_none_iff]
  exact Screen.obeyAll?_eq_none_iff (.blank d) hd.raised _

/-- On a wider screen the tab stop right of the cursor is no sixteen-bit number. -/
theorem feed?_tabAtTheEdge (hd : d.Fits) (hc : Screen.safeCols < d.cols) :
    (ofDimensions d).feed? tabAtTheEdge = none := by
  rw [feed?_eq_none_iff hd, instructions_tabAtTheEdge]
  refine ⟨[.moveToColumn (Screen.safeCols + 1)], .tab, [], _, rfl, rfl, ?_⟩
  have hcols : Screen.safeCols ≤ d.raised.cols - 1 :=
    Nat.le_sub_one_of_lt (Nat.lt_of_lt_of_le hc (Nat.le_max_left ..))
  exact Nat.le_min.mpr ⟨Nat.le_refl _, hcols⟩

/-- **On a screen that is not too wide** every chunk has a result. -/
theorem feed?_isSome (hc : d.raised.cols ≤ Screen.safeCols) (hd : d.Fits) (chunk : List UInt8) :
    ((ofDimensions d).feed? chunk).isSome = true := by
  rw [Option.isSome_iff_ne_none, Ne, feed?_eq_none_iff hd]
  rintro ⟨before, i, after, s, -, hs, hover⟩
  have h := Screen.WellFormed.blank d
  have hdims : s.dims = d.raised := Screen.dims_obeyAll? h hs
  exact Screen.not_overflows (h.obeyAll? hs) (hdims ▸ hc) i hover

end Emulator

namespace Raster

variable {d : Dimensions}

theorem afterAll_feed (hd : d.Fits) (chunk : List UInt8) :
    afterAll d [.call (.feed chunk)] =
      ofScreen? (((Emulator.ofDimensions d).feed? chunk).map fun p => p.1.screen) := by
  have hfits : ∀ op ∈ [Operation.call (.feed chunk)], op.Fits :=
    fun op hop => List.mem_singleton.mp hop ▸ trivial
  rw [afterAll_eq hd hfits]
  simp only [Emulator.operateAll?, Emulator.operate?, Emulator.call?, Option.bind_fun_some,
    Option.map_map]
  rfl

/-- The raster overflows exactly if the feed has no result. -/
theorem afterAll_feed_eq_overflow_iff (hd : d.Fits) (chunk : List UInt8) :
    afterAll d [.call (.feed chunk)] = .error .overflow ↔
      (Emulator.ofDimensions d).feed? chunk = none := by
  rw [afterAll_feed hd]
  cases (Emulator.ofDimensions d).feed? chunk with
  | none => exact iff_of_true rfl rfl
  | some p => exact iff_of_false (by rintro ⟨⟩) (by rintro ⟨⟩)

/-- **Streams are free of overflow exactly on the screens of at most 65528 columns**; and on any
screen a stream overflows exactly if an instruction is reached in it that does. -/
theorem feed_never_overflows_iff (hrows : 1 ≤ d.rows ∧ d.rows ≤ Word.max)
    (hcols : 1 ≤ d.cols ∧ d.cols ≤ Word.max) :
    ((∀ chunk, ((Emulator.ofDimensions d).feed? chunk).isSome = true ∧
        afterAll d [.call (.feed chunk)] ≠ .error .overflow) ↔ d.cols ≤ 65528) ∧
      ∀ chunk, afterAll d [.call (.feed chunk)] = .error .overflow ↔
        ∃ before i after s, (Reader.fresh.feed chunk).2 = before ++ i :: after ∧
          (Screen.blank d).obeyAll? before = some s ∧ i.Overflows s := by
  have hd : d.Fits := ⟨hrows.2, hcols.2⟩
  have hraised : d.raised = d := Dimensions.raised_eq_self hrows.1 hcols.1
  refine ⟨⟨fun hall => ?_, fun hc chunk => ?_⟩, fun chunk => ?_⟩
  · -- a wider screen overflows on one stream
    refine Nat.le_of_not_lt fun hwide => ?_
    have hsome := (hall tabAtTheEdge).1
    rw [Emulator.feed?_tabAtTheEdge hd hwide] at hsome
    cases hsome
  · have hsome := Emulator.feed?_isSome (by rw [hraised]; exact hc) hd chunk
    refine ⟨hsome, fun hover => ?_⟩
    rw [(afterAll_feed_eq_overflow_iff hd chunk).mp hover] at hsome
    cases hsome
  · rw [afterAll_feed_eq_overflow_iff hd, Emulator.feed?_eq_none_iff hd]

/-- One row of 65529 columns is too wide: a tab at its edge overflows. -/
theorem feed_overflows_at_the_edge :
    (1 ≤ (⟨1, 65529⟩ : Dimensions).rows ∧ (⟨1, 65529⟩ : Dimensions).rows ≤ Word.max) ∧
      (1 ≤ (⟨1, 65529⟩ : Dimensions).cols ∧ (⟨1, 65529⟩ : Dimensions).cols ≤ Word.max) ∧
      afterAll ⟨1, 65529⟩ [.call (.feed tabAtTheEdge)] = .error .overflow ∧
      ¬ ∀ chunk, ((Emulator.ofDimensions ⟨1, 65529⟩).feed? chunk).isSome = true ∧
        afterAll ⟨1, 65529⟩ [.call (.feed chunk)] ≠ .error .overflow := by
  have hrows : 1 ≤ (⟨1, 65529⟩ : Dimensions).rows ∧
      (⟨1, 65529⟩ : Dimensions).rows ≤ Word.max := by decide
  have hcols : 1 ≤ (⟨1, 65529⟩ : Dimensions).cols ∧
      (⟨1, 65529⟩ : Dimensions).cols ≤ Word.max := by decide
  obtain ⟨hfree, -⟩ := feed_never_overflows_iff hrows hcols
  refine ⟨hrows, hcols, ?_, fun hall => absurd (hfree.mp hall) (by decide)⟩
  exact (afterAll_feed_eq_overflow_iff ⟨hrows.2, hcols.2⟩ _).mpr
    (Emulator.feed?_tabAtTheEdge ⟨hrows.2, hcols.2⟩ (by decide))

end Raster

end VirtualTerminal
