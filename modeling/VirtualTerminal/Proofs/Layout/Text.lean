import VirtualTerminal.Proofs.Chunks
import VirtualTerminal.Proofs.Layout.Row
import VirtualTerminal.Proofs.Overflow
import VirtualTerminal.Proofs.Printing

/-!
# Layout — Text

Plain text is made of characters that take a column or two and of line breaks, CR LF.  Its lines are
filled greedily (`Layout.fill`), and a screen that is fed it shows the last of these lines
(`Layout.content`).

While the text is read, the screen shows the lines that are done and the one that grows
(`Layout.Shows`): the cursor stands behind the characters of the current line, or in the last column
with a wrap pending where the line is full.  A character that fits goes behind the others
(`Shows.place`); one that does not, and a line break, begin a line first, on the next row or on the
last one after the others have moved up (`Shows.wrap`).

**Plain text is laid out greedily** (`Emulator.feedAll?_plainText`).
-/

namespace VirtualTerminal

namespace Layout

/-- A piece of plain text. -/
inductive Piece where
  | char (c : Char)
  | lineBreak
deriving DecidableEq, Repr

namespace Piece

/-- The characters that are sent for a piece. -/
def characters : Piece → List Char
  | .char c => [c]
  | .lineBreak => ['\r', '\n']

/-- The character that stands for a piece in the transcript. -/
def mark : Piece → Char
  | .char c => c
  | .lineBreak => '\n'

/-- The instructions that a piece is read as. -/
def instructions : Piece → List Instruction
  | .char c => [.print c]
  | .lineBreak => [.carriageReturn, .lineFeed]

/-- A character of the text takes a column or two. -/
def Plain : Piece → Prop
  | .char c => Shown c
  | .lineBreak => True

end Piece

/-- The lines of a text; the first of them goes on behind `current`.  A line ends at a line break,
and where the next character does not fit into the columns left. -/
def fill (cols : Nat) (current : List Char) : List Piece → List (List Char)
  | [] => [current]
  | .char c :: rest =>
    if columns current + width c ≤ cols then fill cols (current ++ [c]) rest
    else current :: fill cols [c] rest
  | .lineBreak :: rest => current :: fill cols [] rest

/-- Lines on a screen with so many rows: the last of them, each without the spaces at its end, and
below them empty ones. -/
def page (rows : Nat) (lines : List (List Char)) : String :=
  "\n".intercalate
    ((lines.rtake rows).map (fun line => String.ofList (trimmed line)) ++
      List.replicate (rows - lines.length) "")

/-- The text as a screen of this size shows it. -/
def content (d : Dimensions) (text : List Piece) : String := page d.rows (fill d.cols [] text)

/-! ### What the screen shows on the way -/

/-- The screen shows the lines that are done and, below them, the current one. -/
structure Shows (d : Dimensions) (done : List (List Char)) (current : List Char) (s : Screen) :
    Prop where
  dims : s.dims = d
  margins : s.margins = ⟨0, d.rows - 1⟩
  autowrap : s.autowrap = true
  glyph : ∀ c, s.glyph c = Cell.ofChar c
  lines : s.lines = (done.rtake (d.rows - 1)).map (row d.cols) ++
    row d.cols current :: List.replicate (d.rows - 1 - done.length) (Line.empty d.cols)
  cursor_row : s.cursor.row = min done.length (d.rows - 1)
  shown : ∀ line ∈ done ++ [current], ∀ c ∈ line, Shown c
  /-- The cursor stands behind the characters, or a full line has its wrap pending. -/
  cursor : (columns current < d.cols ∧ s.cursor.col = columns current ∧ s.pendingWrap = false) ∨
    (columns current = d.cols ∧ s.pendingWrap = true)

theorem shows_blank {d : Dimensions} (hrows : 0 < d.rows) (hcols : 0 < d.cols) :
    Shows d [] [] (Screen.blank d) := by
  have hraised : d.raised = d := Dimensions.raised_eq_self hrows hcols
  constructor
  · exact hraised
  · rw [Screen.blank, hraised]
  · rfl
  · exact fun c => rfl
  · rw [Screen.blank, hraised, List.rtake_nil, row_nil, List.length_nil, Nat.sub_zero,
      ← List.replicate_succ, Nat.sub_add_cancel hrows]
    rfl
  · rfl
  · simp
  · exact .inl ⟨hcols, rfl, rfl⟩

/-- Shifting all lines up by one drops the first and adds a blank one. -/
theorem shiftUp_all {lines : List Line} {rows : Nat} (h : lines.length = rows) (hrows : 0 < rows)
    (blank : Line) : shiftUp lines 0 (rows - 1) 1 blank = lines.drop 1 ++ [blank] := by
  have hlast : rows - 1 + 1 = rows := Nat.sub_add_cancel hrows
  simp only [shiftUp, hlast, Nat.sub_zero, List.drop_zero, List.take_zero, List.nil_append]
  rw [Nat.min_eq_left hrows, ← h, List.take_length, List.drop_length, List.append_nil]
  rfl

theorem drop_rtake {α : Type} {xs : List α} {n : Nat} (h : n + 1 ≤ xs.length) :
    (xs.rtake (n + 1)).drop 1 = xs.rtake n := by
  rw [List.rtake, List.rtake, List.drop_drop]
  congr 1
  omega

namespace Shows

variable {d : Dimensions} {done : List (List Char)} {current : List Char} {s : Screen}

theorem length_rtake (done : List (List Char)) (n : Nat) :
    (done.rtake n).length = min done.length n := by
  rw [List.rtake, List.length_drop]
  omega

theorem shown_current (h : Shows d done current s) : ∀ c ∈ current, Shown c :=
  h.shown current (List.mem_append_right _ List.mem_cons_self)

/-- **The next line.**  It begins on the next row, or on the last one. -/
theorem wrap (h : Shows d done current s) (hrows : 0 < d.rows) (hcols : 0 < d.cols) :
    Shows d (done ++ [current]) [] s.wrap := by
  obtain ⟨rows, hrows'⟩ : ∃ rows, d.rows = rows + 1 := ⟨d.rows - 1, by omega⟩
  have hlen : (done ++ [current]).length = done.length + 1 := by simp
  have hshown : ∀ line ∈ (done ++ [current]) ++ [[]], ∀ c ∈ line, Shown c := by
    intro line hline
    rcases List.mem_append.mp hline with hline | hline
    · exact h.shown line hline
    · obtain rfl := List.mem_singleton.mp hline
      nofun
  have hrow := h.cursor_row
  have hlines := h.lines
  have hbottom : s.margins.bottom = rows := by rw [h.margins, hrows']; rfl
  have htop : s.margins.top = 0 := by rw [h.margins]
  have hheight : s.dims.rows = rows + 1 := by rw [h.dims, hrows']
  rw [hrows', Nat.add_sub_cancel] at hrow hlines
  rw [Screen.wrap, Screen.indexDown]
  rcases Nat.lt_or_ge done.length rows with hspace | hfull
  · -- there is an empty row below
    rw [if_neg (show ¬ s.cursor.row = s.margins.bottom by omega),
      if_pos (show s.cursor.row + 1 < s.dims.rows by omega)]
    refine ⟨h.dims, h.margins, h.autowrap, h.glyph, ?_, ?_, hshown, .inl ⟨hcols, rfl, rfl⟩⟩
    · have hkeep : ∀ {xs : List (List Char)}, xs.length ≤ rows → xs.rtake rows = xs := fun hx => by
        rw [List.rtake, Nat.sub_eq_zero_of_le hx, List.drop_zero]
      rw [hkeep (by omega)] at hlines
      rw [hrows', Nat.add_sub_cancel, hkeep (by omega), hlen, row_nil, ← List.replicate_succ,
        List.map_append, List.append_assoc,
        show rows - (done.length + 1) + 1 = rows - done.length by omega]
      exact hlines
    · rw [hrows', Nat.add_sub_cancel, hlen]
      show s.cursor.row + 1 = _
      omega
  · -- the lines move up
    rw [if_pos (show s.cursor.row = s.margins.bottom by omega)]
    have hall : s.lines = ((done ++ [current]).rtake (rows + 1)).map (row d.cols) := by
      rw [hlines, Nat.sub_eq_zero_of_le hfull, List.rtake_concat_succ, List.map_append]
      rfl
    have hlines' : s.lines.length = rows + 1 := by
      rw [hall, List.length_map, length_rtake]
      omega
    have hscroll := shiftUp_all hlines' (Nat.succ_pos rows) (Line.empty d.cols)
    rw [Nat.add_sub_cancel, hall, ← List.map_drop, drop_rtake (by omega), ← hall] at hscroll
    refine ⟨h.dims, h.margins, h.autowrap, h.glyph, ?_, ?_, hshown, .inl ⟨hcols, rfl, rfl⟩⟩
    · show shiftUp s.lines s.margins.top s.margins.bottom 1 (Line.empty s.dims.cols) = _
      rw [htop, hbottom, h.dims, hscroll, hrows', Nat.add_sub_cancel, row_nil, hlen,
        Nat.sub_eq_zero_of_le (by omega)]
      rfl
    · rw [hrows', Nat.add_sub_cancel, hlen]
      show s.cursor.row = _
      omega

/-- **A character that fits** goes behind the others. -/
theorem place (h : Shows d done current s) {c : Char} (hc : Shown c)
    (hfit : columns current + width c ≤ d.cols) :
    Shows d done (current ++ [c]) (s.place (width c) c) := by
  have hpos : 0 < width c := by
    rcases hc.width_eq with hw | hw <;> omega
  obtain ⟨-, hcol, hpending⟩ | ⟨hfull, -⟩ := h.cursor
  · have hput : Line.put (row d.cols current) s.cursor.col (width c) (s.glyph c) =
        row d.cols (current ++ [c]) := by
      rw [hcol, h.glyph, put_row h.shown_current hc hfit]
    have habove : ((done.rtake (d.rows - 1)).map (row d.cols)).length = s.cursor.row := by
      rw [List.length_map, length_rtake, h.cursor_row]
    have hlines : s.lines.modify s.cursor.row
          (fun line => Line.put line s.cursor.col (width c) (s.glyph c)) =
        (done.rtake (d.rows - 1)).map (row d.cols) ++ row d.cols (current ++ [c]) ::
          List.replicate (d.rows - 1 - done.length) (Line.empty d.cols) := by
      rw [List.modify_eq_take_drop, h.lines, List.take_left' habove, List.drop_left' habove,
        List.modifyHead_cons, hput]
    have hshown : ∀ line ∈ done ++ [current ++ [c]], ∀ x ∈ line, Shown x := by
      intro line hline x hx
      rcases List.mem_append.mp hline with hline | hline
      · exact h.shown line (List.mem_append_left _ hline) x hx
      · obtain rfl := List.mem_singleton.mp hline
        rcases List.mem_append.mp hx with hx | hx
        · exact h.shown_current x hx
        · exact List.mem_singleton.mp hx ▸ hc
    have hcolumns := columns_concat current c
    have hcols : s.dims.cols = d.cols := by rw [h.dims]
    rw [Screen.place, Screen.modifyCursorLine, hlines]
    dsimp only
    by_cases hlast : s.dims.cols ≤ s.cursor.col + width c
    · rw [if_pos hlast]
      exact ⟨h.dims, h.margins, h.autowrap, h.glyph, rfl, h.cursor_row, hshown,
        .inr ⟨by omega, h.autowrap⟩⟩
    · rw [if_neg hlast]
      refine ⟨h.dims, h.margins, h.autowrap, h.glyph, rfl, h.cursor_row, hshown,
        .inl ⟨by omega, ?_, hpending⟩⟩
      rw [hcolumns, ← hcol]
  · omega

/-- A character goes behind the others where it fits, and begins the next line where it does not. -/
theorem write? (h : Shows d done current s) (hrows : 0 < d.rows) (hcols : 2 ≤ d.cols)
    (hmax : d.cols < Word.max) {c : Char} (hc : Shown c) :
    ∃ s', s.write? c = some s' ∧
      if columns current + width c ≤ d.cols then Shows d done (current ++ [c]) s'
      else Shows d (done ++ [current]) [c] s' := by
  have hw := hc.width_eq
  have hdims : s.dims.cols = d.cols := by rw [h.dims]
  have hmax' : d.cols < 65535 := hmax
  have hnext := h.wrap hrows (by omega)
  have hfirst : s.wrap.cursor.col = 0 := by
    obtain ⟨-, hcol, -⟩ | ⟨hfull, -⟩ := hnext.cursor
    · exact hcol
    · exact absurd hfull (show ¬ 0 = d.cols by omega)
  have hbegin := hnext.place hc (show 0 + width c ≤ d.cols by omega)
  rw [List.nil_append] at hbegin
  rw [Screen.write?, hc.columns?_eq]
  dsimp only
  rw [if_neg (by omega), Screen.writeWide?]
  obtain ⟨hlt, hcol, hpending⟩ | ⟨hfull, hpending⟩ := h.cursor
  · -- no wrap is pending
    have hreach : s.cursor.col + width c < Word.limit :=
      show s.cursor.col + width c < 65536 by omega
    rw [hpending, if_neg Bool.false_ne_true, Word.add?_of_lt hreach]
    refine ⟨_, rfl, ?_⟩
    rw [Screen.makeRoom]
    split
    · rw [if_neg (by omega)]
      exact h.place hc ‹_›
    · rw [if_pos (by omega), if_pos h.autowrap]
      exact hbegin
  · -- the line is full
    have hreach : s.wrap.cursor.col + width c < Word.limit :=
      show s.wrap.cursor.col + width c < 65536 by omega
    have hdims' : s.wrap.dims.cols = d.cols := by rw [hnext.dims]
    rw [if_pos hpending, Word.add?_of_lt hreach]
    refine ⟨_, rfl, ?_⟩
    rw [Screen.makeRoom, if_neg (by omega), if_neg (by omega)]
    exact hbegin

/-- **A text.**  The lines that are shown afterwards are those that were done and the filled ones. -/
theorem obeyAll? (hrows : 0 < d.rows) (hcols : 2 ≤ d.cols) (hmax : d.cols < Word.max)
    {text : List Piece} (htext : ∀ p ∈ text, p.Plain) (h : Shows d done current s) :
    ∃ s' done' current', s.obeyAll? (text.flatMap Piece.instructions) = some s' ∧
      Shows d done' current' s' ∧ done' ++ [current'] = done ++ fill d.cols current text := by
  induction text generalizing done current s with
  | nil => exact ⟨s, done, current, rfl, h, rfl⟩
  | cons p text ih =>
    have htext' : ∀ p ∈ text, p.Plain := fun p hp => htext p (List.mem_cons_of_mem _ hp)
    rw [List.flatMap_cons, Screen.obeyAll?_append]
    cases p with
    | char c =>
      obtain ⟨s', hs', hshows⟩ := h.write? hrows hcols hmax (htext _ List.mem_cons_self)
      have hobey : s.obeyAll? (Piece.char c).instructions = some s' := by
        rw [Piece.instructions, Screen.obeyAll?, Instruction.obey?, hs']
        rfl
      rw [hobey, Option.bind_some, fill]
      split at hshows
      · rw [if_pos ‹_›]
        exact ih htext' hshows
      · rw [if_neg ‹_›]
        simpa using ih htext' hshows
    | lineBreak =>
      -- a line feed from the first column is what a wrap does
      have hobey : s.obeyAll? Piece.lineBreak.instructions = some s.wrap := rfl
      rw [hobey, Option.bind_some, fill]
      simpa using ih htext' (h.wrap hrows (by omega))

/-- What the screen shows, as text. -/
theorem content_eq (h : Shows d done current s) (hrows : 0 < d.rows) :
    s.content = page d.rows (done ++ [current]) := by
  obtain ⟨rows, hrows'⟩ : ∃ rows, d.rows = rows + 1 := ⟨d.rows - 1, by omega⟩
  have hlines : s.lines = ((done ++ [current]).rtake d.rows).map (row d.cols) ++
      List.replicate (d.rows - (done ++ [current]).length) (Line.empty d.cols) := by
    rw [h.lines, hrows', List.rtake_concat_succ, List.map_append, List.length_append,
      List.append_assoc, Nat.add_sub_cancel, List.length_singleton, Nat.add_sub_add_right]
    rfl
  have hempty : Line.text (Line.empty d.cols) = [] := by
    rw [← row_nil]
    exact text_row (by nofun) d.cols
  have htext : ∀ line ∈ (done ++ [current]).rtake d.rows,
      String.ofList (Line.text (row d.cols line)) = String.ofList (trimmed line) := by
    intro line hline
    rw [text_row (h.shown line (List.mem_of_mem_drop hline))]
  rw [Screen.content, page, hlines, List.map_append, List.map_map, List.map_replicate, hempty]
  exact congrArg (fun ls => "\n".intercalate (ls ++ _)) (List.map_congr_left htext)

end Shows

/-! ### Reading plain text -/

theorem read_piece {p : Piece} (hp : p.Plain) :
    Reader.fresh.read (Utf8.encode p.characters) = (.fresh, p.instructions) := by
  cases p with
  | char c =>
    have hc : Shown c := hp
    have hrun : Escape.Interpreter.fresh.run (Utf8.encode [c]) = (.fresh, [.print c]) :=
      Escape.Interpreter.run_text (by simpa using hc.le_toNat)
    simp only [Reader.read, Piece.characters, Piece.instructions, Reader.fresh, hrun,
      List.flatMap_singleton, Instruction.ofAction_print hc.isControl_eq]
  | lineBreak => rfl

/-- The pieces of a text are read as their instructions. -/
theorem read_text {text : List Piece} (htext : ∀ p ∈ text, p.Plain) :
    Reader.fresh.read (Utf8.encode (text.flatMap Piece.characters)) =
      (.fresh, text.flatMap Piece.instructions) := by
  induction text with
  | nil => rfl
  | cons p text ih =>
    rw [List.flatMap_cons, Utf8.encode_append, Reader.read_append,
      read_piece (htext p List.mem_cons_self), ih fun p hp => htext p (List.mem_cons_of_mem _ hp)]
    rfl

/-- The transcript of a text has one newline for each line break. -/
theorem ofInstructions_text (text : List Piece) :
    Outcome.ofInstructions (text.flatMap Piece.instructions) =
      { transcript := String.ofList (text.map Piece.mark) } := by
  induction text with
  | nil => rfl
  | cons p text ih =>
    have hpiece : Outcome.ofInstructions p.instructions =
        { transcript := String.singleton p.mark } := by
      cases p <;> rfl
    rw [List.flatMap_cons, Outcome.ofInstructions_append, ih, hpiece, Outcome.append, List.map_cons,
      String.ofList_cons]
    rfl

end Layout

open Layout

/-- **Plain text is laid out greedily.**  On a screen with a row and two columns at least, and fewer
columns than the largest sixteen-bit number, take characters of one or two columns and line breaks
CR LF, fed to a fresh emulator in any chunks.  Afterwards the screen shows the last of the lines that
filling the columns greedily makes of them, without the spaces at their ends, and empty lines below
where there are fewer; and the transcript is the text with a newline for each line break. -/
theorem Emulator.feedAll?_plainText {d : Dimensions} (hrows : 1 ≤ d.rows) (hcols : 2 ≤ d.cols)
    (hmax : d.cols < Word.max) {text : List Piece} (htext : ∀ p ∈ text, p.Plain)
    {chunks : List (List UInt8)}
    (hchunks : chunks.flatten = Utf8.encode (text.flatMap Piece.characters)) :
    ∃ e, (ofDimensions d).feedAll? chunks =
        some (e, { transcript := String.ofList (text.map Piece.mark) }) ∧
      e.screen.content = content d text := by
  obtain ⟨s, done, current, hs, hshows, hlines⟩ :=
    (shows_blank hrows (by omega)).obeyAll? hrows hcols hmax htext
  have hcontent : s.content = content d text := by
    rw [hshows.content_eq hrows, hlines]
    rfl
  refine ⟨Reader.fresh.emulator s, ?_, hcontent⟩
  rw [ofDimensions, feedAll?_encode _ hchunks, read_text htext, Reader.perform?, hs,
    ofInstructions_text]
  rfl

/-- A wide character that does not fit, a full line with a line break behind it, spaces at the end
of a line, and a line that has moved off the top; the bytes are cut inside the wide character. -/
theorem Emulator.feedAll?_plainText_scrolled :
    let text : List Piece := [.char 'a', .char 'b', .char '中', .char 'c', .lineBreak, .char 'd',
      .char ' ']
    1 ≤ 2 ∧ 2 ≤ 3 ∧ 3 < Word.max ∧ (∀ p ∈ text, p.Plain) ∧
      [[0x61, 0x62, 0xe4], [0xb8, 0xad, 0x63, 0x0d], [0x0a, 0x64, 0x20]].flatten =
        Utf8.encode (text.flatMap Piece.characters) ∧
      ∃ e, (ofDimensions ⟨2, 3⟩).feedAll?
          [[0x61, 0x62, 0xe4], [0xb8, 0xad, 0x63, 0x0d], [0x0a, 0x64, 0x20]] =
          some (e, { transcript := "ab中c\nd " }) ∧
        e.screen.content = "中c\nd" := by
  intro text
  have htext : ∀ p ∈ text, p.Plain := by
    have hcolumns : ['a', 'b', '中', 'c', 'd', ' '].map Width.columns? =
        [some 1, some 1, some 2, some 1, some 1, some 1] := by decide +kernel
    simp only [List.map_cons, List.cons.injEq] at hcolumns
    obtain ⟨ha, hb, hwide, hc, hd, hspace, -⟩ := hcolumns
    simp only [text, List.forall_mem_cons]
    exact ⟨.inl ha, .inl hb, .inr hwide, .inl hc, trivial, .inl hd, .inl hspace, nofun⟩
  have hchunks : [[0x61, 0x62, 0xe4], [0xb8, 0xad, 0x63, 0x0d], [0x0a, 0x64, 0x20]].flatten =
      Utf8.encode (text.flatMap Piece.characters) := by decide +kernel
  obtain ⟨e, hfeed, hcontent⟩ := feedAll?_plainText (d := ⟨2, 3⟩) (by decide) (by decide) (by decide)
    htext hchunks
  have hlayout : content ⟨2, 3⟩ text = "中c\nd" := by decide +kernel
  exact ⟨by decide, by decide, by decide, htext, hchunks, e, hfeed, hcontent.trans hlayout⟩

end VirtualTerminal
