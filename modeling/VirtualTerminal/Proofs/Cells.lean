import VirtualTerminal.Proofs.Run

/-!
# Cells — where lines and cells come from

Most operations move lines and write none: a line was there before, or it is unwritten
(`Screen.Moves`).  The others write cells, and a cell they write was there before, is blank, or is
the glyph of a printed character.  So a property of cells that blanking does not break
(`Cell.Stable`) stays with all cells of a screen as long as the printed glyphs have it
(`All.change?`, `All.changeAll?`).
-/

namespace VirtualTerminal

/-- A property of cells that every blank has, and that a cell keeps when it is no longer a spacer. -/
structure Cell.Stable (Q : Cell → Prop) : Prop where
  of_blank : ∀ {c : Cell}, c.character = ' ' → Q c
  unspaced : ∀ {c : Cell}, Q c → Q c.unspaced

namespace Line

variable {l : Line} {c : Cell} {i col : Nat}

/-- Whether a column holds a spacer is told by its cell. -/
theorem spacerAt_eq (h : l[col]? = some c) : spacerAt l col = c.spacer := by
  rw [spacerAt, h]
  rfl

/-- Inserting cells writes blanks only. -/
theorem mem_of_mem_insertBlanks {n : Nat} {blank : Cell} (h : c ∈ insertBlanks l col n blank) :
    c ∈ l ∨ c = blank := by
  simp only [insertBlanks, List.mem_append] at h
  obtain h | h | h := h
  · exact .inl (List.mem_of_mem_take h)
  · exact .inr (List.eq_of_mem_replicate h)
  · exact .inl (List.mem_of_mem_drop (List.mem_of_mem_take h))

/-- Deleting cells writes blanks only. -/
theorem mem_of_mem_deleteCells {n : Nat} {blank : Cell} (h : c ∈ deleteCells l col n blank) :
    c ∈ l ∨ c = blank := by
  simp only [deleteCells, List.mem_append] at h
  obtain h | h | h := h
  · exact .inl (List.mem_of_mem_take h)
  · exact .inl (List.mem_of_mem_drop h)
  · exact .inr (List.eq_of_mem_replicate h)

/-- Blanking cells writes blanks only. -/
theorem mem_of_mem_blankCells {n : Nat} {blank : Cell} (h : c ∈ blankCells l col n blank) :
    c ∈ l ∨ c = blank := by
  simp only [blankCells, List.mem_append] at h
  obtain h | h | h := h
  · exact .inl (List.mem_of_mem_take h)
  · exact .inr (List.eq_of_mem_replicate h)
  · exact .inl (List.mem_of_mem_drop h)

/-- Each cell of the line has the property. -/
def Each (Q : Cell → Prop) (l : Line) : Prop := ∀ c ∈ l, Q c

namespace Each

variable {Q : Cell → Prop} (hq : Cell.Stable Q) (h : l.Each Q)
include h

theorem modify {f : Cell → Cell} (hf : ∀ c, Q c → Q (f c)) : Each Q (l.modify i f) := by
  intro c hc
  obtain ⟨c', hc', rfl | rfl⟩ := exists_of_mem_modify hc
  · exact h c hc'
  · exact hf c' (h c' hc')

theorem set (hc : Q c) : Each Q (l.set i c) := by
  intro c' hmem
  rcases List.mem_or_eq_of_mem_set hmem with hmem | rfl
  · exact h c' hmem
  · exact hc

include hq

/-- Giving up the wide glyph at a column writes blanks and unmarks its spacer. -/
theorem release : Each Q (release l col) := by
  have hclear : ∀ {l : Line} {i : Nat}, l.Each Q → Each Q (l.modify i Cell.withoutGlyph) :=
    fun h => h.modify fun _ _ => hq.of_blank rfl
  unfold Line.release
  split
  · refine modify ?_ fun _ => hq.unspaced
    split
    · exact hclear h
    · exact h
  · split
    · exact h.modify fun _ _ => hq.of_blank rfl
    · exact h

/-- A glyph put into a line brings its own cells, and blanks where it cuts another one. -/
theorem put {width : Nat} (hc : Q c) : Each Q (put l col width c) := by
  unfold Line.put
  split
  · exact (((h.release hq).release hq).set (hq.of_blank rfl)).set hc
  · exact (h.release hq).set hc

/-- A resized line holds kept cells, a closed edge and blanks. -/
theorem resize (cols : Nat) : Each Q (resize l cols) := by
  unfold Line.resize Line.closeEdge
  split
  · refine modify (fun c hc => h c (List.mem_of_mem_take hc)) fun c hc => ?_
    split
    · exact hq.of_blank rfl
    · exact hc
  · intro c hc
    rcases List.mem_append.mp hc with hc | hc
    · exact h c hc
    · exact List.eq_of_mem_replicate hc ▸ hq.of_blank rfl

/-- Mending replaces cells by blanks. -/
theorem mendAfter (previous : Option Cell) : Each Q (mendAfter previous l) := by
  induction l generalizing previous with
  | nil => exact h
  | cons c rest ih =>
    have hc : Q c := h c List.mem_cons_self
    rw [Line.mendAfter, Each, List.forall_mem_cons]
    refine ⟨?_, ih (fun c hmem => h c (List.mem_cons_of_mem _ hmem)) _⟩
    split
    · split
      · exact hc
      · exact hq.of_blank rfl
    · split
      · exact hq.of_blank rfl
      · exact hc

end Each

/-- An unwritten line is blank throughout. -/
theorem each_empty {Q : Cell → Prop} (hq : Cell.Stable Q) (cols : Nat) : (empty cols).Each Q :=
  fun _ hc => List.eq_of_mem_replicate hc ▸ hq.of_blank rfl

end Line

namespace Screen

/-! ### Moving lines -/

/-- Each line of the screen afterwards was there before, or is unwritten. -/
def Moves (s s' : Screen) : Prop := ∀ l ∈ s'.lines, l ∈ s.lines ∨ ∃ cols, l = Line.empty cols

namespace Moves

variable {s s' s'' : Screen}

/-- A screen with the same lines has moved none. -/
theorem of_lines_eq (h : s'.lines = s.lines) : s.Moves s' := fun _ hl => .inl (h ▸ hl)

theorem refl (s : Screen) : s.Moves s := of_lines_eq rfl

/-- Moves one after the other are moves. -/
theorem trans (h : s.Moves s') (h' : s'.Moves s'') : s.Moves s'' := by
  intro l hl
  rcases h' l hl with hl | hl
  · exact h l hl
  · exact .inr hl

/-- The lines that come in below are unwritten. -/
theorem shiftLinesUp (s : Screen) (first last n : Nat) : s.Moves (s.shiftLinesUp first last n) :=
  fun _ hl => (mem_of_mem_shiftUp hl).imp_right fun h => ⟨_, h⟩

/-- The lines that come in above are unwritten. -/
theorem shiftLinesDown (s : Screen) (first last n : Nat) :
    s.Moves (s.shiftLinesDown first last n) :=
  fun _ hl => (mem_of_mem_shiftDown hl).imp_right fun h => ⟨_, h⟩

/-- At the bottom of the region the lines move up, elsewhere the cursor moves down. -/
theorem indexDown (s : Screen) : s.Moves s.indexDown := by
  unfold Screen.indexDown
  split
  · exact shiftLinesUp s _ _ _
  · split
    · exact of_lines_eq rfl
    · exact refl s

/-- At the top of the region the lines move down, elsewhere the cursor moves up. -/
theorem indexUp (s : Screen) : s.Moves s.indexUp := by
  unfold Screen.indexUp
  split
  · exact shiftLinesDown s _ _ _
  · exact of_lines_eq rfl

theorem lineFeed (s : Screen) : s.Moves s.lineFeed :=
  (of_lines_eq rfl : s.Moves { s with pendingWrap := false }).trans (indexDown _)

theorem reverseIndex (s : Screen) : s.Moves s.reverseIndex :=
  (of_lines_eq rfl : s.Moves { s with pendingWrap := false }).trans (indexUp _)

theorem wrap (s : Screen) : s.Moves s.wrap :=
  (of_lines_eq rfl : s.Moves { s with cursor := ⟨s.cursor.row, 0⟩, pendingWrap := false }).trans
    (indexDown _)

theorem insertLines (s : Screen) (n : Nat) : s.Moves (s.insertLines n) := by
  unfold Screen.insertLines
  split
  · exact (shiftLinesDown s _ _ n).trans (of_lines_eq rfl)
  · exact refl s

theorem deleteLines (s : Screen) (n : Nat) : s.Moves (s.deleteLines n) := by
  unfold Screen.deleteLines
  split
  · exact (shiftLinesUp s _ _ n).trans (of_lines_eq rfl)
  · exact refl s

/-- A blank screen has unwritten lines only, whatever was there before. -/
theorem blank (d : Dimensions) : s.Moves (Screen.blank d) :=
  fun _ hl => .inr ⟨_, List.eq_of_mem_replicate hl⟩

theorem restoreCursor (s : Screen) : s.Moves s.restoreCursor := by
  unfold Screen.restoreCursor
  split <;> exact of_lines_eq rfl

/-- Room for a glyph is made by wrapping or by stepping back, neither of which writes a cell. -/
theorem makeRoom (s : Screen) (width reach : Nat) : s.Moves (s.makeRoom width reach) := by
  unfold Screen.makeRoom
  split
  · split
    · exact wrap s
    · exact of_lines_eq rfl
  · exact refl s

end Moves

/-! ### Writing cells -/

/-- Each cell of the screen has the property. -/
def All (Q : Cell → Prop) (s : Screen) : Prop := ∀ l ∈ s.lines, l.Each Q

/-- The cells that the change writes have the property. -/
def Change.Writes (Q : Cell → Prop) : Change → Prop
  | .obey (.print c) => ∀ (s : Screen) width, Width.columns? c = some width → Q (s.glyph c)
  | .putCell _ _ c => Q c
  | _ => True

variable {Q : Cell → Prop} {s s' : Screen}

/-- A blank screen has every property that blanks have. -/
theorem all_blank (hq : Cell.Stable Q) (d : Dimensions) : (blank d).All Q :=
  fun _ hl => List.eq_of_mem_replicate hl ▸ Line.each_empty hq _

namespace All

/-- Only the cursor's line has to keep the property under a change of that line. -/
theorem modifyCursorLine (h : s.All Q) {f : Line → Line}
    (hf : ∀ l ∈ s.lines, l.Each Q → (f l).Each Q) : (s.modifyCursorLine f).All Q := by
  intro l hl
  obtain ⟨l', hl', rfl | rfl⟩ := exists_of_mem_modify hl
  · exact h l hl'
  · exact hf l' hl' (h l' hl')

theorem of_lines_eq (h : s.All Q) (hl : s'.lines = s.lines) : s'.All Q := fun l hmem =>
  h l (hl ▸ hmem)

/-- A filled screen has the property if the cell that fills it has. -/
theorem fill (h : s.All Q) (first last : Position) {c : Cell} (hc : Q c) :
    (s.fill first last c).All Q := by
  intro l hl c' hmem
  obtain ⟨row, hrow, rfl⟩ := List.mem_mapIdx.mp hl
  obtain ⟨col, hcol, rfl⟩ := List.mem_mapIdx.mp hmem
  split
  · exact hc
  · exact h _ (List.getElem_mem hrow) _ (List.getElem_mem hcol)

variable (hq : Cell.Stable Q) (h : s.All Q)
include hq h

/-- Lines that only move take the property along. -/
theorem moves (hs : s.Moves s') : s'.All Q := by
  intro l hl
  rcases hs l hl with hl | ⟨cols, rfl⟩
  · exact h l hl
  · exact Line.each_empty hq cols

/-- Placing a glyph keeps the property if the glyph has it. -/
theorem place {width : Nat} {c : Char} (hc : Q (s.glyph c)) : (s.place width c).All Q := by
  have hput : (s.modifyCursorLine fun line =>
      Line.put line s.cursor.col width (s.glyph c)).All Q :=
    h.modifyCursorLine fun _ _ hl => hl.put hq hc
  unfold Screen.place
  dsimp only
  split <;> exact hput.of_lines_eq rfl

/-- **Printing** keeps the property if the printed glyph has it. -/
theorem write? {c : Char}
    (hc : ∀ (s : Screen) width, Width.columns? c = some width → Q (s.glyph c))
    (hs : s.write? c = some s') : s'.All Q := by
  obtain rfl | ⟨width, s₀, hcolumns, -, -, hs₀, rfl⟩ := write?_eq_some hs
  · exact h
  · have hmoves : s.Moves s₀ := by
      rcases hs₀ with rfl | rfl
      · exact .refl s₀
      · exact .wrap s
    exact (h.moves hq (hmoves.trans (.makeRoom s₀ _ _))).place hq (hc _ width hcolumns)

/-- Cells taken from the line and blanks, in any order, mended. -/
theorem mend {f : Line → Line} (hf : ∀ l ∈ s.lines, ∀ c ∈ f l, c ∈ l ∨ c = s.erased) :
    (s.modifyCursorLine fun line => Line.mend (f line)).All Q := by
  refine h.modifyCursorLine fun l hl hr => Line.Each.mendAfter hq (fun c hc => ?_) none
  rcases hf l hl c hc with hc | rfl
  · exact hr c hc
  · exact hq.of_blank rfl

/-- Resizing writes blanks only. -/
theorem resize? {d : Dimensions} (hs : s.resize? d = some s') : s'.All Q := by
  obtain ⟨-, rfl | rfl⟩ := resize?_eq_some hs
  · exact h
  · intro l hl
    obtain ⟨l', hl', rfl⟩ | rfl := mem_resizeGrid hl
    · exact (h l' hl').resize hq d.cols
    · exact Line.each_empty hq d.cols

/-- **One instruction** keeps the property if the glyphs it writes have it. -/
theorem obey? {i : Instruction} (hi : (Change.obey i).Writes Q)
    (hs : i.obey? s = some s') : s'.All Q := by
  cases i with
  | print c => exact h.write? hq hi hs
  | tab =>
    obtain ⟨stop, rfl⟩ := tab?_eq_some hs
    exact h.of_lines_eq rfl
  | lineFeed | index => exact Option.some.inj hs ▸ h.moves hq (.lineFeed s)
  | reverseIndex => exact Option.some.inj hs ▸ h.moves hq (.reverseIndex s)
  | erase region => exact Option.some.inj hs ▸ h.fill _ _ (hq.of_blank rfl)
  | insertLines n => exact Option.some.inj hs ▸ h.moves hq (.insertLines s n)
  | deleteLines n => exact Option.some.inj hs ▸ h.moves hq (.deleteLines s n)
  | insertChars n =>
    exact Option.some.inj hs ▸
      (h.mend hq fun _ _ _ hc => Line.mem_of_mem_insertBlanks hc).of_lines_eq rfl
  | deleteChars n =>
    exact Option.some.inj hs ▸
      (h.mend hq fun _ _ _ hc => Line.mem_of_mem_deleteCells hc).of_lines_eq rfl
  | eraseChars n =>
    exact Option.some.inj hs ▸ h.mend hq fun _ _ _ hc => Line.mem_of_mem_blankCells hc
  | scrollUp n => exact Option.some.inj hs ▸ h.moves hq (.shiftLinesUp s _ _ n)
  | scrollDown n => exact Option.some.inj hs ▸ h.moves hq (.shiftLinesDown s _ _ n)
  | restoreCursor => exact Option.some.inj hs ▸ h.moves hq (.restoreCursor s)
  | reset => exact Option.some.inj hs ▸ h.moves hq (.blank s.dims)
  | _ => exact Option.some.inj hs ▸ h.of_lines_eq rfl

/-- **One change** keeps the property if what it writes has it. -/
theorem change? {c : Change} (hc : c.Writes Q) (hs : s.change? c = some s') : s'.All Q := by
  cases c with
  | obey i => exact h.obey? hq hc hs
  | setStyle style => exact Option.some.inj hs ▸ h.of_lines_eq rfl
  | putCell row col c =>
    obtain rfl := Option.some.inj hs
    unfold putCell?
    split
    · intro l hl
      obtain ⟨l', hl', rfl | rfl⟩ := exists_of_mem_modify hl
      · exact h l hl'
      · exact (h l' hl').set hc
    · exact h
  | resize d =>
    obtain rfl := Option.some.inj hs
    cases hd : s.resize? d with
    | none => exact h
    | some s' => exact h.resize? hq hd

/-- **A run** keeps the property if what is written in it has it. -/
theorem changeAll? {cs : List Change} (hcs : ∀ c ∈ cs, c.Writes Q)
    (hs : s.changeAll? cs = some s') : s'.All Q := by
  induction cs generalizing s with
  | nil => exact Option.some.inj hs ▸ h
  | cons c cs ih =>
    obtain ⟨s₁, h₁, h₂⟩ := Option.bind_eq_some_iff.mp hs
    exact ih (h.change? hq (hcs c List.mem_cons_self) h₁)
      (fun c hc => hcs c (List.mem_cons_of_mem _ hc)) h₂

end All

end Screen

/-! ### Control characters -/

/-- A control character is not shown. -/
theorem Width.isControl_eq_false {c : Char} {width : Nat} (h : columns? c = some width) :
    isControl c = false := by
  refine Bool.eq_false_iff.mpr fun hc => ?_
  rw [columns?, if_pos hc] at h
  cases h

namespace Screen

/-- The cell holds no control character. -/
def Uncontrolled (c : Cell) : Prop := Width.isControl c.character = false

/-- Holding no control character is a property that blanking keeps. -/
theorem stable_uncontrolled : Cell.Stable Uncontrolled where
  of_blank h := by
    rw [Uncontrolled, h]
    decide
  unspaced h := h

end Screen

/-- Whatever is fed to a new emulator, its screen keeps its shape and **no cell holds a control
character**. -/
theorem Emulator.all_uncontrolled {d : Dimensions} {calls : List Call} {e : Emulator}
    (he : (ofDimensions d).operateAll? (calls.map .call) = some e) :
    e.screen.WellFormed ∧ e.screen.All Screen.Uncontrolled := by
  rw [operateAll?_eq] at he
  obtain ⟨s, hs, rfl⟩ := Option.map_eq_some_iff.mp he
  refine ⟨(Screen.WellFormed.blank d).changeAll? hs,
    (Screen.all_blank Screen.stable_uncontrolled d).changeAll? Screen.stable_uncontrolled
      (fun c hc => ?_) hs⟩
  rcases Reader.fresh.mem_operateAll_calls c hc with ⟨i, rfl⟩ | ⟨d, rfl⟩
  · cases i with
    | print c => exact fun _ _ hcolumns => Width.isControl_eq_false hcolumns
    | _ => trivial
  · trivial

end VirtualTerminal
