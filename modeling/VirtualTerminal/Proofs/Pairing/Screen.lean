import VirtualTerminal.Proofs.Pairing.Line
import VirtualTerminal.Proofs.Size

/-!
# Pairing — Screen

Every operation on a screen but one keeps its lines paired (`Screen.Keeps`): lines that are moved
stay what they are, lines that enter are unwritten, and lines that are written, shifted or cut are
paired again by `Pairing.Line`.

The exception is erasing.  It blanks cells without looking at their neighbours, so it keeps a screen
paired exactly if neither end of the erased part lies between the two halves of a wide glyph
(`Screen.cuts`, `linked_erase_iff`).
-/

namespace VirtualTerminal

namespace Screen

/-- Every cell of the screen is regular. -/
def Regular (s : Screen) : Prop := ∀ l ∈ s.lines, l.Regular

/-- No half of a wide glyph stands alone on the screen. -/
def Paired (s : Screen) : Prop := ∀ l ∈ s.lines, l.Paired

/-- Every line of the screen is linked. -/
def Linked (s : Screen) : Prop := ∀ l ∈ s.lines, l.Linked false

/-- On regular lines the two ways to say that they are paired agree. -/
theorem paired_iff_linked {s : Screen} (hr : s.Regular) : s.Paired ↔ s.Linked :=
  forall₂_congr fun l hl => Line.paired_iff_linked (hr l hl)

/-- What is regular stays regular, and what is paired stays paired. -/
structure Keeps (s s' : Screen) : Prop where
  regular : s.Regular → s'.Regular
  linked : s.Regular → s.Linked → s'.Linked

namespace Keeps

variable {s s' s'' : Screen}

theorem refl (s : Screen) : s.Keeps s := ⟨id, fun _ h => h⟩

/-- What two operations keep, both together keep. -/
theorem trans (h : s.Keeps s') (h' : s'.Keeps s'') : s.Keeps s'' where
  regular hr := h'.regular (h.regular hr)
  linked hr hl := h'.linked (h.regular hr) (h.linked hr hl)

/-- Moving lines keeps what they are. -/
theorem of_moves (h : s.Moves s') : s.Keeps s' where
  regular hr := All.moves .regular hr h
  linked _ hs l hl := by
    rcases h l hl with hl | ⟨cols, rfl⟩
    · exact hs l hl
    · exact Line.linked_empty cols

theorem of_lines_eq (h : s'.lines = s.lines) : s.Keeps s' :=
  of_moves (.of_lines_eq h)

/-- Changing the cursor's line, if that one stays regular and paired. -/
theorem modifyCursorLine {f : Line → Line}
    (hr : ∀ l ∈ s.lines, l.Regular → (f l).Regular)
    (hl : ∀ l ∈ s.lines, l.Regular → l.Linked false → (f l).Linked false) :
    s.Keeps (s.modifyCursorLine f) := by
  refine ⟨fun hs => All.modifyCursorLine hs hr, fun hs hlinked l hmem => ?_⟩
  obtain ⟨l', hl', rfl | rfl⟩ := exists_of_mem_modify hmem
  · exact hlinked l hl'
  · exact hl l' hl' (hs l' hl') (hlinked l' hl')

/-! ### Writing and editing lines -/

/-- A glyph that fits into the line brings its spacer, and mends what it cuts. -/
theorem place (h : s.WellFormed) {width : Nat} {c : Char} (hc : Width.columns? c = some width)
    (hpos : 0 < width) (hle : width ≤ 2) (hreach : s.cursor.col + width ≤ s.dims.cols) :
    s.Keeps (s.place width c) := by
  have hregular : (s.glyph c).Regular :=
    ⟨nofun, fun w hw => Option.some.inj (hc.symm.trans hw) ▸ hle⟩
  have hlead : Line.leads (s.glyph c) = decide (width = 2) := by
    rw [Line.leads, show (s.glyph c).character = c from rfl, Width.isWide, hc]
    exact (Bool.true_and _).trans (decide_eq_decide.mpr (by omega))
  have hput : s.Keeps (s.modifyCursorLine fun line =>
      Line.put line s.cursor.col width (s.glyph c)) := by
    refine modifyCursorLine (fun l _ hr => Line.Each.put .regular hr hregular) fun l hmem _ hl => ?_
    have hlen := h.length_line l hmem
    exact Line.linked_put hl (by omega) (hlen ▸ hreach) hlead rfl
  unfold Screen.place
  dsimp only
  split
  · exact hput.trans (of_lines_eq rfl)
  · exact hput.trans (of_lines_eq rfl)

/-- **Printing** keeps lines paired, in whatever place it ends up. -/
theorem write? (h : s.WellFormed) {c : Char}
    (hc : ∀ width, Width.columns? c = some width → width ≤ 2) (hs : s.write? c = some s') :
    s.Keeps s' := by
  obtain rfl | ⟨width, s₀, hcolumns, hpos, hw, hs₀, rfl⟩ := write?_eq_some hs
  · exact refl s'
  · obtain ⟨h₀, hdims, hmoves⟩ : s₀.WellFormed ∧ s₀.dims = s.dims ∧ s.Moves s₀ := by
      rcases hs₀ with rfl | rfl
      · exact ⟨h, rfl, .refl s₀⟩
      · exact ⟨h.wrap, dims_wrap s, .wrap s⟩
    have hroom := col_makeRoom_add_le (hdims ▸ hw : width ≤ s₀.dims.cols)
    have hdims₁ := dims_makeRoom s₀ width (s₀.cursor.col + width)
    exact (of_moves (hmoves.trans (.makeRoom s₀ _ _))).trans
      (place (h₀.makeRoom hpos _) hcolumns hpos (hc width hcolumns) (hdims₁ ▸ hroom))

/-- Cells taken from the line and blanks, in any order, mended. -/
theorem mend {f : Line → Line} (hf : ∀ l ∈ s.lines, ∀ c ∈ f l, c ∈ l ∨ c = s.erased) :
    s.Keeps (s.modifyCursorLine fun line => Line.mend (f line)) where
  regular hr := All.mend .regular hr hf
  linked _ hl l hmem := by
    obtain ⟨l', hl', rfl | rfl⟩ := exists_of_mem_modify hmem
    · exact hl l hl'
    · exact Line.linked_mend _

theorem insertChars (s : Screen) (n : Nat) : s.Keeps (s.insertChars n) :=
  (mend fun _ _ _ hc => Line.mem_of_mem_insertBlanks hc).trans (of_lines_eq rfl)

theorem deleteChars (s : Screen) (n : Nat) : s.Keeps (s.deleteChars n) :=
  (mend fun _ _ _ hc => Line.mem_of_mem_deleteCells hc).trans (of_lines_eq rfl)

theorem eraseChars (s : Screen) (n : Nat) : s.Keeps (s.eraseChars n) :=
  mend fun _ _ _ hc => Line.mem_of_mem_blankCells hc

/-- A line that is cut in the middle of a glyph has it replaced by a blank. -/
theorem resize? {d : Dimensions} (hs : s.resize? d = some s') : s.Keeps s' where
  regular hr := All.resize? .regular hr hs
  linked _ hlinked := by
    obtain ⟨-, rfl | rfl⟩ := resize?_eq_some hs
    · exact hlinked
    · intro l hl
      obtain ⟨l', hl', rfl⟩ | rfl := mem_resizeGrid hl
      · exact Line.linked_resize (hlinked l' hl') d.cols
      · exact Line.linked_empty d.cols

end Keeps

/-! ### Erasing -/

/-- The place holds the second half of a wide glyph. -/
def spacerAt (s : Screen) (row col : Nat) : Bool := (s.cell? row col).any Cell.spacer

/-- Erasing the region cuts a wide glyph: its first cell is a second half, or the cell right of its
last one is. -/
def cuts (s : Screen) (region : EraseRegion) : Bool :=
  let (first, last) := region.bounds s.dims s.cursor
  s.spacerAt first.row first.col || s.spacerAt last.row (last.col + 1)

section Erase
variable {s : Screen}

/-- A column of the screen holds a spacer if it does in its line. -/
theorem spacerAt_eq_true_iff {row col : Nat} :
    s.spacerAt row col = true ↔
      ∃ line, s.lines[row]? = some line ∧ Line.spacerAt line col = true := by
  rw [spacerAt, cell?]
  cases s.lines[row]? with
  | none => exact iff_of_false Bool.false_ne_true (by rintro ⟨line, hline, -⟩; cases hline)
  | some line =>
    rw [Option.bind_some]
    refine ⟨fun h => ⟨line, rfl, h⟩, ?_⟩
    rintro ⟨line', hline, h⟩
    exact Option.some.inj hline ▸ h

/-- The part of a row between two positions, in reading order. -/
def between (first last : Position) (row col : Nat) : Bool :=
  first.le ⟨row, col⟩ && Position.le ⟨row, col⟩ last

/-- Reading order goes row by row, and in a row column by column. -/
theorem between_eq_true_iff {first last : Position} {row col : Nat} :
    between first last row col = true ↔
      (first.row < row ∨ first.row = row ∧ first.col ≤ col) ∧
        (row < last.row ∨ row = last.row ∧ col ≤ last.col) := by
  simp only [between, Position.le, Bool.and_eq_true, Bool.or_eq_true, decide_eq_true_eq,
    beq_iff_eq]

/-- Filling keeps a screen linked exactly if it takes both halves of each wide glyph or none. -/
theorem linked_fill_iff (hl : s.Linked) (first last : Position) (background : Color) :
    (s.fill first last (Cell.erased background)).Linked ↔
      ∀ row col, s.spacerAt row (col + 1) = true →
        between first last row col = between first last row (col + 1) := by
  have hline : ∀ {row : Nat} {line : Line}, s.lines[row]? = some line →
      ((Line.blankIf line (between first last row) (Cell.erased background)).Linked false ↔
        ∀ col, Line.spacerAt line (col + 1) = true →
          between first last row col = between first last row (col + 1)) :=
    fun hget => Line.linked_blankIf_iff rfl rfl (hl _ (List.mem_of_getElem? hget))
  constructor
  · intro h row col hs
    obtain ⟨line, hget, hs⟩ := spacerAt_eq_true_iff.mp hs
    refine (hline hget).mp (h _ (List.mem_of_getElem? (i := row) ?_)) col hs
    rw [fill, List.getElem?_mapIdx, hget]
    rfl
  · intro h l hmem
    obtain ⟨row, hget⟩ := List.mem_iff_getElem?.mp hmem
    rw [fill, List.getElem?_mapIdx] at hget
    obtain ⟨line, hget', rfl⟩ := Option.map_eq_some_iff.mp hget
    exact (hline hget').mpr fun col hs => h row col (spacerAt_eq_true_iff.mpr ⟨line, hget', hs⟩)

/-- **Erasing keeps a paired screen paired exactly if it cuts no wide glyph.** -/
theorem linked_erase_iff (h : s.WellFormed) (hl : s.Linked) (region : EraseRegion) :
    (s.erase region).Linked ↔ s.cuts region = false := by
  obtain ⟨hrow, hcol, -, -⟩ := region.bounds_within h.row_lt h.col_lt
  have hcuts : s.cuts region = (
      s.spacerAt (region.bounds s.dims s.cursor).1.row (region.bounds s.dims s.cursor).1.col ||
      s.spacerAt (region.bounds s.dims s.cursor).2.row
        ((region.bounds s.dims s.cursor).2.col + 1)) := rfl
  have herase : s.erase region = s.fill (region.bounds s.dims s.cursor).1
      (region.bounds s.dims s.cursor).2 (Cell.erased s.style.background) := rfl
  rw [herase, linked_fill_iff hl, hcuts, Bool.or_eq_false_iff]
  generalize (region.bounds s.dims s.cursor).1 = first at hrow hcol ⊢
  generalize (region.bounds s.dims s.cursor).2 = last at hrow hcol ⊢
  constructor
  · intro hq
    constructor
    · refine Bool.eq_false_iff.mpr fun hs => ?_
      cases hc : first.col with
      | zero =>
        -- no line begins with a second half
        obtain ⟨line, hget, hs⟩ := spacerAt_eq_true_iff.mp hs
        rw [hc, (hl line (List.mem_of_getElem? hget)).first] at hs
        cases hs
      | succ col =>
        have hsame := Bool.eq_iff_iff.mp (hq first.row col (hc ▸ hs))
        rw [between_eq_true_iff, between_eq_true_iff] at hsame
        omega
    · refine Bool.eq_false_iff.mpr fun hs => ?_
      have hsame := Bool.eq_iff_iff.mp (hq last.row last.col hs)
      rw [between_eq_true_iff, between_eq_true_iff] at hsame
      omega
  · rintro ⟨hfirst, hlast⟩ row col hs
    have hnotFirst : ¬ (row = first.row ∧ col + 1 = first.col) := by
      rintro ⟨rfl, hc⟩
      rw [hc, hfirst] at hs
      cases hs
    have hnotLast : ¬ (row = last.row ∧ col = last.col) := by
      rintro ⟨rfl, rfl⟩
      rw [hlast] at hs
      cases hs
    refine Bool.eq_iff_iff.mpr ?_
    rw [between_eq_true_iff, between_eq_true_iff]
    omega

end Erase

/-! ### Instructions and changes -/

/-- The instruction erases, and cuts a wide glyph. -/
def Change.Cuts (c : Change) (s : Screen) : Prop :=
  ∃ region, c = .obey (.erase region) ∧ s.cuts region = true

/-- The change comes from a call of the emulator, and shows no character of three columns. -/
def Change.Narrow : Change → Prop
  | .obey (.print c) => ∀ width, Width.columns? c = some width → width ≤ 2
  | .putCell _ _ _ => False
  | _ => True

variable {s s' : Screen}

/-- Every instruction but erasing keeps what is paired. -/
theorem keeps_obey? (h : s.WellFormed) {i : Instruction} (hi : (Change.obey i).Narrow)
    (hne : ∀ region, i ≠ .erase region) (hs : i.obey? s = some s') : s.Keeps s' := by
  cases i with
  | print c => exact .write? h hi hs
  | tab =>
    obtain ⟨stop, rfl⟩ := tab?_eq_some hs
    exact .of_lines_eq rfl
  | lineFeed | index => exact Option.some.inj hs ▸ .of_moves (.lineFeed s)
  | reverseIndex => exact Option.some.inj hs ▸ .of_moves (.reverseIndex s)
  | erase region => exact absurd rfl (hne region)
  | insertLines n => exact Option.some.inj hs ▸ .of_moves (.insertLines s n)
  | deleteLines n => exact Option.some.inj hs ▸ .of_moves (.deleteLines s n)
  | insertChars n => exact Option.some.inj hs ▸ .insertChars s n
  | deleteChars n => exact Option.some.inj hs ▸ .deleteChars s n
  | eraseChars n => exact Option.some.inj hs ▸ .eraseChars s n
  | scrollUp n => exact Option.some.inj hs ▸ .of_moves (.shiftLinesUp s _ _ n)
  | scrollDown n => exact Option.some.inj hs ▸ .of_moves (.shiftLinesDown s _ _ n)
  | restoreCursor => exact Option.some.inj hs ▸ .of_moves (.restoreCursor s)
  | reset => exact Option.some.inj hs ▸ .of_moves (.blank s.dims)
  | _ => exact Option.some.inj hs ▸ .of_lines_eq rfl

/-- **What one change does to a paired screen**: it keeps the cells regular, and the screen paired
exactly if it does not cut a wide glyph. -/
theorem paired_change? (h : s.WellFormed) (hr : s.Regular) {c : Change} (hc : c.Narrow)
    (hs : s.change? c = some s') : s'.Regular ∧ (s.Paired → (s'.Paired ↔ ¬ c.Cuts s)) := by
  -- whatever is no erase cuts nothing
  have hkept : s.Keeps s' → ¬ c.Cuts s →
      s'.Regular ∧ (s.Paired → (s'.Paired ↔ ¬ c.Cuts s)) := by
    intro hk hnot
    refine ⟨hk.regular hr, fun hp => iff_of_true ?_ hnot⟩
    exact (paired_iff_linked (hk.regular hr)).mpr (hk.linked hr ((paired_iff_linked hr).mp hp))
  cases c with
  | obey i =>
    by_cases he : ∃ region, i = .erase region
    · obtain ⟨region, rfl⟩ := he
      obtain rfl := Option.some.inj hs
      have hr' : (s.erase region).Regular := All.fill hr _ _ (.erased _)
      refine ⟨hr', fun hp => ?_⟩
      rw [paired_iff_linked hr', linked_erase_iff h ((paired_iff_linked hr).mp hp),
        ← Bool.not_eq_true, Change.Cuts]
      refine not_congr ⟨fun hcuts => ⟨region, rfl, hcuts⟩, ?_⟩
      rintro ⟨region', heq, hcuts⟩
      obtain rfl := Instruction.erase.inj (Change.obey.inj heq)
      exact hcuts
    · have hne : ∀ region, i ≠ .erase region := fun region heq => he ⟨region, heq⟩
      refine hkept (keeps_obey? h hc hne hs) ?_
      rintro ⟨region, heq, -⟩
      exact hne region (Change.obey.inj heq)
  | setStyle style => exact hkept (Option.some.inj hs ▸ .of_lines_eq rfl) nofun
  | putCell row col c => exact hc.elim
  | resize d =>
    refine hkept ?_ nofun
    obtain rfl := Option.some.inj hs
    cases hd : s.resize? d with
    | none => exact .refl s
    | some s' => exact .resize? hd

end Screen

end VirtualTerminal
