import VirtualTerminal.Proofs.PendingWrap
import VirtualTerminal.Proofs.Rows

/-!
# Margins — what stays in the scroll region

While the cursor's row lies in the scroll region, most instructions keep to the region
(`Screen.Confines`): the margins stay, the cursor's row stays between them, and the rows outside stay
what they are.  A line feed or a wrap on the bottom margin scrolls the region only; motion stops at
the margins; what is written, shifted or blanked within a line is in the cursor's line.

The others name a row outright, set or restore what the margins depend on, or erase more than the
cursor's line (`Instruction.NamesRows`).

* `Screen.confines_change?`: one change.
* `Screen.confined_changeAll?`: a run of any length.
-/

namespace VirtualTerminal

/-- The row lies in the scroll region. -/
def Margins.Holds (m : Margins) (row : Nat) : Prop := m.top ≤ row ∧ row ≤ m.bottom

instance (m : Margins) (row : Nat) : Decidable (m.Holds row) := inferInstanceAs (Decidable (_ ∧ _))

/-- The region is a part of the cursor's line. -/
def EraseRegion.InLine : EraseRegion → Prop
  | .lineToEnd | .lineFromStart | .wholeLine => True
  | .screenToEnd | .screenFromStart | .wholeScreen => False

/-- The instruction reaches rows that it names itself, or that lie around the cursor's. -/
def Instruction.NamesRows : Instruction → Prop
  | .moveToRow _ | .moveCursor _ _ | .setMargins _ _ | .restoreCursor | .reset => True
  | .erase region => ¬ region.InLine
  | _ => False

namespace Screen

/-- The change is made where the cursor is, and says nothing about rows. -/
def Change.Confined : Change → Prop
  | .obey i => ¬ i.NamesRows
  | .setStyle _ => True
  | .putCell _ _ _ | .resize _ => False

/-- The region is the same, the cursor's row is in it, and no row outside has changed. -/
structure Confines (s s' : Screen) : Prop where
  margins_eq : s'.margins = s.margins
  holds : s'.margins.Holds s'.cursor.row
  outside : ∀ row, ¬ s.margins.Holds row → s'.lines[row]? = s.lines[row]?

namespace Confines

variable {s s' s'' : Screen}

/-- Confinement is carried from one change to the next. -/
theorem trans (h : s.Confines s') (h' : s'.Confines s'') : s.Confines s'' where
  margins_eq := h'.margins_eq.trans h.margins_eq
  holds := h'.holds
  outside row hrow := (h'.outside row (h.margins_eq ▸ hrow)).trans (h.outside row hrow)

/-- Moving the cursor within the region. -/
theorem of_lines_eq (hm : s'.margins = s.margins) (hl : s'.lines = s.lines)
    (hrow : s.margins.Holds s'.cursor.row) : s.Confines s' :=
  ⟨hm, hm ▸ hrow, fun _ _ => by rw [hl]⟩

section Inside
variable (hin : s.margins.Holds s.cursor.row)
include hin

theorem refl : s.Confines s := of_lines_eq rfl rfl hin

/-- What touches the cursor's line only. -/
theorem of_sameLine (hs : s.SameLine s') (hm : s'.margins = s.margins) : s.Confines s' where
  margins_eq := hm
  holds := by rw [hm, hs.1]; exact hin
  outside row hrow := hs.2 row fun heq => hrow (heq ▸ hin)

theorem modifyCursorLine (f : Line → Line) : s.Confines (s.modifyCursorLine f) :=
  of_sameLine hin ⟨rfl, fun _ hrow => List.getElem?_modify_ne f s.lines (Ne.symm hrow)⟩ rfl

/-! ### Shifted rows -/

/-- Other lines in the place of some in the region. -/
theorem of_withLines (hs : s' = { s with lines := s'.lines })
    (hout : ∀ row, ¬ s.margins.Holds row → s'.lines[row]? = s.lines[row]?) : s.Confines s' := by
  have hm : s'.margins = s.margins := by rw [hs]
  have hc : s'.cursor = s.cursor := by rw [hs]
  exact ⟨hm, by rw [hm, hc]; exact hin, hout⟩

section Shift
variable {first last n : Nat} (hfirst : s.margins.top ≤ first) (hlast : last ≤ s.margins.bottom)
include hfirst hlast

omit hin in
/-- A row outside of the region is outside of every range within it. -/
theorem not_in_range {row : Nat} (hrow : ¬ s.margins.Holds row) : ¬ (first ≤ row ∧ row ≤ last) :=
  fun hrange => hrow ⟨Nat.le_trans hfirst hrange.1, Nat.le_trans hrange.2 hlast⟩

/-- Lines that go up within the region. -/
theorem of_movedUp (hs : s.MovedUp first last n s') : s.Confines s' :=
  of_withLines hin hs.1 fun row hrow => by rw [hs.2, if_neg (not_in_range hfirst hlast hrow)]

/-- Lines that go down within the region. -/
theorem of_movedDown (hs : s.MovedDown first last n s') : s.Confines s' :=
  of_withLines hin hs.1 fun row hrow => by rw [hs.2, if_neg (not_in_range hfirst hlast hrow)]

end Shift

/-! ### Motion -/

/-- Moving the cursor within its row. -/
theorem withColumn (col : Nat) (pending : Bool) :
    s.Confines { s with cursor := ⟨s.cursor.row, col⟩, pendingWrap := pending } :=
  of_lines_eq rfl rfl hin

/-- From a row in the region the cursor moves up to the top margin at most. -/
theorem cursorUp (n : Nat) : s.Confines (s.cursorUp n) := by
  refine of_lines_eq rfl rfl ?_
  obtain ⟨htop, hbottom⟩ := hin
  simp only [Screen.cursorUp, if_pos htop, Margins.Holds]
  omega

/-- From a row in the region the cursor moves down to the bottom margin at most. -/
theorem cursorDown (n : Nat) : s.Confines (s.cursorDown n) := by
  refine of_lines_eq rfl rfl ?_
  obtain ⟨htop, hbottom⟩ := hin
  simp only [Screen.cursorDown, if_pos hbottom, Margins.Holds]
  omega

section WellFormed
variable (h : s.WellFormed)
include h

theorem scrollUp (n : Nat) : s.Confines (s.scrollUp n) :=
  of_movedUp hin (Nat.le_refl _) (Nat.le_refl _) (movedUp_shiftLinesUp h h.top_le h.bottom_lt n)

theorem scrollDown (n : Nat) : s.Confines (s.scrollDown n) :=
  of_movedDown hin (Nat.le_refl _) (Nat.le_refl _)
    (movedDown_shiftLinesDown h h.top_le h.bottom_lt n)

/-- On the bottom margin the region scrolls, and above it the next row is still inside. -/
theorem indexDown : s.Confines s.indexDown := by
  unfold Screen.indexDown
  split
  · exact scrollUp hin h 1
  · next hbottom =>
    split
    · exact of_lines_eq rfl rfl ⟨Nat.le_succ_of_le hin.1, Nat.lt_of_le_of_ne hin.2 hbottom⟩
    · exact refl hin

/-- On the top margin the region scrolls, and below it the row before is still inside. -/
theorem indexUp : s.Confines s.indexUp := by
  unfold Screen.indexUp
  split
  · exact scrollDown hin h 1
  · next htop =>
    exact of_lines_eq rfl rfl
      ⟨Nat.le_sub_one_of_lt (Nat.lt_of_le_of_ne hin.1 (Ne.symm htop)),
        Nat.le_trans (Nat.sub_le ..) hin.2⟩

theorem lineFeed : s.Confines s.lineFeed :=
  (withColumn hin s.cursor.col false).trans (indexDown hin (h.withCursor h.row_lt h.col_lt false))

theorem reverseIndex : s.Confines s.reverseIndex :=
  (withColumn hin s.cursor.col false).trans (indexUp hin (h.withCursor h.row_lt h.col_lt false))

theorem wrap : s.Confines s.wrap :=
  (withColumn hin 0 false).trans (indexDown hin (h.withCursor h.row_lt h.cols_pos false))

/-- Lines are inserted between the cursor's row and the bottom margin. -/
theorem insertLines (n : Nat) : s.Confines (s.insertLines n) :=
  (withColumn hin 0 false).trans
    (of_movedDown hin hin.1 (Nat.le_refl _) (movedDown_insertLines h hin n))

/-- Lines are deleted between the cursor's row and the bottom margin. -/
theorem deleteLines (n : Nat) : s.Confines (s.deleteLines n) :=
  (withColumn hin 0 false).trans
    (of_movedUp hin hin.1 (Nat.le_refl _) (movedUp_deleteLines h hin n))

/-! ### Writing -/

/-- Making room wraps within the region or steps back within the line. -/
theorem makeRoom (width reach : Nat) : s.Confines (s.makeRoom width reach) := by
  unfold Screen.makeRoom
  split
  · split
    · exact wrap hin h
    · exact withColumn hin _ s.pendingWrap
  · exact refl hin

omit h in
/-- A glyph is placed in the cursor's line. -/
theorem place (width : Nat) (c : Char) : s.Confines (s.place width c) := by
  refine of_sameLine hin (sameLine_place s width c) ?_
  unfold Screen.place
  dsimp only
  split <;> rfl

/-- **Printing** keeps to the region, also where it wraps or scrolls. -/
theorem write? {c : Char} (hs : s.write? c = some s') : s.Confines s' := by
  obtain rfl | ⟨width, s₀, -, -, -, hs₀, rfl⟩ := write?_eq_some hs
  · exact refl hin
  · obtain ⟨h₀, hwrapped⟩ : s₀.WellFormed ∧ s.Confines s₀ := by
      rcases hs₀ with rfl | rfl
      · exact ⟨h, refl hin⟩
      · exact ⟨h.wrap, wrap hin h⟩
    have hroom := makeRoom hwrapped.holds h₀ width (s₀.cursor.col + width)
    exact (hwrapped.trans hroom).trans (place hroom.holds width c)

end WellFormed

/-! ### Erasing -/

/-- Erasing in the cursor's line keeps to it. -/
theorem erase {region : EraseRegion} (hregion : region.InLine) : s.Confines (s.erase region) := by
  refine of_withLines hin rfl fun row hrow => ?_
  -- the region begins and ends in the cursor's row
  have hne : row ≠ s.cursor.row := fun heq => hrow (heq ▸ hin)
  refine getElem?_fill_of_outside (fun col => Bool.eq_false_iff.mpr fun hbetween => hne ?_) s.erased
  rw [between_eq_true_iff] at hbetween
  cases region with
  | lineToEnd | lineFromStart | wholeLine =>
    simp only at hbetween
    omega
  | screenToEnd | screenFromStart | wholeScreen => exact hregion.elim

end Inside

end Confines

/-! ### Instructions and changes -/

section Change
variable {s s' : Screen}

/-- **One instruction** that names no rows keeps to the scroll region. -/
theorem confines_obey? (h : s.WellFormed) (hin : s.margins.Holds s.cursor.row) {i : Instruction}
    (hi : ¬ i.NamesRows) (hs : i.obey? s = some s') : s.Confines s' := by
  cases i with
  | print c => exact .write? hin h hs
  | tab =>
    obtain ⟨stop, rfl⟩ := tab?_eq_some hs
    exact .withColumn hin _ false
  | lineFeed | index => exact Option.some.inj hs ▸ .lineFeed hin h
  | reverseIndex => exact Option.some.inj hs ▸ .reverseIndex hin h
  | cursorUp n => exact Option.some.inj hs ▸ .cursorUp hin n
  | cursorDown n => exact Option.some.inj hs ▸ .cursorDown hin n
  | moveToRow _ | moveCursor _ _ | setMargins _ _ | restoreCursor | reset => exact absurd trivial hi
  | moveToColumn col =>
    obtain rfl := Option.some.inj hs
    have hrow : (s.moveToColumn (col - 1)).cursor.row = s.cursor.row :=
      Nat.min_eq_left (Nat.le_sub_one_of_lt h.row_lt)
    exact .of_lines_eq rfl rfl (hrow ▸ hin)
  | erase region => exact Option.some.inj hs ▸ .erase hin (Classical.not_not.mp hi)
  | insertLines n => exact Option.some.inj hs ▸ .insertLines hin h n
  | deleteLines n => exact Option.some.inj hs ▸ .deleteLines hin h n
  | insertChars n | deleteChars n =>
    exact Option.some.inj hs ▸ (Confines.modifyCursorLine hin _).trans
      (.of_lines_eq rfl rfl hin)
  | eraseChars n => exact Option.some.inj hs ▸ .modifyCursorLine hin _
  | scrollUp n => exact Option.some.inj hs ▸ .scrollUp hin h n
  | scrollDown n => exact Option.some.inj hs ▸ .scrollDown hin h n
  | _ => exact Option.some.inj hs ▸ .of_lines_eq rfl rfl hin

/-- **One change** keeps to the scroll region. -/
theorem confines_change? (h : s.WellFormed) (hin : s.margins.Holds s.cursor.row) {c : Change}
    (hc : c.Confined) (hs : s.change? c = some s') : s.Confines s' := by
  cases c with
  | obey i => exact confines_obey? h hin hc hs
  | setStyle style => exact Option.some.inj hs ▸ .of_lines_eq rfl rfl hin
  | putCell row col c => exact hc.elim
  | resize d => exact hc.elim

/-- A run of them does: each begins where the one before has left the cursor. -/
theorem confines_changeAll? (h : s.WellFormed) (hin : s.margins.Holds s.cursor.row)
    {cs : List Change} (hcs : ∀ c ∈ cs, c.Confined) (hs : s.changeAll? cs = some s') :
    s.Confines s' := by
  induction cs generalizing s with
  | nil => exact Option.some.inj hs ▸ .refl hin
  | cons c cs ih =>
    obtain ⟨s₁, h₁, h₂⟩ := Option.bind_eq_some_iff.mp hs
    have hfirst : s.Confines s₁ := confines_change? h hin (hcs c List.mem_cons_self) h₁
    exact hfirst.trans
      (ih (h.change? h₁) hfirst.holds (fun c hmem => hcs c (List.mem_cons_of_mem _ hmem)) h₂)

/-- **A run that starts in the scroll region and names no rows stays there.**  The region is the
same, the cursor's row is in it, and no cell outside has changed. -/
theorem run_stays_in_margins (h : s.WellFormed) (hin : s.margins.Holds s.cursor.row)
    {cs : List Change} (hcs : ∀ c ∈ cs, c.Confined) (hs : s.changeAll? cs = some s') :
    s'.margins = s.margins ∧ s.margins.Holds s'.cursor.row ∧
      ∀ row, ¬ s.margins.Holds row → ∀ col, s'.cell? row col = s.cell? row col := by
  obtain ⟨hm, hrow, hout⟩ := confines_changeAll? h hin hcs hs
  exact ⟨hm, hm ▸ hrow, fun row hrow col => by rw [cell?, cell?, hout row hrow]⟩

end Change

/-- Two rows of a scroll region between a heading and a status line, the cursor in the second. -/
def framed : Screen :=
  { blank ⟨4, 3⟩ with
    lines := ["top", "abc", "def", "end"].map fun row => row.toList.map Cell.ofChar
    cursor := ⟨2, 1⟩
    margins := ⟨1, 2⟩ }

/-- Wraps on the last row of the region, a count far beyond it, and an erase. -/
def framedRun : List Change :=
  [.obey (.print 'x'), .obey (.print 'y'), .obey (.print '世'), .obey .lineFeed,
    .obey (.cursorUp 65535), .obey .reverseIndex, .obey (.deleteLines 1), .obey (.print '界'),
    .obey (.cursorDown 65535), .setStyle .plain, .obey (.erase .wholeLine), .obey (.print 'z')]

/-- The heading and the status line are what they were, though the region has scrolled both ways. -/
theorem framed_stays_in_margins :
    ∃ s', framed.changeAll? framedRun = some s' ∧
      (s'.margins = framed.margins ∧ framed.margins.Holds s'.cursor.row ∧
        ∀ row, ¬ framed.margins.Holds row → ∀ col, s'.cell? row col = framed.cell? row col) ∧
      s'.lines.map Line.text =
        [['t', 'o', 'p'], ['界'], [' ', ' ', 'z'], ['e', 'n', 'd']] := by
  have hrun : (framed.changeAll? framedRun).map (fun s => s.lines.map Line.text) =
      some [['t', 'o', 'p'], ['界'], [' ', ' ', 'z'], ['e', 'n', 'd']] := by decide +kernel
  obtain ⟨s', hs, htext⟩ := Option.map_eq_some_iff.mp hrun
  have hwell : framed.WellFormed := by constructor <;> decide
  have hconfined : ∀ c ∈ framedRun, c.Confined := by
    simp [framedRun, Change.Confined, Instruction.NamesRows, EraseRegion.InLine]
  exact ⟨s', hs, run_stays_in_margins hwell (by decide) hconfined hs, htext⟩

end Screen

end VirtualTerminal
