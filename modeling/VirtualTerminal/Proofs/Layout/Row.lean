import Mathlib.Data.List.DropRight
import VirtualTerminal.Proofs.Pairing.Line

/-!
# Layout — Row

How characters of one and two columns stand in a row: side by side from the left, each wide one with
its spacer, and unwritten cells behind them (`Layout.row`).

* `put_row`: putting a character behind them makes the row of one character more.
* `text_row`: the text of the row is these characters, without the spaces at the end.
-/

namespace VirtualTerminal.Layout

/-- The columns of a character. -/
def width (c : Char) : Nat := (Width.columns? c).getD 0

/-- The columns of characters side by side. -/
def columns : List Char → Nat
  | [] => 0
  | c :: cs => width c + columns cs

/-- The character takes one column or two. -/
def Shown (c : Char) : Prop := Width.columns? c = some 1 ∨ Width.columns? c = some 2

/-- The cells of a character. -/
def glyph (c : Char) : List Cell :=
  if width c = 2 then [Cell.ofChar c, { spacer := true }] else [Cell.ofChar c]

/-- The cells of characters side by side. -/
def cells (cs : List Char) : List Cell := cs.flatMap glyph

/-- The row of these characters. -/
def row (cols : Nat) (cs : List Char) : Line :=
  cells cs ++ List.replicate (cols - columns cs) Cell.empty

/-- One more character takes its columns behind the others. -/
theorem columns_concat (cs : List Char) (c : Char) : columns (cs ++ [c]) = columns cs + width c := by
  induction cs with
  | nil => exact Nat.add_comm _ _
  | cons d cs ih => rw [List.cons_append, columns, ih, columns, Nat.add_assoc]

theorem cells_concat (cs : List Char) (c : Char) : cells (cs ++ [c]) = cells cs ++ glyph c := by
  simp [cells]

/-- Without characters the row is unwritten. -/
theorem row_nil (cols : Nat) : row cols [] = Line.empty cols := rfl

namespace Shown

variable {c : Char}

theorem width_eq (hc : Shown c) : width c = 1 ∨ width c = 2 := by
  rw [width]
  rcases hc with hc | hc
  · exact .inl (by rw [hc]; rfl)
  · exact .inr (by rw [hc]; rfl)

theorem columns?_eq (hc : Shown c) : Width.columns? c = some (width c) := by
  rw [width]
  rcases hc with hc | hc <;> rw [hc, Option.getD_some]

/-- A character has a cell for each of its columns. -/
theorem length_glyph (hc : Shown c) : (glyph c).length = width c := by
  rw [glyph]
  rcases hc.width_eq with hw | hw <;> rw [hw] <;> rfl

/-- It is no control character. -/
theorem isControl_eq (hc : Shown c) : Width.isControl c = false :=
  Width.isControl_eq_false hc.columns?_eq

theorem le_toNat (hc : Shown c) : 0x20 ≤ c.toNat := by
  have h := hc.isControl_eq
  simp only [Width.isControl, Bool.or_eq_false_iff, decide_eq_false_iff_not] at h
  exact Nat.not_lt.mp h.1

end Shown

/-- Characters side by side fill as many cells as they have columns. -/
theorem length_cells {cs : List Char} (h : ∀ c ∈ cs, Shown c) : (cells cs).length = columns cs := by
  induction cs with
  | nil => rfl
  | cons c cs ih =>
    have hc := (h c List.mem_cons_self).length_glyph
    have hcs := ih fun c hc => h c (List.mem_cons_of_mem _ hc)
    rw [cells, List.flatMap_cons, List.length_append, ← cells, hc, hcs, columns]

/-! ### Putting a character -/

section Put
variable {cols : Nat} {cs : List Char} (h : ∀ c ∈ cs, Shown c)
include h

/-- No spacer stands behind the characters. -/
theorem spacerAt_row {col : Nat} (hcol : columns cs ≤ col) :
    Line.spacerAt (row cols cs) col = false := by
  rw [Line.spacerAt, row, List.getElem?_append_right (by rwa [length_cells h]),
    List.getElem?_replicate]
  split <;> rfl

/-- Behind the characters there is no glyph to release. -/
theorem release_row {col : Nat} (hcol : columns cs ≤ col) :
    Line.release (row cols cs) col = row cols cs := by
  rw [Line.release, spacerAt_row h hcol, spacerAt_row h (Nat.le_succ_of_le hcol)]
  rfl

/-- **A character behind the others.** -/
theorem put_row {c : Char} (hc : Shown c) (hfit : columns cs + width c ≤ cols) :
    Line.put (row cols cs) (columns cs) (width c) (Cell.ofChar c) = row cols (cs ++ [c]) := by
  have hlen := length_cells h
  have hfree : cols - columns cs = (cols - columns (cs ++ [c])) + width c := by
    rw [columns_concat]
    omega
  rw [Line.put, release_row h (Nat.le_refl _), release_row h (Nat.le_succ _), row, hfree, ← hlen,
    row, cells_concat, glyph]
  rcases hc.width_eq with hw | hw
  · rw [hw, if_neg (by decide), if_neg (by decide), List.set_append_right _ _ (Nat.le_refl _),
      Nat.sub_self, List.replicate_succ, List.append_assoc]
    rfl
  · rw [hw, if_pos rfl, if_pos rfl, List.set_append_right _ _ (Nat.le_succ _),
      List.set_append_right _ _ (Nat.le_refl _), Nat.sub_self, Nat.succ_sub (Nat.le_refl _),
      Nat.sub_self, List.replicate_succ, List.replicate_succ, List.append_assoc]
    rfl

end Put

/-! ### The text of a row -/

/-- The text without the spaces at its end. -/
def trimmed (cs : List Char) : List Char := cs.rdropWhile (· == ' ')

/-- Unwritten cells at the end do not show. -/
theorem trimmed_append_replicate (cs : List Cell) (n : Nat) :
    Line.trimmed (cs ++ List.replicate n Cell.empty) = Line.trimmed cs := by
  rw [Line.trimmed, List.reverse_append, List.reverse_replicate,
    List.dropWhile_append_of_pos fun c hc => List.eq_of_mem_replicate hc ▸ rfl, ← Line.trimmed]

/-- Without their spacers the cells of characters hold just these. -/
theorem characters_cells (cs : List Char) :
    ((cells cs).filter fun c => !c.spacer).map Cell.character = cs := by
  induction cs with
  | nil => rfl
  | cons c cs ih =>
    have hglyph : ((glyph c).filter fun c => !c.spacer).map Cell.character = [c] := by
      rw [glyph]
      split <;> rfl
    rw [cells, List.flatMap_cons, List.filter_append, List.map_append, hglyph, ← cells, ih]
    rfl

/-- Trimming the cells trims the characters. -/
theorem trimmed_cells {cs : List Char} (h : ∀ c ∈ cs, Shown c) :
    Line.trimmed (cells cs) = cells (trimmed cs) := by
  induction cs using List.reverseRecOn with
  | nil => rfl
  | append_singleton cs c ih =>
    have ih := ih fun c hc => h c (List.mem_append_left _ hc)
    rw [cells_concat, trimmed]
    by_cases hspace : c = ' '
    · subst hspace
      have hglyph : glyph ' ' = List.replicate 1 Cell.empty := by decide
      rw [List.rdropWhile_concat_pos _ _ _ (by decide), hglyph, trimmed_append_replicate, ih, trimmed]
    · have hlast : ∃ front last, glyph c = front ++ [last] ∧ last.isBlank = false := by
        rw [glyph]
        split
        · exact ⟨[Cell.ofChar c], _, rfl, rfl⟩
        · refine ⟨[], _, rfl, ?_⟩
          simp [Cell.isBlank, Cell.ofChar, hspace]
      obtain ⟨front, last, hglyph, hblank⟩ := hlast
      rw [List.rdropWhile_concat_neg _ _ _ (by simpa using hspace), cells_concat, hglyph,
        ← List.append_assoc]
      exact List.rdropWhile_concat_neg _ _ _ (Bool.eq_false_iff.mp hblank)

/-- **The text of a row** is its characters without the spaces at the end. -/
theorem text_row {cs : List Char} (h : ∀ c ∈ cs, Shown c) (cols : Nat) :
    Line.text (row cols cs) = trimmed cs := by
  rw [Line.text, Line.shown, row, trimmed_append_replicate, trimmed_cells h, characters_cells]

end VirtualTerminal.Layout
