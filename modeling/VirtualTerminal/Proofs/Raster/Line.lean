import VirtualTerminal.Proofs.Cells
import VirtualTerminal.Proofs.Raster.Rows

/-!
# Raster — Line

What a raster does within one row is what a screen does to the line: releasing a wide glyph
(`release_focus`), putting a glyph (`put_focus`), mending (`Cells.mendFrom_eq`), and shifting or
blanking the cells from the cursor on (`editTail_eq`, with one lemma for each edit).
-/

namespace VirtualTerminal

/-! ### Mending -/

namespace Cells

/-- Mending one cell, after the cells in `done` are mended. -/
theorem mendAt_append (done : Cells) (c : Cell) (rest : Cells) :
    ∃ mended, mendAt (done ++ c :: rest) done.length = .ok (done ++ mended :: rest) ∧
      Line.mendAfter done.getLast? (c :: rest) = mended :: Line.mendAfter (some mended) rest := by
  have hc : (done ++ c :: rest)[done.length]? = some c := by simp
  have hlt : done.length < (done ++ c :: rest).length := by simp
  have hnext : (done ++ c :: rest)[done.length + 1]? = rest.head? := by
    rw [List.getElem?_append_right (by omega), List.head?_eq_getElem?]
    simp
  have hset : ∀ c', (done ++ c :: rest).set done.length c' = done ++ c' :: rest := by simp
  have hled : (if 0 < done.length then
      (fetch (done ++ c :: rest) (done.length - 1)).map Line.leads else .ok false) =
      .ok (done.getLast?.any Line.leads) := by
    rcases List.eq_nil_or_concat done with rfl | ⟨d, p, rfl⟩
    · rfl
    · have hp : (d ++ [p] ++ c :: rest)[(d ++ [p]).length - 1]? = some p := by simp
      rw [List.concat_eq_append, if_pos (by simp), fetch_eq hp, Fault.map_ok,
        List.getLast?_concat]
      rfl
  simp only [mendAt, fetch_eq hc, Fault.ok_bind, hled, hnext, store_eq hlt, hset, Line.mendAfter]
  cases hs : c.spacer with
  | true =>
    simp only [if_true]
    split
    · exact ⟨c, rfl, rfl⟩
    · exact ⟨_, rfl, rfl⟩
  | false =>
    simp only [Bool.false_eq_true, if_false, Line.leads, hs, Bool.not_false, Bool.true_and]
    split
    · exact ⟨_, rfl, rfl⟩
    · exact ⟨c, rfl, rfl⟩

/-- Mending from some column on, by induction on the cells that are left. -/
theorem mendFrom_append (done rest : Cells) :
    mendFrom (done ++ rest) done.length rest.length =
      .ok (done ++ Line.mendAfter done.getLast? rest) := by
  induction rest generalizing done with
  | nil => rfl
  | cons c rest ih =>
    obtain ⟨mended, hat, hafter⟩ := mendAt_append done c rest
    have := ih (done ++ [mended])
    rw [List.append_assoc, List.length_append, List.getLast?_concat] at this
    rw [List.length_cons, mendFrom, hat, Fault.ok_bind, hafter]
    simpa using this

/-- Mending all cells in turn mends the line. -/
theorem mendFrom_eq (line : Line) : mendFrom line 0 line.length = .ok (Line.mend line) :=
  mendFrom_append [] line

end Cells

/-! ### Releasing and putting -/

namespace Line

variable {l : Line} {col : Nat} {c : Cell}

theorem modify_eq_self {f : Cell → Cell} (h : l[col]? = some c) (hf : f c = c) :
    l.modify col f = l := by
  obtain ⟨hlt, rfl⟩ := List.getElem?_eq_some_iff.mp h
  rw [List.modify_eq_set, h, Option.getD_some, hf, List.set_getElem_self]

/-- Only a glyph that would lead over the edge is dropped from the last column. -/
theorem closeEdge_eq {last : Cell} (h : l[l.length - 1]? = some last) :
    closeEdge l = if leads last then l.set (l.length - 1) last.withoutGlyph else l := by
  rw [closeEdge, List.modify_eq_set, h, Option.getD_some]
  by_cases hl : leads last = true
  · rw [if_pos hl, if_pos hl]
  · obtain ⟨hlt, rfl⟩ := List.getElem?_eq_some_iff.mp h
    rw [if_neg hl, if_neg hl, List.set_getElem_self]

end Line

namespace Screen

section Focus
variable {s : Screen} {row col : Nat} {l : Line} (h : s.WellFormed) (hr : row < s.dims.rows)
  (hd : s.dims.cols ≤ Word.max) (hl : l.length = s.dims.cols)
include h hr hd hl

/-- **Releasing a wide glyph** in the vector, also at either end of its row. -/
theorem release_focus (hc : col < s.dims.cols) :
    (s.focus row l).release row col = .ok (s.focus row (Line.release l col)) := by
  have hlt : col < l.length := hl ▸ hc
  have hget : l[col]? = some l[col] := List.getElem?_eq_getElem hlt
  have hspace : Line.spacerAt l col = l[col].spacer := Line.spacerAt_eq hget
  rw [Raster.release, fetch_focus h hr hlt, Cells.fetch_eq hget, Fault.ok_bind]
  cases hs : l[col].spacer with
  | true =>
    -- a spacer in the first column has nothing before it to blank
    simp only [if_true, Line.release, hspace, hs]
    by_cases h0 : 0 < col
    · rw [if_pos h0, if_pos h0, Word.minus_eq h0, Fault.ok_bind,
        update_focus h hr (by omega), Cells.update_eq (by omega), Fault.map_ok, Fault.ok_bind]
      refine (update_focus h hr (by simpa using hlt) _).trans ?_
      rw [Cells.update_eq (by simpa using hlt), Fault.map_ok]
    · rw [if_neg h0, if_neg h0, Fault.ok_bind, update_focus h hr hlt, Cells.update_eq hlt,
        Fault.map_ok]
  | false =>
    -- the last write changes nothing: the cell was no spacer before
    have hkeep : ∀ l' : Line, l'[col]? = l[col]? →
        (s.focus row l').withCells ((s.focus row l').cells.update
          ((s.focus row l').index row col) Cell.unspaced) = .ok (s.focus row l') := by
      intro l' heq
      have hget' : l'[col]? = some l[col] := heq.trans hget
      have hlt' : col < l'.length := (List.getElem?_eq_some_iff.mp hget').1
      rw [update_focus h hr hlt', Cells.update_eq hlt', Fault.map_ok,
        Line.modify_eq_self hget' (by rw [Cell.unspaced, ← hs])]
    have hword : col + 1 < Word.limit := by
      simp only [Word.max, Word.limit] at hd ⊢; omega
    simp only [Bool.false_eq_true, if_false, Line.release, hspace, hs, Word.plus_eq hword,
      Fault.ok_bind]
    by_cases hn : col + 1 < (s.focus row l).dims.cols
    · have hlt' : col + 1 < l.length := Nat.lt_of_lt_of_eq hn hl.symm
      have hget' : l[col + 1]? = some l[col + 1] := List.getElem?_eq_getElem hlt'
      have hfetch : (s.focus row l).cells.fetch ((s.focus row l).index row col + 1) =
          .ok l[col + 1] := by
        rw [← Cells.fetch_eq hget']
        exact fetch_focus h hr hlt'
      rw [if_pos hn, hfetch, Fault.ok_bind, Line.spacerAt_eq hget']
      cases l[col + 1].spacer with
      | true =>
        have hupdate := update_focus h hr hlt' fun c => c.withoutGlyph.unspaced
        rw [Cells.update_eq hlt', Fault.map_ok] at hupdate
        simp only [if_true]
        refine (congrArg (· >>= _) hupdate).trans ?_
        exact hkeep _ (List.getElem?_modify_ne _ _ (Nat.succ_ne_self col))
      | false =>
        simp only [Bool.false_eq_true, if_false, Fault.ok_bind]
        exact hkeep l rfl
    · have hnone : Line.spacerAt l (col + 1) = false := by
        rw [Line.spacerAt, List.getElem?_eq_none (hl ▸ Nat.le_of_not_lt hn)]
        rfl
      rw [if_neg hn, hnone, Fault.ok_bind]
      simp only [Bool.false_eq_true, if_false]
      exact hkeep l rfl

/-- **Putting a glyph** into the vector at the cursor. -/
theorem put_focus {width : Nat} (hrow : s.cursor.row = row) (hw : width = 2 →
    s.cursor.col + 1 < s.dims.cols) (hc : s.cursor.col < s.dims.cols) (glyph : Cell) :
    (s.focus row l).put width glyph =
      .ok (s.focus row (Line.put l s.cursor.col width glyph)) := by
  have hlen : (Line.release l s.cursor.col).length = s.dims.cols := by simp [hl]
  simp only [Raster.put, cursor_focus, hrow]
  rw [release_focus h hr hd hl hc, Fault.ok_bind, Line.put]
  by_cases h2 : width = 2
  · have hn := hw h2
    have hword : s.cursor.col + 1 < Word.limit := by
      simp only [Word.max, Word.limit] at hd ⊢; omega
    simp only [h2, if_true]
    rw [Word.plus_eq hword, Fault.ok_bind, release_focus h hr hd hlen hn, Fault.ok_bind,
      store_focus h hr (by simpa [hl] using hn), Cells.store_eq (by simpa [hl] using hn),
      Fault.map_ok, Fault.ok_bind]
    refine (store_focus h hr (by simpa [hl] using hc) glyph).trans ?_
    rw [Cells.store_eq (by simpa [hl] using hc), Fault.map_ok]
  · simp only [h2, if_false, Fault.ok_bind]
    refine (store_focus h hr (by simpa [hl] using hc) glyph).trans ?_
    rw [Cells.store_eq (by simpa [hl] using hc), Fault.map_ok]

end Focus

/-! ### Editing from the cursor on -/

section Edit
variable {s : Screen}

/-- An edit reaches `n` of the cells from the cursor on, or all of them. -/
theorem min_length_tail {line : Line} (hl : line.length = s.dims.cols) (n : Nat) :
    Nat.min n (line.drop s.cursor.col).length = s.reach n := by
  rw [List.length_drop, hl]
  rfl

theorem reach_le_length_tail {line : Line} (hl : line.length = s.dims.cols) (n : Nat) :
    s.reach n ≤ (line.drop s.cursor.col).length :=
  min_length_tail hl n ▸ Nat.min_le_right ..

variable (h : s.WellFormed)
include h

/-- **An edit from the cursor on**, given by what it does to a line, is mended in the vector. -/
theorem editTail_eq {f : Cells → Except Fault Cells} {g : Line → Line}
    (hg : ∀ line : Line, line.length = s.dims.cols → (g line).length = s.dims.cols ∧
      ∃ tail, f (line.drop s.cursor.col) = .ok tail ∧ g line = line.take s.cursor.col ++ tail) :
    s.raster.editTail f = .ok (s.modifyCursorLine fun line => Line.mend (g line)).raster := by
  have hr := h.row_lt
  obtain ⟨line, hget, hl⟩ := h.exists_line hr
  obtain ⟨hlen, tail, hf, hsplit⟩ := hg line hl
  have hcol : s.cursor.col ≤ line.length := hl ▸ Nat.le_of_lt h.col_lt
  have hedit := within_focus h hr hcol (Nat.le_refl _) f
  rw [Cells.within_eq hcol (Nat.le_refl _), List.take_length, hf, Fault.map_ok, Fault.map_ok,
    List.drop_length, List.append_nil, ← hsplit, hl] at hedit
  have hmend := within_focus h hr (Nat.zero_le (g line).length) (Nat.le_refl _)
    fun line => line.mendFrom 0 s.dims.cols
  rw [Cells.within_eq (Nat.zero_le _) (Nat.le_refl _), List.take_length, List.drop_zero, ← hlen,
    Cells.mendFrom_eq, Fault.map_ok, Fault.map_ok, List.drop_length, List.append_nil,
    List.take_zero, List.nil_append, hlen] at hmend
  rw [raster_modifyCursorLine _ hget, raster_eq_focus hget, Raster.editTail]
  exact (congrArg (· >>= _) hedit).trans hmend

/-- Inserting rotates the cells from the cursor on to the right. -/
theorem insertChars_eq (n : Nat) : s.raster.insertChars n = .ok (s.insertChars n).raster := by
  rw [Raster.insertChars, editTail_eq h
    (g := fun line => Line.insertBlanks line s.cursor.col (s.reach n) s.erased), Fault.ok_bind]
  · rfl
  · intro line hl
    have hreach := reach_le_length_tail hl n
    refine ⟨(Line.length_insertBlanks (hl ▸ h.col_add_reach_le n) _).trans hl, _, ?_, rfl⟩
    have hkept : ((line.drop s.cursor.col).drop
        ((line.drop s.cursor.col).length - s.reach n)).length = s.reach n := by
      rw [List.length_drop]
      omega
    simp only [min_length_tail hl, Cells.rotateRight_eq hreach, Fault.ok_bind]
    rw [Cells.fill_eq (Nat.zero_le _) (by simp only [List.length_append, hkept]; omega),
      List.take_zero, List.nil_append, Nat.sub_zero, List.drop_left' hkept, List.length_drop]
    rfl

/-- Deleting rotates the cells from the cursor on to the left. -/
theorem deleteChars_eq (n : Nat) : s.raster.deleteChars n = .ok (s.deleteChars n).raster := by
  rw [Raster.deleteChars, editTail_eq h
    (g := fun line => Line.deleteCells line s.cursor.col (s.reach n) s.erased), Fault.ok_bind]
  · rfl
  · intro line hl
    have hreach := reach_le_length_tail hl n
    refine ⟨(Line.length_deleteCells (hl ▸ h.col_add_reach_le n) _).trans hl, _, ?_, rfl⟩
    simp only [min_length_tail hl, Cells.rotateLeft_eq hreach, Fault.ok_bind]
    have hlen : ((line.drop s.cursor.col).drop (s.reach n) ++
        (line.drop s.cursor.col).take (s.reach n)).length = (line.drop s.cursor.col).length := by
      rw [List.length_append, List.length_drop, List.length_take_of_le hreach]
      omega
    have hkept : ((line.drop s.cursor.col).drop (s.reach n)).length =
        ((line.drop s.cursor.col).drop (s.reach n) ++
          (line.drop s.cursor.col).take (s.reach n)).length - s.reach n := by
      rw [hlen, List.length_drop]
    rw [Cells.fill_eq (Nat.sub_le ..) (Nat.le_refl _), List.take_left' hkept, List.drop_length,
      List.append_nil, Nat.sub_sub_self (hlen ▸ hreach), List.drop_drop]
    rfl

/-- Blanking fills the cells from the cursor on in their places. -/
theorem eraseChars_eq (n : Nat) : s.raster.eraseChars n = .ok (s.eraseChars n).raster := by
  rw [Raster.eraseChars, editTail_eq h
    (g := fun line => Line.blankCells line s.cursor.col (s.reach n) s.erased)]
  · rfl
  · intro line hl
    refine ⟨(Line.length_blankCells (hl ▸ h.col_add_reach_le n) _).trans hl, _, ?_, rfl⟩
    rw [min_length_tail hl, Cells.fill_eq (Nat.zero_le _) (reach_le_length_tail hl n),
      List.take_zero, List.nil_append, Nat.sub_zero, List.drop_drop]
    rfl

end Edit

end Screen

end VirtualTerminal
