import VirtualTerminal.Proofs.Raster.Line

/-!
# Raster — Grid

What a raster does to many rows at once is what a screen does to its lines: shifting rows
(`shiftRowsUp_eq`, `shiftRowsDown_eq`), erasing in reading order (`erase_eq`), and taking another
size (`resize_eq`).
-/

namespace VirtualTerminal

/-! ### Shifting rows -/

/-- Unwritten rows are unwritten cells. -/
theorem flatten_replicate_empty (n cols : Nat) :
    (List.replicate n (Line.empty cols)).flatten = List.replicate (n * cols) Cell.empty :=
  List.flatten_replicate_replicate

namespace Cells

variable (front middle back : Cells)

theorem within_whole {stop : Nat} (hs : middle.length = stop) (f : Cells → Except Fault Cells) :
    within (front ++ middle ++ back) front.length (front.length + stop) f =
      (f middle).map fun middle => front ++ middle ++ back := by
  subst hs
  refine (within_middle front middle back (Nat.zero_le _) (Nat.le_refl _) f).trans ?_
  rw [within_eq (Nat.zero_le _) (Nat.le_refl _), List.take_length, List.drop_zero,
    List.drop_length]
  cases f middle with
  | error e => rfl
  | ok middle => simp

/-- Filling within the middle part. -/
theorem fill_middle {start stop : Nat} (hle : start ≤ stop) (hlt : stop ≤ middle.length)
    (c : Cell) :
    fill (front ++ middle ++ back) (front.length + start) (front.length + stop) c =
      .ok (front ++ (middle.take start ++ List.replicate (stop - start) c ++ middle.drop stop) ++
        back) := by
  rw [fill, within_middle front middle back hle hlt, ← fill, fill_eq hle hlt, Fault.map_ok]

/-- A vector turned round is as long as before. -/
theorem length_turned {cells : Cells} {i : Nat} (h : i ≤ cells.length) :
    (cells.drop i ++ cells.take i).length = cells.length := by
  rw [List.length_append, List.length_drop, List.length_take_of_le h, Nat.sub_add_cancel h]

end Cells

namespace Screen

section Shift
variable {s : Screen} {top bottom : Nat}

/-- The cells above, within and below a range of rows. -/
theorem cells_range (hle : top ≤ bottom) :
    s.raster.cells = (s.lines.take top).flatten ++
      ((s.lines.drop top).take (bottom + 1 - top)).flatten ++
        (s.lines.drop (bottom + 1)).flatten := by
  have htop : bottom + 1 = top + (bottom + 1 - top) := by omega
  rw [← List.flatten_append, ← List.flatten_append, ← List.take_add, ← htop,
    List.take_append_drop]
  rfl

variable (h : s.WellFormed)
include h

/-- The rows of the range are as long as the others. -/
theorem length_line_range :
    ∀ l ∈ (s.lines.drop top).take (bottom + 1 - top), l.length = s.dims.cols :=
  fun l hl => h.length_line l (List.mem_of_mem_drop (List.mem_of_mem_take hl))

/-- The cells of the range go up as a block, with blanks behind them. -/
theorem raster_shiftLinesUp (n : Nat) :
    (s.shiftLinesUp top bottom n).raster = { s.raster with
      cells := (s.lines.take top).flatten ++
        (((s.lines.drop top).take (bottom + 1 - top)).flatten.drop
            (Nat.min n (bottom + 1 - top) * s.dims.cols) ++
          List.replicate (Nat.min n (bottom + 1 - top) * s.dims.cols) Cell.empty) ++
        (s.lines.drop (bottom + 1)).flatten } := by
  rw [← drop_flatten_lines (length_line_range h), ← flatten_replicate_empty,
    ← List.flatten_append, ← List.flatten_append, ← List.flatten_append]
  rfl

/-- The cells of the range go down as a block, with blanks before them. -/
theorem raster_shiftLinesDown (n : Nat) :
    (s.shiftLinesDown top bottom n).raster = { s.raster with
      cells := (s.lines.take top).flatten ++
        (List.replicate (Nat.min n (bottom + 1 - top) * s.dims.cols) Cell.empty ++
          ((s.lines.drop top).take (bottom + 1 - top)).flatten.take
            ((bottom + 1 - top - Nat.min n (bottom + 1 - top)) * s.dims.cols)) ++
        (s.lines.drop (bottom + 1)).flatten } := by
  rw [← take_flatten_lines (length_line_range h), ← flatten_replicate_empty,
    ← List.flatten_append, ← List.flatten_append, ← List.flatten_append]
  rfl

variable (hle : top ≤ bottom) (hlt : bottom < s.dims.rows)
include hle hlt

/-- The cells of the range are its rows. -/
theorem length_range :
    ((s.lines.drop top).take (bottom + 1 - top)).flatten.length =
      (bottom + 1 - top) * s.dims.cols := by
  refine length_take_flatten (fun l hl => h.length_line l (List.mem_of_mem_drop hl)) ?_
  rw [List.length_drop, h.length_lines]
  omega

/-- The row behind the first `k` rows of the range begins here. -/
theorem index_range (k : Nat) :
    s.raster.index (top + k) 0 = (s.lines.take top).flatten.length + k * s.dims.cols := by
  rw [length_take_flatten h.length_line (by rw [h.length_lines]; omega), ← Nat.add_mul]
  rfl

/-- What happens within the range changes nothing outside it. -/
theorem within_range (f : Cells → Except Fault Cells) :
    s.raster.cells.within (s.raster.index top 0) (s.raster.index bottom 0 + s.dims.cols) f =
      (f ((s.lines.drop top).take (bottom + 1 - top)).flatten).map fun part =>
        (s.lines.take top).flatten ++ part ++ (s.lines.drop (bottom + 1)).flatten := by
  have hstart := index_range h hle hlt 0
  have hstop := index_range h hle hlt (bottom + 1 - top)
  have hend : s.raster.index bottom 0 + s.dims.cols = s.raster.index (bottom + 1) 0 :=
    (Nat.succ_mul ..).symm
  rw [Nat.add_sub_cancel' (by omega)] at hstop
  rw [Nat.add_zero, Nat.zero_mul, Nat.add_zero] at hstart
  rw [hend, hstart, hstop, cells_range hle,
    Cells.within_whole _ _ _ (length_range h hle hlt)]

/-- Blanking `m` rows of the range, from its row `k` on. -/
theorem fillRows_range {part : Cells} (hp : part.length = (bottom + 1 - top) * s.dims.cols)
    {k m : Nat} (hk : k + m ≤ bottom + 1 - top) (c : Cell) :
    { s.raster with cells := (s.lines.take top).flatten ++ part ++
        (s.lines.drop (bottom + 1)).flatten }.fillRows (top + k) m c =
      .ok { s.raster with cells := (s.lines.take top).flatten ++
        (part.take (k * s.dims.cols) ++ List.replicate (m * s.dims.cols) c ++
          part.drop ((k + m) * s.dims.cols)) ++ (s.lines.drop (bottom + 1)).flatten } := by
  have hstart := index_range h hle hlt k
  have hstop : (k + m) * s.dims.cols ≤ part.length := hp ▸ Nat.mul_le_mul_right _ hk
  have hm : (k + m) * s.dims.cols - k * s.dims.cols = m * s.dims.cols := by
    rw [Nat.add_mul, Nat.add_sub_cancel_left]
  have hfill := Cells.fill_middle (s.lines.take top).flatten part
    (s.lines.drop (bottom + 1)).flatten (Nat.mul_le_mul_right _ (Nat.le_add_right k m)) hstop c
  have hend : (s.lines.take top).flatten.length + (k + m) * s.dims.cols =
      s.raster.index (top + k) 0 + m * s.dims.cols := by
    rw [hstart, Nat.add_mul, Nat.add_assoc]
  rw [hm, hend, ← hstart] at hfill
  exact (congrArg (Raster.withCells _) hfill).trans rfl

variable (hd : s.dims.rows ≤ Word.max)
include hd

/-- **Shifting rows up** rotates the cells of the range and blanks the last ones. -/
theorem shiftRowsUp_eq (n : Nat) :
    s.raster.shiftRowsUp top bottom n = .ok (s.shiftLinesUp top bottom n).raster := by
  have hword : bottom + 1 < Word.limit := by
    simp only [Word.max, Word.limit] at hd ⊢; omega
  have hheight : bottom - top + 1 = bottom + 1 - top := (Nat.sub_add_comm hle).symm
  have hmin : Nat.min n (bottom + 1 - top) ≤ bottom + 1 - top := Nat.min_le_right ..
  rw [Raster.shiftRowsUp, Word.minus_eq hle, Fault.ok_bind, Word.plus_eq (by omega),
    Fault.ok_bind, hheight, raster_shiftLinesUp h]
  generalize Nat.min n (bottom + 1 - top) = m at hmin ⊢
  have hlen := length_range h hle hlt
  by_cases hm : m = 0
  · rw [if_pos hm, hm, Nat.zero_mul, List.drop_zero, List.replicate_zero, List.append_nil,
      ← cells_range hle]
  · have hcells : m * s.dims.cols ≤ (bottom + 1 - top) * s.dims.cols :=
      Nat.mul_le_mul_right _ hmin
    have hfirst : bottom + 1 - m = top + (bottom + 1 - top - m) := by omega
    rw [if_neg hm, dims_raster, within_range h hle hlt, Cells.rotateLeft_eq (hlen ▸ hcells),
      Fault.map_ok, Raster.withCells, Fault.map_ok, Fault.ok_bind, Word.plus_eq hword,
      Fault.ok_bind, Word.minus_eq (by omega), Fault.ok_bind, hfirst]
    -- the rows pushed out at the top come back at the bottom, where they are blanked
    have hturned := Cells.length_turned (hlen ▸ hcells)
    have hkept := congrArg (· - m * s.dims.cols) hlen
    simp only [← List.length_drop, ← Nat.sub_mul] at hkept
    rw [fillRows_range h hle hlt (hturned.trans hlen) (by omega), List.take_left' hkept,
      Nat.sub_add_cancel hmin, ← hlen, ← hturned, List.drop_length, List.append_nil]

/-- **Shifting rows down** rotates them the other way and blanks the first ones. -/
theorem shiftRowsDown_eq (n : Nat) :
    s.raster.shiftRowsDown top bottom n = .ok (s.shiftLinesDown top bottom n).raster := by
  have hword : bottom + 1 < Word.limit := by
    simp only [Word.max, Word.limit] at hd ⊢; omega
  have hheight : bottom - top + 1 = bottom + 1 - top := (Nat.sub_add_comm hle).symm
  have hmin : Nat.min n (bottom + 1 - top) ≤ bottom + 1 - top := Nat.min_le_right ..
  rw [Raster.shiftRowsDown, Word.minus_eq hle, Fault.ok_bind, Word.plus_eq (by omega),
    Fault.ok_bind, hheight, raster_shiftLinesDown h]
  generalize Nat.min n (bottom + 1 - top) = m at hmin ⊢
  have hlen := length_range h hle hlt
  by_cases hm : m = 0
  · rw [if_pos hm, hm, Nat.zero_mul, Nat.sub_zero, List.replicate_zero, List.nil_append,
      ← hlen, List.take_length, ← cells_range hle]
  · have hcells : m * s.dims.cols ≤ (bottom + 1 - top) * s.dims.cols :=
      Nat.mul_le_mul_right _ hmin
    rw [if_neg hm, dims_raster, within_range h hle hlt, Cells.rotateRight_eq (hlen ▸ hcells),
      Fault.map_ok, Raster.withCells, Fault.map_ok, Fault.ok_bind, hlen, ← Nat.sub_mul]
    -- the rows pushed out at the bottom come back at the top, where they are blanked
    have hturned := Cells.length_turned (hlen ▸ Nat.mul_le_mul_right s.dims.cols (Nat.sub_le _ m))
    have hmoved : (((s.lines.drop top).take (bottom + 1 - top)).flatten.drop
        ((bottom + 1 - top - m) * s.dims.cols)).length = m * s.dims.cols := by
      rw [List.length_drop, hlen, ← Nat.sub_mul, Nat.sub_sub_self hmin]
    refine (fillRows_range (k := 0) h hle hlt (hturned.trans hlen) (by omega) _).trans ?_
    rw [Nat.zero_add, List.drop_left' hmoved, Nat.zero_mul, List.take_zero, List.nil_append]

end Shift

/-! ### Erasing in reading order -/

end Screen

/-- Reading order is the order of places in the vector. -/
theorem Position.le_iff {p q : Position} {cols : Nat} (hp : p.col < cols) (hq : q.col < cols) :
    p.le q = true ↔ p.row * cols + p.col ≤ q.row * cols + q.col := by
  simp only [Position.le, Bool.or_eq_true, Bool.and_eq_true, decide_eq_true_eq, beq_iff_eq]
  rcases Nat.lt_trichotomy p.row q.row with hlt | heq | hgt
  · have := Nat.mul_le_mul_right cols (Nat.succ_le_of_lt hlt)
    rw [Nat.succ_mul] at this
    exact iff_of_true (Or.inl hlt) (by omega)
  · rw [heq]
    omega
  · have := Nat.mul_le_mul_right cols (Nat.succ_le_of_lt hgt)
    rw [Nat.succ_mul] at this
    exact iff_of_false (by omega) (by omega)

namespace Cells

theorem getElem?_filled {cells : Cells} {start stop : Nat} (hle : start ≤ stop)
    (hlt : stop ≤ cells.length) (c : Cell) (i : Nat) :
    (cells.take start ++ List.replicate (stop - start) c ++ cells.drop stop)[i]? =
      if start ≤ i ∧ i < stop then some c else cells[i]? := by
  have hfront : (cells.take start).length = start :=
    List.length_take_of_le (Nat.le_trans hle hlt)
  grind

end Cells

namespace Screen

section Erase
variable {s : Screen} (h : s.WellFormed)
include h

/-- What filling a region does to each place of the vector. -/
theorem getElem?_fill {row col : Nat} (hc : col < s.dims.cols) (first last : Position) (c : Cell) :
    (s.fill first last c).raster.cells[row * s.dims.cols + col]? =
      (s.raster.cells[row * s.dims.cols + col]?).map fun old =>
        if first.le ⟨row, col⟩ && Position.le ⟨row, col⟩ last then c else old := by
  have hfill : ∀ l ∈ (s.fill first last c).lines, l.length = s.dims.cols :=
    (h.fill first last c).length_line
  rw [raster, raster, getElem?_flatten_lines hfill hc, getElem?_flatten_lines h.length_line hc]
  simp only [fill, List.getElem?_mapIdx, Option.bind_map, Option.map_bind, Function.comp_def]

/-- Filling the vector between two places leaves the cells of the screen that is filled between the
two positions. -/
theorem cells_fill (first last : Position) (hfirst : first.col < s.dims.cols)
    (hlast : last.col < s.dims.cols)
    (hord : s.raster.index first.row first.col ≤ s.raster.index last.row last.col)
    (hstop : s.raster.index last.row last.col + 1 ≤ s.raster.cells.length) (c : Cell) :
    s.raster.cells.take (s.raster.index first.row first.col) ++
      List.replicate (s.raster.index last.row last.col + 1 - s.raster.index first.row first.col) c ++
        s.raster.cells.drop (s.raster.index last.row last.col + 1) =
      (s.fill first last c).raster.cells := by
  refine List.ext_getElem? fun i => ?_
  -- every place belongs to a row and a column
  obtain ⟨row, col, hc, rfl⟩ : ∃ row col, col < s.dims.cols ∧ row * s.dims.cols + col = i :=
    ⟨_, _, Nat.mod_lt i h.cols_pos, Nat.div_add_mod' i _⟩
  rw [Cells.getElem?_filled (Nat.le_succ_of_le hord) hstop, getElem?_fill h hc]
  by_cases hin : s.raster.index first.row first.col ≤ row * s.dims.cols + col ∧
      row * s.dims.cols + col < s.raster.index last.row last.col + 1
  · have hget : row * s.dims.cols + col < s.raster.cells.length := Nat.lt_of_lt_of_le hin.2 hstop
    have hle₁ : first.le ⟨row, col⟩ = true := (Position.le_iff hfirst hc).mpr hin.1
    have hle₂ : Position.le ⟨row, col⟩ last = true :=
      (Position.le_iff hc hlast).mpr (Nat.le_of_lt_succ hin.2)
    rw [if_pos hin, List.getElem?_eq_getElem hget, hle₁, hle₂]
    rfl
  · have hout : (first.le ⟨row, col⟩ && Position.le ⟨row, col⟩ last) = false := by
      refine Bool.eq_false_iff.mpr fun hle => hin ?_
      obtain ⟨hle₁, hle₂⟩ := (Bool.and_eq_true _ _).mp hle
      exact ⟨(Position.le_iff hfirst hc).mp hle₁,
        Nat.lt_succ_of_le ((Position.le_iff hc hlast).mp hle₂)⟩
    rw [if_neg hin, hout]
    simp

/-- **A region is filled** row by row, each from its first column to its last. -/
theorem fill_eq (first last : Position) (hle : first.le last) (hfirst : first.col < s.dims.cols)
    (hrow : last.row < s.dims.rows) (hlast : last.col < s.dims.cols) (c : Cell) :
    s.raster.fill first last c = .ok (s.fill first last c).raster := by
  have hlen : s.raster.cells.length = s.dims.rows * s.dims.cols :=
    h.length_lines ▸ length_flatten_lines h.length_line
  have hord : s.raster.index first.row first.col ≤ s.raster.index last.row last.col :=
    (Position.le_iff hfirst hlast).mp hle
  have hstop : s.raster.index last.row last.col + 1 ≤ s.raster.cells.length := by
    have := Nat.mul_le_mul_right s.dims.cols (Nat.succ_le_of_lt hrow)
    rw [Nat.succ_mul] at this
    simp only [Raster.index, dims_raster, hlen]
    omega
  rw [Raster.fill, Cells.fill_eq (Nat.le_succ_of_le hord) hstop,
    cells_fill h first last hfirst hlast hord hstop]
  rfl

/-- An erased region begins and ends inside the vector. -/
theorem erase_eq (region : EraseRegion) :
    s.raster.erase region = .ok (s.erase region).raster := by
  obtain ⟨hrow, hcol, hlast, hedge⟩ := region.bounds_within h.row_lt h.col_lt
  have hbounds : s.raster.erase region =
      s.raster.fill (region.bounds s.dims s.cursor).1 (region.bounds s.dims s.cursor).2
        s.erased := by
    have hrows : Word.minus s.raster.dims.rows 1 = .ok (s.dims.rows - 1) :=
      Word.minus_eq h.rows_pos
    have hcols : Word.minus s.raster.dims.cols 1 = .ok (s.dims.cols - 1) :=
      Word.minus_eq h.cols_pos
    cases region <;> simp only [Raster.erase, hrows, hcols, Fault.ok_bind] <;> rfl
  rw [hbounds, fill_eq h _ _ (Position.le_of_le hrow hcol) (Nat.lt_of_le_of_lt hcol hedge) hlast
    hedge]
  rfl

end Erase

/-! ### Cells and sizes -/

section Cells
variable {s : Screen} (h : s.WellFormed)
include h

/-- A cell is put only where there is one. -/
theorem putCell_eq (row col : Nat) (c : Cell) :
    s.raster.putCell row col c = .ok ((s.putCell? row col c).getD s).raster := by
  rw [Raster.putCell, putCell?, dims_raster]
  split
  · rename_i hin
    obtain ⟨line, hget, hl⟩ := h.exists_line hin.1
    have hc : col < line.length := hl ▸ hin.2
    rw [raster_eq_focus hget, store_focus h hin.1 hc, Cells.store_eq hc, Fault.map_ok,
      Option.getD_some, List.modify_eq_set, hget]
    rfl
  · rfl

end Cells

/-- Copying a row puts it, in the new length, into the place of an unwritten one. -/
theorem copyRow_eq {s : Screen} (h : s.WellFormed) {d : Dimensions} (hd : 0 < d.cols) {row : Nat}
    {l : Line} (hget : s.lines[row]? = some l) {front : Cells}
    (hfront : front.length = row * d.cols) (back : Cells) :
    s.raster.copyRow d (Nat.min s.dims.cols d.cols) row
        (front ++ List.replicate d.cols Cell.empty ++ back) =
      .ok (front ++ Line.resize l d.cols ++ back) := by
  have hlen : l.length = s.dims.cols := h.length_line l (List.mem_of_getElem? hget)
  have hwidth : Nat.min s.dims.cols d.cols ≤ s.dims.cols := Nat.min_le_left ..
  have hwidth' : Nat.min s.dims.cols d.cols ≤ (List.replicate d.cols Cell.empty).length := by
    rw [List.length_replicate]
    exact Nat.min_le_right ..
  rw [Raster.copyRow, slice_row h hget hwidth, Fault.ok_bind, ← hfront]
  refine (Cells.within_middle front _ back (Nat.zero_le _) hwidth' _).trans ?_
  rw [Cells.within_eq (Nat.zero_le _) hwidth', Line.resize]
  by_cases hcut : d.cols < l.length
  · -- the new edge may fall between the two halves of a wide glyph
    have hmin : Nat.min s.dims.cols d.cols = d.cols := Nat.min_eq_right (by omega)
    have hold : (l.take d.cols).length = d.cols := List.length_take_of_le (by omega)
    obtain ⟨last, hlast⟩ : ∃ last, (l.take d.cols)[d.cols - 1]? = some last :=
      ⟨_, List.getElem?_eq_getElem (by omega)⟩
    rw [hmin, if_pos hcut, Line.closeEdge_eq (by rw [hold]; exact hlast), hold]
    simp only [List.take_replicate, List.drop_zero, List.length_replicate, Nat.min_self, if_true,
      Word.minus_eq hd, Fault.ok_bind, Cells.fetch_eq hlast, dims_raster, ← hlen,
      decide_eq_true hcut, Bool.true_and]
    by_cases hl : Line.leads last = true
    · rw [if_pos hl, if_pos hl, Cells.store_eq (by omega), Fault.map_ok, Fault.map_ok]
      simp
    · rw [if_neg hl, if_neg hl, Fault.map_ok, Fault.map_ok]
      simp
  · -- the row is copied whole, and stands as it was
    have hmin : Nat.min s.dims.cols d.cols = l.length := by
      rw [hlen]; exact Nat.min_eq_left (by omega)
    have hpos : 0 < l.length := hlen ▸ h.cols_pos
    obtain ⟨last, hlast⟩ : ∃ last, l[l.length - 1]? = some last :=
      ⟨_, List.getElem?_eq_getElem (by omega)⟩
    rw [hmin, if_neg hcut, List.take_length]
    simp only [List.take_replicate, List.drop_zero, List.length_replicate,
      Nat.min_eq_left (Nat.le_of_not_lt hcut), if_true, Word.minus_eq hpos, Fault.ok_bind,
      Cells.fetch_eq hlast, dims_raster, ← hlen, Nat.lt_irrefl, decide_false, Bool.false_and,
      Bool.false_eq_true, if_false, Fault.map_ok]
    simp

/-- After copying `n` rows, from `row` on, their lines have taken the places of unwritten ones. -/
theorem copyRows_eq {s : Screen} (h : s.WellFormed) {d : Dimensions} (hd : 0 < d.cols)
    (n row : Nat) (hn : row + n ≤ s.lines.length) (front : Cells)
    (hfront : front.length = row * d.cols) (back : Cells) :
    s.raster.copyRows d (Nat.min s.dims.cols d.cols) row
        (front ++ List.replicate (n * d.cols) Cell.empty ++ back) n =
      .ok (front ++ (((s.lines.drop row).take n).map fun line => Line.resize line d.cols).flatten ++
        back) := by
  induction n generalizing row front with
  | zero => simp [Raster.copyRows]
  | succ n ih =>
    obtain ⟨line, hget⟩ : ∃ line, s.lines[row]? = some line :=
      ⟨_, List.getElem?_eq_getElem (by omega)⟩
    -- the first row goes into the first of the unwritten ones, the others below it
    have hblank : List.replicate ((n + 1) * d.cols) Cell.empty ++ back =
        List.replicate d.cols Cell.empty ++
          (List.replicate (n * d.cols) Cell.empty ++ back) := by
      rw [← List.append_assoc, List.replicate_append_replicate, Nat.succ_mul, Nat.add_comm]
    have hcopy := copyRow_eq h hd hget hfront
      (List.replicate (n * d.cols) Cell.empty ++ back)
    have hrest := ih (row + 1) (by omega) (front ++ Line.resize line d.cols) (by
      rw [List.length_append, hfront, Line.length_resize, Nat.succ_mul])
    rw [Raster.copyRows, List.append_assoc, hblank, ← List.append_assoc, hcopy, Fault.ok_bind,
      ← List.append_assoc, hrest]
    obtain ⟨hlt, rfl⟩ := List.getElem?_eq_some_iff.mp hget
    rw [List.drop_eq_getElem_cons hlt, List.take_succ_cons, List.map_cons, List.flatten_cons,
      List.append_assoc front]

/-- The cells of the grid in another size: the shared rows, and unwritten ones below them. -/
theorem flatten_resizeGrid {s : Screen} (h : s.WellFormed) (d : Dimensions) :
    (s.resizeGrid d).flatten =
      ((s.lines.take (Nat.min s.dims.rows d.rows)).map
        fun line => Line.resize line d.cols).flatten ++
      List.replicate ((d.rows - Nat.min s.dims.rows d.rows) * d.cols) Cell.empty := by
  have hlen := h.length_lines
  have hbelow : d.rows - s.lines.length = d.rows - Nat.min s.dims.rows d.rows := by
    have : Nat.min s.dims.rows d.rows = min s.dims.rows d.rows := rfl
    omega
  have hshared : s.lines.take d.rows = s.lines.take (Nat.min s.dims.rows d.rows) := by
    rw [List.take_eq_take_iff, hlen]
    change min d.rows s.dims.rows = min (min s.dims.rows d.rows) s.dims.rows
    omega
  rw [resizeGrid, List.flatten_append, flatten_replicate_empty, hbelow, hshared]

/-- **A raster is resized** by copying what the two sizes have in common. -/
theorem resize_eq {s : Screen} (h : s.WellFormed) (d : Dimensions) :
    s.raster.resize d = .ok ((s.resize? d).getD s).raster := by
  rw [Raster.resize, resize?, dims_raster]
  by_cases hempty : d.isEmpty = true
  · rw [if_pos hempty, if_pos hempty]
    rfl
  · by_cases hsame : d = s.dims
    · rw [if_neg hempty, if_neg hempty, if_pos hsame, if_pos hsame]
      rfl
    · obtain ⟨hrows, hcols⟩ := Dimensions.isEmpty_eq_false_iff.mp (Bool.not_eq_true _ ▸ hempty)
      have hle : Nat.min s.dims.rows d.rows ≤ d.rows := Nat.min_le_right ..
      have hcount : d.cellCount = Nat.min s.dims.rows d.rows * d.cols +
          (d.rows - Nat.min s.dims.rows d.rows) * d.cols := by
        rw [← Nat.add_mul, Nat.add_sub_cancel' hle]
        rfl
      have hcopy := copyRows_eq h hcols (Nat.min s.dims.rows d.rows) 0
        (by rw [h.length_lines, Nat.zero_add]; exact Nat.min_le_left ..) [] (by simp)
        (List.replicate ((d.rows - Nat.min s.dims.rows d.rows) * d.cols) Cell.empty)
      rw [List.drop_zero, List.nil_append, List.nil_append, List.replicate_append_replicate,
        ← hcount, ← flatten_resizeGrid h] at hcopy
      rw [if_neg hempty, if_neg hempty, if_neg hsame, if_neg hsame, Option.getD_some, hcopy,
        Fault.ok_bind, Word.minus_eq hrows, Fault.ok_bind]
      rfl

/-- A blank raster has a cell for each place of its size. -/
theorem blank_eq (d : Dimensions) : Raster.blank d = .ok (blank d).raster := by
  have hpos : 1 ≤ d.raised.rows := d.rows_raised_pos
  simp only [Raster.blank, Word.minus_eq hpos, Fault.ok_bind, blank, raster,
    flatten_replicate_empty, Dimensions.cellCount]

end Screen

end VirtualTerminal
