import VirtualTerminal.Proofs.Raster.Grid
import VirtualTerminal.Proofs.Size

/-!
# Raster — Refinement

A raster does what its screen does.  On a well-formed screen whose size fits in sixteen bits,
obeying an instruction and then storing the lines in one vector is storing them first and obeying in
the vector (`obey_eq`), and so it is for every run of changes (`changeAll_eq`).  Where the screen
has no result, the raster reports an overflow; so no change of a screen ever asks for a place
outside the vector.
-/

namespace VirtualTerminal

namespace Word

/-- Up to the largest sixteen-bit number there is no overflow. -/
theorem lt_limit {a : Nat} (h : a ≤ max) : a < limit := Nat.lt_succ_of_le h

/-- A number below a sixteen-bit one can be saturated at will. -/
theorem min_saturatingPlus {a b last : Nat} (h : last ≤ max) :
    Nat.min (saturatingPlus a b) last = min (a + b) last := by
  change min (min (a + b) max) last = _
  omega

/-- A checked sum faults where the screen's sum has no value. -/
theorem plus_eq_elim (a b : Nat) : plus a b = (add? a b).elim (.error .overflow) .ok := by
  unfold plus add?
  split <;> rfl

/-- A checked product faults where the screen's product has no value. -/
theorem times_eq_elim (a b : Nat) : times a b = (mul? a b).elim (.error .overflow) .ok := by
  unfold times mul?
  split <;> rfl

end Word

/-- The raster of a screen; where there is no screen, an overflow. -/
def Raster.ofScreen? : Option Screen → Except Fault Raster
  | some s => .ok s.raster
  | none => .error .overflow

/-! ### Renditions -/

namespace Rendition

variable (s : Style) {code : Nat} (kind : Option Nat)

/-- The codes from 30 on, but for those that bring a default colour back. -/
theorem applyCode_of_le (h : 30 ≤ code) (h₃₉ : code ≠ 39) (h₄₉ : code ≠ 49) :
    applyCode s code kind =
      if 30 ≤ code ∧ code ≤ 37 then { s with foreground := .palette (UInt8.ofNat (code - 30)) }
      else if 40 ≤ code ∧ code ≤ 47 then
        { s with background := .palette (UInt8.ofNat (code - 40)) }
      else if 90 ≤ code ∧ code ≤ 97 then
        { s with foreground := .palette (UInt8.ofNat (code - 82)) }
      else if 100 ≤ code ∧ code ≤ 107 then
        { s with background := .palette (UInt8.ofNat (code - 92)) }
      else s := by
  unfold applyCode
  split <;> first | rfl | omega

/-- One code restyles without a fault, as no subtraction goes below zero. -/
theorem restyle_eq : restyle s code kind = .ok (applyCode s code kind) := by
  unfold restyle
  by_cases h₃ : 30 ≤ code ∧ code ≤ 37
  · rw [if_pos h₃, Word.minus_eq h₃.1, applyCode_of_le s kind h₃.1 (by omega) (by omega),
      if_pos h₃]
    rfl
  · rw [if_neg h₃]
    by_cases h₄ : 40 ≤ code ∧ code ≤ 47
    · rw [if_pos h₄, Word.minus_eq h₄.1,
        applyCode_of_le s kind (by omega) (by omega) (by omega), if_neg h₃, if_pos h₄]
      rfl
    · rw [if_neg h₄]
      by_cases h₉ : 90 ≤ code ∧ code ≤ 97
      · have hword : code - 90 + 8 < Word.limit := by simp only [Word.limit]; omega
        have hentry : code - 90 + 8 = code - 82 := by omega
        rw [if_pos h₉, Word.minus_eq h₉.1, Fault.ok_bind, Word.plus_eq hword, hentry,
          applyCode_of_le s kind (by omega) (by omega) (by omega), if_neg h₃, if_neg h₄,
          if_pos h₉]
        rfl
      · rw [if_neg h₉]
        by_cases h₁₀ : 100 ≤ code ∧ code ≤ 107
        · have hword : code - 100 + 8 < Word.limit := by simp only [Word.limit]; omega
          have hentry : code - 100 + 8 = code - 92 := by omega
          rw [if_pos h₁₀, Word.minus_eq h₁₀.1, Fault.ok_bind, Word.plus_eq hword, hentry,
            applyCode_of_le s kind (by omega) (by omega) (by omega), if_neg h₃, if_neg h₄,
            if_neg h₉, if_pos h₁₀]
          rfl
        · rw [if_neg h₁₀]

/-- So do the codes one after another. -/
theorem restyleGroups_eq (s : Style) (groups : List (List Nat)) :
    restyleGroups s groups = .ok (applyGroups s groups) := by
  fun_induction restyleGroups s groups with
  | case1 => rw [applyGroups]
  | case2 s rest ih => rw [ih, applyGroups]
  | case3 s code members rest hcode hempty ih => rw [ih, applyGroups, if_pos hcode, if_pos hempty]
  | case4 s code members rest hcode hempty ih => rw [ih, applyGroups, if_pos hcode, if_neg hempty]
  | case5 s code members rest hcode ih =>
    rw [restyle_eq, Fault.ok_bind, ih, applyGroups, if_neg hcode]

/-- **A rendition** is applied without a fault, whatever its codes. -/
theorem restyleAll_eq (s : Style) (groups : List (List Nat)) :
    restyleAll s groups = .ok (apply s groups) := by
  unfold restyleAll apply
  split
  · rfl
  · exact restyleGroups_eq s groups

end Rendition

namespace Screen

/-! ### Motion -/

/-- A tab overflows in the raster where the screen has no result. -/
theorem tab_eq {s : Screen} (h : s.WellFormed) : s.raster.tab = Raster.ofScreen? s.tab? := by
  rw [Raster.tab, tab?, cursor_raster, dims_raster, Word.plus_eq_elim, Word.minus_eq h.cols_pos]
  cases Word.add? (s.cursor.col / tabWidth) 1 with
  | none => rfl
  | some next =>
    rw [Option.elim_some, Fault.ok_bind, Word.times_eq_elim, Option.bind_eq_bind, Option.bind_some]
    cases Word.mul? next tabWidth with
    | none => rfl
    | some stop => rfl

theorem restoreCursor_eq (s : Screen) : s.raster.restoreCursor = s.restoreCursor.raster := by
  rw [Raster.restoreCursor, restoreCursor, saved_raster]
  cases s.saved <;> rfl

section Fits
variable {s : Screen} (h : s.WellFormed) (hd : s.dims.Fits)
include h

/-- Margins are taken over without a fault. -/
theorem setMargins_eq (top bottom : Nat) :
    s.raster.setMargins top bottom = .ok (s.setMargins top bottom).raster := by
  rw [Raster.setMargins, dims_raster, Word.minus_eq h.rows_pos]
  rfl

include hd

/-- The row below is saturated before it is clamped, which the clamp does not show. -/
theorem cursorDown_eq (n : Nat) : s.raster.cursorDown n = .ok (s.cursorDown n).raster := by
  have hbottom : s.margins.bottom ≤ Word.max :=
    Nat.le_trans (Nat.le_of_lt h.bottom_lt) hd.rows_le
  have hlast : s.dims.rows - 1 ≤ Word.max := Nat.le_trans (Nat.sub_le ..) hd.rows_le
  rw [Raster.cursorDown, cursorDown, dims_raster, cursor_raster, margins_raster,
    Word.minus_eq h.rows_pos]
  by_cases hin : s.cursor.row ≤ s.margins.bottom
  · rw [if_pos hin, if_pos hin, Fault.ok_bind, Word.min_saturatingPlus hbottom]
    rfl
  · rw [if_neg hin, if_neg hin, Fault.ok_bind, Word.min_saturatingPlus hlast]
    rfl

/-- The column to the right is saturated before it is clamped, too. -/
theorem cursorForward_eq (n : Nat) : s.raster.cursorForward n = .ok (s.cursorForward n).raster := by
  rw [Raster.cursorForward, cursorForward, dims_raster, cursor_raster, Word.minus_eq h.cols_pos,
    Fault.ok_bind, Word.min_saturatingPlus (Nat.le_trans (Nat.sub_le ..) hd.cols_le)]
  rfl

/-- The cells of the region move as its lines do. -/
theorem scrollUp_eq (n : Nat) : s.raster.scrollUp n = .ok (s.scrollUp n).raster :=
  shiftRowsUp_eq h h.top_le h.bottom_lt hd.rows_le n

theorem scrollDown_eq (n : Nat) : s.raster.scrollDown n = .ok (s.scrollDown n).raster :=
  shiftRowsDown_eq h h.top_le h.bottom_lt hd.rows_le n

/-- Within a size that fits, the next row is a sixteen-bit number. -/
theorem indexDown_eq : s.raster.indexDown = .ok s.indexDown.raster := by
  rw [Raster.indexDown, indexDown, cursor_raster, margins_raster, dims_raster]
  by_cases hbottom : s.cursor.row = s.margins.bottom
  · rw [if_pos hbottom, if_pos hbottom, scrollUp_eq h hd]
  · have hword : s.cursor.row + 1 < Word.limit :=
      Word.lt_limit (Nat.le_trans (Nat.succ_le_of_lt h.row_lt) hd.rows_le)
    rw [if_neg hbottom, if_neg hbottom, Word.plus_eq hword, Fault.ok_bind]
    by_cases hlast : s.cursor.row + 1 < s.dims.rows
    · rw [if_pos hlast, if_pos hlast]
      rfl
    · rw [if_neg hlast, if_neg hlast]

theorem indexUp_eq : s.raster.indexUp = .ok s.indexUp.raster := by
  rw [Raster.indexUp, indexUp, cursor_raster, margins_raster]
  by_cases htop : s.cursor.row = s.margins.top
  · rw [if_pos htop, if_pos htop, scrollDown_eq h hd]
  · rw [if_neg htop, if_neg htop]
    by_cases hrow : 0 < s.cursor.row
    · rw [if_pos hrow, Word.minus_eq hrow]
      rfl
    · -- a cursor in the first row stays there
      have hzero : s.cursor.row - 1 = s.cursor.row := by omega
      rw [if_neg hrow, hzero]

/-- A line feed cancels a pending wrap and moves down. -/
theorem lineFeed_eq : s.raster.lineFeed = .ok s.lineFeed.raster :=
  indexDown_eq (h.withCursor h.row_lt h.col_lt false) hd

theorem reverseIndex_eq : s.raster.reverseIndex = .ok s.reverseIndex.raster :=
  indexUp_eq (h.withCursor h.row_lt h.col_lt false) hd

/-- A wrap goes to the first column and moves down. -/
theorem wrap_eq : s.raster.wrap = .ok s.wrap.raster :=
  indexDown_eq (h.withCursor h.row_lt h.cols_pos false) hd

/-- Lines are inserted without a fault, also with the cursor outside of the region. -/
theorem insertLines_eq (n : Nat) : s.raster.insertLines n = .ok (s.insertLines n).raster := by
  rw [Raster.insertLines, insertLines]
  change (if s.cursorInMargins = true then _ else _) = _
  by_cases hin : s.cursorInMargins = true
  · have hle : s.cursor.row ≤ s.margins.bottom :=
      of_decide_eq_true ((Bool.and_eq_true _ _).mp hin).2
    rw [if_pos hin, if_pos hin, cursor_raster, margins_raster,
      shiftRowsDown_eq h hle h.bottom_lt hd.rows_le]
    rfl
  · rw [if_neg hin, if_neg hin]

/-- Lines are deleted without a fault, also with the cursor outside of the region. -/
theorem deleteLines_eq (n : Nat) : s.raster.deleteLines n = .ok (s.deleteLines n).raster := by
  rw [Raster.deleteLines, deleteLines]
  change (if s.cursorInMargins = true then _ else _) = _
  by_cases hin : s.cursorInMargins = true
  · have hle : s.cursor.row ≤ s.margins.bottom :=
      of_decide_eq_true ((Bool.and_eq_true _ _).mp hin).2
    rw [if_pos hin, if_pos hin, cursor_raster, margins_raster,
      shiftRowsUp_eq h hle h.bottom_lt hd.rows_le]
    rfl
  · rw [if_neg hin, if_neg hin]

/-! ### Writing -/

/-- Where there is room for the character, it is put without a fault. -/
theorem place_eq {width : Nat} (hreach : s.cursor.col + width ≤ s.dims.cols) (c : Char) :
    s.raster.place width c = .ok (s.place width c).raster := by
  obtain ⟨line, hget, hl⟩ := h.exists_line h.row_lt
  have hput := put_focus h h.row_lt hd.cols_le hl rfl (fun hw : width = 2 => by omega) h.col_lt
    (s.glyph c)
  rw [← raster_modifyCursorLine (fun line => Line.put line s.cursor.col width (s.glyph c)) hget,
    ← raster_eq_focus hget] at hput
  have hword : s.cursor.col + width < Word.limit :=
    Word.lt_limit (Nat.le_trans hreach hd.cols_le)
  rw [Raster.place, place]
  change (s.raster.put width (s.glyph c) >>= _) = _
  rw [hput, Fault.ok_bind, cursor_raster, Word.plus_eq hword, Fault.ok_bind]
  change (if s.dims.cols ≤ s.cursor.col + width then _ else _) =
    Except.ok (if s.dims.cols ≤ s.cursor.col + width then _ else _ : Screen).raster
  by_cases hedge : s.dims.cols ≤ s.cursor.col + width
  · have hlast : Word.minus s.dims.cols 1 = .ok (s.dims.cols - 1) := Word.minus_eq h.cols_pos
    rw [if_pos hedge, if_pos hedge]
    exact (congrArg (· >>= _) hlast).trans rfl
  · rw [if_neg hedge, if_neg hedge]
    rfl

/-- A step back is possible for a character that the screen is wide enough for. -/
theorem makeRoom_eq {width : Nat} (hw : width ≤ s.dims.cols) (reach : Nat) :
    s.raster.makeRoom width reach = .ok (s.makeRoom width reach).raster := by
  rw [Raster.makeRoom, makeRoom, dims_raster, autowrap_raster]
  by_cases hfull : s.dims.cols < reach
  · by_cases hwrap : s.autowrap = true
    · rw [if_pos hfull, if_pos hfull, if_pos hwrap, if_pos hwrap, wrap_eq h hd]
    · rw [if_pos hfull, if_pos hfull, if_neg hwrap, if_neg hwrap, Word.minus_eq hw]
      rfl
  · rw [if_neg hfull, if_neg hfull]

/-- Of a character that takes up columns, only the column behind it can overflow. -/
theorem writeWide_eq {width : Nat} (hpos : 0 < width) (hw : width ≤ s.dims.cols) (c : Char) :
    s.raster.writeWide width c = Raster.ofScreen? (s.writeWide? width c) := by
  -- the screen that the character meets, after a pending wrap
  obtain ⟨s₀, hs₀, h₀, hdims, hwrap⟩ : ∃ s₀, (if s.pendingWrap then s.wrap else s) = s₀ ∧
      s₀.WellFormed ∧ s₀.dims = s.dims ∧
      (if s.pendingWrap then s.raster.wrap else .ok s.raster) = .ok s₀.raster := by
    by_cases hpending : s.pendingWrap = true
    · exact ⟨s.wrap, if_pos hpending, h.wrap, dims_wrap s, by rw [if_pos hpending, wrap_eq h hd]⟩
    · exact ⟨s, if_neg hpending, h, rfl, if_neg hpending⟩
  have hd₀ : s₀.dims.Fits := hdims ▸ hd
  have hw₀ : width ≤ s₀.dims.cols := hdims ▸ hw
  rw [Raster.writeWide, writeWide?, pendingWrap_raster, hwrap, hs₀, Fault.ok_bind, cursor_raster,
    Word.plus_eq_elim]
  cases hreach : Word.add? s₀.cursor.col width with
  | none => rfl
  | some reach =>
    obtain rfl := Word.add?_eq_some hreach
    have hroom := col_makeRoom_add_le (s := s₀) hw₀
    have h₁ := h₀.makeRoom hpos (s₀.cursor.col + width)
    have hdims₁ := dims_makeRoom s₀ width (s₀.cursor.col + width)
    rw [Option.elim_some, Fault.ok_bind, makeRoom_eq h₀ hd₀ hw₀, Fault.ok_bind,
      place_eq h₁ (hdims₁ ▸ hd₀) (hdims₁ ▸ hroom)]
    rfl

/-- **A character** is written into the vector as it is written into the lines. -/
theorem write_eq (c : Char) : s.raster.write c = Raster.ofScreen? (s.write? c) := by
  rw [Raster.write, write?, dims_raster]
  cases Width.columns? c with
  | none => rfl
  | some width =>
    dsimp only
    by_cases hskip : width = 0 ∨ s.dims.cols < width
    · rw [if_pos hskip, if_pos hskip]
      rfl
    · rw [if_neg hskip, if_neg hskip, writeWide_eq h hd (by omega) (by omega)]

/-! ### Instructions and changes -/

/-- **A raster obeys as its screen does.** -/
theorem obey_eq {i : Instruction} (hi : i.Counted) :
    s.raster.obey i = Raster.ofScreen? (i.obey? s) := by
  cases i with
  | print c => exact write_eq h hd c
  | tab => exact tab_eq h
  | lineFeed | index => exact lineFeed_eq h hd
  | reverseIndex => exact reverseIndex_eq h hd
  | cursorDown n => exact cursorDown_eq h hd n
  | cursorForward n => exact cursorForward_eq h hd n
  | moveToRow row => rw [Raster.obey, Word.minus_eq hi]; rfl
  | moveToColumn col => rw [Raster.obey, Word.minus_eq hi]; rfl
  | moveCursor row col => rw [Raster.obey, Word.minus_eq hi.1, Word.minus_eq hi.2]; rfl
  | erase region => exact erase_eq h region
  | insertLines n => exact insertLines_eq h hd n
  | deleteLines n => exact deleteLines_eq h hd n
  | insertChars n => exact insertChars_eq h n
  | deleteChars n => exact deleteChars_eq h n
  | eraseChars n => exact eraseChars_eq h n
  | scrollUp n => exact scrollUp_eq h hd n
  | scrollDown n => exact scrollDown_eq h hd n
  | setMargins top bottom =>
    have hlast : 1 ≤ if bottom = 0 then s.dims.rows else bottom := by
      split
      · exact h.rows_pos
      · omega
    rw [Raster.obey, Word.minus_eq hi, Fault.ok_bind, dims_raster, Word.minus_eq hlast,
      Fault.ok_bind, setMargins_eq h]
    rfl
  | rendition groups => rw [Raster.obey, style_raster, Rendition.restyleAll_eq]; rfl
  | restoreCursor => exact congrArg Except.ok (restoreCursor_eq s)
  | reset => exact blank_eq s.dims
  | _ => rfl

/-- So it is for every change that can be asked for. -/
theorem change_eq {c : Change} (hc : c.Fits) :
    s.raster.change c = Raster.ofScreen? (s.change? c) := by
  cases c with
  | obey i => exact obey_eq h hd hc
  | setStyle style => rfl
  | putCell row col c => exact putCell_eq h row col c
  | resize d => exact resize_eq h d

omit h hd in
/-- **A run of changes has the same result in the vector as on the lines**, and where it has none,
it ends with an overflow. -/
theorem changeAll_eq {s : Screen} (h : s.WellFormed) (hd : s.dims.Fits) {cs : List Change}
    (hcs : ∀ c ∈ cs, c.Fits) : s.raster.changeAll cs = Raster.ofScreen? (s.changeAll? cs) := by
  induction cs generalizing s with
  | nil => rfl
  | cons c cs ih =>
    have hc : c.Fits := hcs c List.mem_cons_self
    rw [Raster.changeAll, changeAll?, change_eq h hd hc]
    cases hs : s.change? c with
    | none => rfl
    | some s₁ =>
      exact ih (h.change? hs) (fits_change? h hd hc hs)
        fun c hmem => hcs c (List.mem_cons_of_mem _ hmem)

end Fits

end Screen

end VirtualTerminal
