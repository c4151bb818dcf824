import VirtualTerminal.Proofs.Pairing.Run

/-!
# PendingWrap — when a character goes to the next line

A wrap should be pending only while wrapping is on, and only while the cursor stands in the last
column (`Screen.WrapsAtEdge`).  Every operation but one keeps this; what each of them does to a
pending wrap is said once (`Screen.Plain`, `obey?_cases`).

The exception is restoring the cursor.  It brings back a pending wrap as it was when the cursor was
saved, whatever the mode and the width are by then; so it keeps the rule exactly if what it brings
back still fits (`Screen.SavedAtEdge`).  A run keeps the rule all along exactly if no restore in it
brings back what does not fit, and that takes turning wrapping off or widening the screen
(`Emulator.wraps_at_edge_all_along_iff`).

Where the rule holds, a character leaves its line only if wrapping is on, and only at the edge
(`stays_or_wraps_at_edge`).
-/

namespace VirtualTerminal

namespace Screen

variable {s s' : Screen}

/-! ### The rule, and what keeps it -/

/-- A wrap is pending only while wrapping is on and the cursor is in the last column. -/
def WrapsAtEdge (s : Screen) : Prop :=
  s.pendingWrap = true → s.autowrap = true ∧ s.cursor.col + 1 = s.dims.cols

/-- If the saved cursor has a pending wrap, then wrapping is on and the saved column is not left of
the last one. -/
def SavedAtEdge (s : Screen) : Prop :=
  ∀ saved, s.saved = some saved → saved.pendingWrap = true →
    s.autowrap = true ∧ s.dims.cols ≤ saved.position.col + 1

/-- The operation leaves size, mode and saved cursor alone.  It disarms a pending wrap, or leaves it
and the column alone, or fills the last column. -/
structure Plain (s s' : Screen) : Prop where
  dims : s'.dims = s.dims
  autowrap : s'.autowrap = s.autowrap
  saved : s'.saved = s.saved
  pending : s'.pendingWrap = false ∨
    (s'.pendingWrap = s.pendingWrap ∧ s'.cursor.col = s.cursor.col) ∨
    (s'.pendingWrap = s.autowrap ∧ s'.cursor.col + 1 = s.dims.cols)

namespace Plain

theorem disarm (hd : s'.dims = s.dims) (ha : s'.autowrap = s.autowrap) (hs : s'.saved = s.saved)
    (hp : s'.pendingWrap = false) : s.Plain s' := ⟨hd, ha, hs, .inl hp⟩

theorem leave (hd : s'.dims = s.dims) (ha : s'.autowrap = s.autowrap) (hs : s'.saved = s.saved)
    (hp : s'.pendingWrap = s.pendingWrap) (hc : s'.cursor.col = s.cursor.col) : s.Plain s' :=
  ⟨hd, ha, hs, .inr (.inl ⟨hp, hc⟩)⟩

/-- A plain operation leaves a wrap pending on the last column only. -/
theorem wrapsAtEdge (h : s.Plain s') (hs : s.WrapsAtEdge) : s'.WrapsAtEdge := by
  intro hp
  rw [h.autowrap, h.dims]
  rcases h.pending with hoff | ⟨hsame, hcol⟩ | ⟨hmode, hcol⟩
  · rw [hoff] at hp
    cases hp
  · rw [hcol]
    exact hs (hsame ▸ hp)
  · exact ⟨hmode ▸ hp, hcol⟩

/-- A plain operation leaves alone what is saved. -/
theorem savedAtEdge (h : s.Plain s') (hs : s.SavedAtEdge) : s'.SavedAtEdge := by
  intro saved hsaved hp
  rw [h.autowrap, h.dims]
  exact hs saved (h.saved ▸ hsaved) hp

end Plain

/-! ### What each operation does to a pending wrap -/

theorem exists_indexDown (s : Screen) :
    ∃ lines row, s.indexDown = { s with lines := lines, cursor := ⟨row, s.cursor.col⟩ } := by
  unfold indexDown
  split
  · exact ⟨_, s.cursor.row, rfl⟩
  · split
    · exact ⟨s.lines, _, rfl⟩
    · exact ⟨s.lines, s.cursor.row, rfl⟩

theorem exists_indexUp (s : Screen) :
    ∃ lines row, s.indexUp = { s with lines := lines, cursor := ⟨row, s.cursor.col⟩ } := by
  unfold indexUp
  split
  · exact ⟨_, s.cursor.row, rfl⟩
  · exact ⟨s.lines, _, rfl⟩

theorem exists_wrap (s : Screen) :
    ∃ lines row,
      s.wrap = { s with lines := lines, cursor := ⟨row, 0⟩, pendingWrap := false } :=
  exists_indexDown { s with cursor := ⟨s.cursor.row, 0⟩, pendingWrap := false }

/-- Making room moves lines and the cursor, and arms no wrap. -/
theorem exists_makeRoom (s : Screen) (hp : s.pendingWrap = false) (width reach : Nat) :
    ∃ lines cursor, s.makeRoom width reach = { s with lines := lines, cursor := cursor } := by
  unfold makeRoom
  split
  · split
    · obtain ⟨lines, row, hwrap⟩ := s.exists_wrap
      exact ⟨lines, ⟨row, 0⟩, by rw [hwrap, ← hp]⟩
    · exact ⟨s.lines, _, rfl⟩
  · exact ⟨s.lines, s.cursor, rfl⟩

/-- Placing a character fills the last column, or the cursor stays left of it. -/
theorem plain_place (h : 0 < s.dims.cols) (hp : s.pendingWrap = false) (width : Nat) (c : Char) :
    s.Plain (s.place width c) := by
  unfold place
  dsimp only
  split
  · exact ⟨rfl, rfl, rfl, .inr (.inr ⟨rfl, Nat.sub_add_cancel h⟩)⟩
  · exact .disarm rfl rfl rfl hp

/-- Carries out a pending wrap. -/
def wrapPending (s : Screen) : Screen := if s.pendingWrap then s.wrap else s

theorem wrapPending_eq_self (hp : s.pendingWrap = false) : s.wrapPending = s := by
  rw [wrapPending, hp]
  rfl

theorem exists_wrapPending (s : Screen) :
    ∃ lines cursor,
      s.wrapPending = { s with lines := lines, cursor := cursor, pendingWrap := false } := by
  cases hp : s.pendingWrap with
  | true =>
    obtain ⟨lines, row, hwrap⟩ := s.exists_wrap
    exact ⟨lines, ⟨row, 0⟩, by rw [wrapPending, if_pos hp, hwrap]⟩
  | false => exact ⟨s.lines, s.cursor, by rw [wrapPending_eq_self hp, ← hp]⟩

/-- A character is not shown, or it is placed after a pending wrap is carried out and room is made
for it. -/
theorem write?_eq_placed {c : Char} (hs : s.write? c = some s') :
    s' = s ∨ ∃ width s₀, Width.columns? c = some width ∧ s₀ = s.wrapPending ∧
      s' = (s₀.makeRoom width (s₀.cursor.col + width)).place width c := by
  rw [write?] at hs
  cases hcolumns : Width.columns? c with
  | none =>
    rw [hcolumns] at hs
    exact .inl (Option.some.inj hs).symm
  | some width =>
    rw [hcolumns] at hs
    dsimp only at hs
    split at hs
    · exact .inl (Option.some.inj hs).symm
    · obtain ⟨reach, hreach, hs⟩ := Option.bind_eq_some_iff.mp hs
      obtain rfl := Word.add?_eq_some hreach
      exact .inr ⟨width, _, rfl, rfl, (Option.some.inj hs).symm⟩

/-- Printing is plain: it carries a pending wrap out before it arms another one. -/
theorem plain_write? (h : 0 < s.dims.cols) {c : Char} (hs : s.write? c = some s') :
    s.Plain s' := by
  obtain rfl | ⟨width, s₀, -, rfl, rfl⟩ := write?_eq_placed hs
  · exact .leave rfl rfl rfl rfl rfl
  · -- once a pending wrap is carried out none is pending
    obtain ⟨lines, cursor, hfirst⟩ := s.exists_wrapPending
    rw [hfirst]
    obtain ⟨lines', cursor', hroom⟩ := exists_makeRoom
      { s with lines := lines, cursor := cursor, pendingWrap := false } rfl width
      (cursor.col + width)
    rw [hroom]
    obtain ⟨hd, ha, hsaved, hpending⟩ := plain_place
      (s := { s with lines := lines', cursor := cursor', pendingWrap := false }) h rfl width c
    refine ⟨hd, ha, hsaved, ?_⟩
    rcases hpending with hoff | ⟨hoff, -⟩ | hedge
    · exact .inl hoff
    · exact .inl hoff
    · exact .inr (.inr hedge)

/-- **What an instruction does to a pending wrap.** -/
theorem obey?_cases (h : s.WellFormed) {i : Instruction} (hs : i.obey? s = some s') :
    s.Plain s' ∨ i = .saveCursor ∨ i = .restoreCursor ∨ (∃ on, i = .setAutowrap on) ∨
      i = .reset := by
  cases i with
  | saveCursor => exact .inr (.inl rfl)
  | restoreCursor => exact .inr (.inr (.inl rfl))
  | setAutowrap on => exact .inr (.inr (.inr (.inl ⟨on, rfl⟩)))
  | reset => exact .inr (.inr (.inr (.inr rfl)))
  | print c => exact .inl (plain_write? h.cols_pos hs)
  | tab =>
    obtain ⟨stop, rfl⟩ := tab?_eq_some hs
    exact .inl (.disarm rfl rfl rfl rfl)
  | lineFeed | index =>
    obtain rfl := Option.some.inj hs
    obtain ⟨lines, row, hdown⟩ := exists_indexDown { s with pendingWrap := false }
    exact .inl (by rw [lineFeed, hdown]; exact .disarm rfl rfl rfl rfl)
  | reverseIndex =>
    obtain rfl := Option.some.inj hs
    obtain ⟨lines, row, hup⟩ := exists_indexUp { s with pendingWrap := false }
    exact .inl (by rw [reverseIndex, hup]; exact .disarm rfl rfl rfl rfl)
  | insertLines n =>
    obtain rfl := Option.some.inj hs
    unfold insertLines
    split
    · exact .inl (.disarm rfl rfl rfl rfl)
    · exact .inl (.leave rfl rfl rfl rfl rfl)
  | deleteLines n =>
    obtain rfl := Option.some.inj hs
    unfold deleteLines
    split
    · exact .inl (.disarm rfl rfl rfl rfl)
    · exact .inl (.leave rfl rfl rfl rfl rfl)
  | backspace | carriageReturn | cursorUp _ | cursorDown _ | cursorForward _ | cursorBackward _
  | moveToRow _ | moveToColumn _ | moveCursor _ _ | insertChars _ | deleteChars _
  | setMargins _ _ => exact .inl (Option.some.inj hs ▸ .disarm rfl rfl rfl rfl)
  | bell | erase _ | eraseChars _ | scrollUp _ | scrollDown _ | rendition _ | setVisible _
  | setLink _ | setMark _ | title _ =>
    exact .inl (Option.some.inj hs ▸ .leave rfl rfl rfl rfl rfl)

/-! ### The step -/

/-- The change restores a cursor that was saved with a pending wrap, where that wrap does not fit
the mode and the width any more. -/
def Change.Revives (c : Change) (s : Screen) : Prop :=
  c = .obey .restoreCursor ∧ ¬ s.SavedAtEdge

/-- The change turns wrapping off, or makes the screen wider. -/
def Change.Unsettles (c : Change) (s : Screen) : Prop :=
  c = .obey (.setAutowrap false) ∨ ∃ d, c = .resize d ∧ s.dims.cols < d.cols

theorem savedAtEdge_of_none (h : s.saved = none) : s.SavedAtEdge := by
  intro saved hsaved
  rw [h] at hsaved
  cases hsaved

/-- What is brought back is in the last column exactly if it was not left of it. -/
theorem wrapsAtEdge_restoreCursor_iff (h : s.WellFormed) :
    s.restoreCursor.WrapsAtEdge ↔ s.SavedAtEdge := by
  have hcols := h.cols_pos
  unfold restoreCursor
  cases hsaved : s.saved with
  | none =>
    refine iff_of_true ?_ (savedAtEdge_of_none hsaved)
    intro hp
    cases hp
  | some saved =>
    have hcol : (s.dims.clamp saved.position).col + 1 = s.dims.cols ↔
        s.dims.cols ≤ saved.position.col + 1 := by
      rw [show (s.dims.clamp saved.position).col = min saved.position.col (s.dims.cols - 1)
        from rfl]
      omega
    constructor
    · intro hedge saved' hsaved' hp
      obtain rfl := Option.some.inj (hsaved.symm.trans hsaved')
      obtain ⟨hmode, hlast⟩ := hedge hp
      exact ⟨hmode, hcol.mp hlast⟩
    · intro hfits hp
      obtain ⟨hmode, hlast⟩ := hfits saved hsaved hp
      exact ⟨hmode, hcol.mpr hlast⟩

/-- Every other change keeps the rule. -/
theorem WrapsAtEdge.change? {c : Change} (hedge : s.WrapsAtEdge) (h : s.WellFormed)
    (hc : c ≠ .obey .restoreCursor) (hs : s.change? c = some s') : s'.WrapsAtEdge := by
  cases c with
  | obey i =>
    rcases obey?_cases h hs with hplain | rfl | rfl | ⟨on, rfl⟩ | rfl
    · exact hplain.wrapsAtEdge hedge
    · exact Option.some.inj hs ▸ hedge
    · exact absurd rfl hc
    · obtain rfl := Option.some.inj hs
      intro hp
      obtain ⟨hon, hp⟩ := (Bool.and_eq_true _ _).mp hp
      exact ⟨hon, (hedge hp).2⟩
    · obtain rfl := Option.some.inj hs
      intro hp
      cases hp
  | setStyle style => exact Option.some.inj hs ▸ hedge
  | putCell row col c =>
    obtain rfl := Option.some.inj hs
    unfold putCell?
    split
    · exact hedge
    · exact hedge
  | resize d =>
    obtain rfl := Option.some.inj hs
    cases hresize : s.resize? d with
    | none => exact hedge
    | some s' =>
      obtain ⟨-, rfl | rfl⟩ := resize?_eq_some hresize
      · exact hedge
      · intro hp
        cases hp

/-- **One change.**  It keeps the rule exactly if it brings back no pending wrap that does not
fit. -/
theorem wrapsAtEdge_change?_iff {c : Change} (h : s.WellFormed) (hs : s.change? c = some s')
    (hedge : s.WrapsAtEdge) : s'.WrapsAtEdge ↔ ¬ c.Revives s := by
  by_cases hc : c = .obey .restoreCursor
  · subst hc
    obtain rfl := Option.some.inj hs
    rw [wrapsAtEdge_restoreCursor_iff h]
    constructor
    · rintro hfits ⟨-, hlost⟩
      exact hlost hfits
    · intro hkept
      exact Classical.byContradiction fun hlost => hkept ⟨rfl, hlost⟩
  · exact iff_of_true (hedge.change? h hc hs) fun hrevives => hc hrevives.1

/-- A change without a result restores nothing. -/
theorem not_revives_of_none {c : Change} (hs : s.change? c = none) : ¬ c.Revives s := by
  rintro ⟨rfl, -⟩
  cases hs

/-- What is saved fits as long as wrapping stays on and the screen gets no wider. -/
theorem SavedAtEdge.change? {c : Change} (hfits : s.SavedAtEdge) (hedge : s.WrapsAtEdge)
    (h : s.WellFormed) (hc : ¬ c.Unsettles s) (hs : s.change? c = some s') : s'.SavedAtEdge := by
  cases c with
  | obey i =>
    rcases obey?_cases h hs with hplain | rfl | rfl | ⟨on, rfl⟩ | rfl
    · exact hplain.savedAtEdge hfits
    · -- what is saved now fits, as it is pending now
      obtain rfl := Option.some.inj hs
      intro saved hsaved hp
      obtain rfl := Option.some.inj hsaved
      obtain ⟨hmode, hcol⟩ := hedge hp
      exact ⟨hmode, Nat.le_of_eq hcol.symm⟩
    · obtain rfl := Option.some.inj hs
      unfold restoreCursor
      split
      · exact hfits
      · exact hfits
    · obtain rfl := Option.some.inj hs
      intro saved hsaved hp
      cases on with
      | true => exact ⟨rfl, (hfits saved hsaved hp).2⟩
      | false => exact absurd (.inl rfl) hc
    · obtain rfl := Option.some.inj hs
      exact savedAtEdge_of_none rfl
  | setStyle style => exact Option.some.inj hs ▸ hfits
  | putCell row col c =>
    obtain rfl := Option.some.inj hs
    unfold putCell?
    split
    · exact hfits
    · exact hfits
  | resize d =>
    obtain rfl := Option.some.inj hs
    cases hresize : s.resize? d with
    | none => exact hfits
    | some s' =>
      obtain ⟨-, rfl | rfl⟩ := resize?_eq_some hresize
      · exact hfits
      · intro saved hsaved hp
        have hnarrow : d.cols ≤ s.dims.cols :=
          Nat.le_of_not_lt fun hwide => hc (.inr ⟨d, rfl, hwide⟩)
        obtain ⟨hmode, hcol⟩ := hfits saved hsaved hp
        exact ⟨hmode, Nat.le_trans hnarrow hcol⟩

/-! ### Where a character goes -/

/-- The cursor stays in its row, and no other line changes. -/
def SameLine (s s' : Screen) : Prop :=
  s'.cursor.row = s.cursor.row ∧ ∀ row, row ≠ s.cursor.row → s'.lines[row]? = s.lines[row]?

/-- A place is written within the cursor's line. -/
theorem sameLine_place (s : Screen) (width : Nat) (c : Char) : s.SameLine (s.place width c) := by
  have hlines : ∀ (f : Line → Line) (row : Nat), row ≠ s.cursor.row →
      (s.lines.modify s.cursor.row f)[row]? = s.lines[row]? :=
    fun f row hrow => List.getElem?_modify_ne f s.lines (Ne.symm hrow)
  unfold place
  dsimp only
  split
  · exact ⟨rfl, hlines _⟩
  · exact ⟨rfl, hlines _⟩

/-- Where a wrap is pending only at the edge, a character goes to another line only while wrapping
is on, and only if the last column is filled or the columns left do not hold it. -/
theorem stays_or_wraps_at_edge (hedge : s.WrapsAtEdge) {c : Char} (hs : s.write? c = some s') :
    s.SameLine s' ∨ s.autowrap = true ∧
      ((s.pendingWrap = true ∧ s.cursor.col + 1 = s.dims.cols) ∨
        ∃ width, Width.columns? c = some width ∧ s.dims.cols < s.cursor.col + width) := by
  obtain rfl | ⟨width, s₀, hcolumns, rfl, rfl⟩ := write?_eq_placed hs
  · exact .inl ⟨rfl, fun _ _ => rfl⟩
  · cases hp : s.pendingWrap with
    | true =>
      obtain ⟨hmode, hcol⟩ := hedge hp
      exact .inr ⟨hmode, .inl ⟨rfl, hcol⟩⟩
    | false =>
      rw [wrapPending_eq_self hp]
      unfold makeRoom
      split
      · split
        · exact .inr ⟨‹_›, .inr ⟨width, hcolumns, ‹_›⟩⟩
        · -- with wrapping off the character is put into the last columns that hold it
          exact .inl (sameLine_place { s with cursor := _ } width c)
      · exact .inl (sameLine_place s width c)

end Screen

/-! ### Runs -/

namespace Emulator

/-- **A run lets a wrap be pending only at the edge exactly if it restores no stale one**, and only
a run that turns wrapping off or widens the screen can do so.  After a run without a stale restore a
character leaves its line only at the edge, and never while wrapping is off. -/
theorem wraps_at_edge_all_along_iff (d : Dimensions) (calls : List Call) :
    ((Screen.blank d).Along Screen.WrapsAtEdge (Call.changes calls) ↔
        (Screen.blank d).Avoids Screen.Change.Revives (Call.changes calls)) ∧
      ((Screen.blank d).Avoids Screen.Change.Unsettles (Call.changes calls) →
        (Screen.blank d).Avoids Screen.Change.Revives (Call.changes calls)) ∧
      ∀ e, (ofDimensions d).operateAll? (calls.map .call) = some e →
        (Screen.blank d).Avoids Screen.Change.Revives (Call.changes calls) →
          e.screen.WrapsAtEdge ∧ ∀ c s', e.screen.write? c = some s' →
            e.screen.SameLine s' ∨ e.screen.autowrap = true ∧
              ((e.screen.pendingWrap = true ∧ e.screen.cursor.col + 1 = e.screen.dims.cols) ∨
                ∃ width, Width.columns? c = some width ∧
                  e.screen.dims.cols < e.screen.cursor.col + width) := by
  have hstart : (Screen.blank d).WrapsAtEdge := nofun
  have hiff : (Screen.blank d).Along Screen.WrapsAtEdge (Call.changes calls) ↔
      (Screen.blank d).Avoids Screen.Change.Revives (Call.changes calls) :=
    Screen.along_iff_avoids (fun h _ hs hedge => Screen.wrapsAtEdge_change?_iff h hs hedge)
      Screen.not_revives_of_none (.blank d) hstart
  refine ⟨hiff, fun hsteady => ?_, fun e he hfresh => ?_⟩
  · refine hsteady.of_keeps (P := fun s => s.WrapsAtEdge ∧ s.SavedAtEdge) ?_ ?_ (.blank d)
      ⟨hstart, Screen.savedAtEdge_of_none rfl⟩
    · rintro s c s' h ⟨hedge, hfits⟩ hc hs
      have hkept : ¬ c.Revives s := fun hrevives => hrevives.2 hfits
      exact ⟨(Screen.wrapsAtEdge_change?_iff h hs hedge).mpr hkept,
        hfits.change? hedge h hc hs⟩
    · rintro s c ⟨-, hfits⟩ ⟨-, hlost⟩
      exact hlost hfits
  · rw [operateAll?_eq] at he
    obtain ⟨s, hs, rfl⟩ := Option.map_eq_some_iff.mp he
    have hedge : s.WrapsAtEdge := hiff.mpr hfresh _ s (List.prefix_refl _) hs
    exact ⟨hedge, fun c s' => Screen.stays_or_wraps_at_edge hedge⟩

/-- A full line, saving the cursor, turning wrapping off, and restoring the cursor. -/
def restoreWithoutWrapping : List Call :=
  [.feed [0x61, 0x62, 0x1b, 0x37, 0x1b, 0x5b, 0x3f, 0x37, 0x6c, 0x1b, 0x38]]

/-- A full line, saving the cursor, a wider screen, and restoring the cursor. -/
def restoreAfterWidening : List Call :=
  [.feed [0x61, 0x62, 0x1b, 0x37], .resize ⟨2, 4⟩, .feed [0x1b, 0x38]]

/-- Restoring the cursor can leave a wrap pending with wrapping off, and left of the last column;
the next character is then shown in the next row. -/
theorem not_wraps_at_edge_restore :
    (¬ (Screen.blank ⟨2, 2⟩).Along Screen.WrapsAtEdge (Call.changes restoreWithoutWrapping) ∧
      ∃ e, (ofDimensions ⟨2, 2⟩).operateAll? (restoreWithoutWrapping.map .call) = some e ∧
        e.screen.autowrap = false ∧ e.screen.pendingWrap = true ∧
        e.screen.cursor = ⟨0, 1⟩ ∧ (e.screen.write? 'c').map Screen.cursor = some ⟨1, 1⟩) ∧
    (¬ (Screen.blank ⟨2, 2⟩).Along Screen.WrapsAtEdge (Call.changes restoreAfterWidening) ∧
      ∃ e, (ofDimensions ⟨2, 2⟩).operateAll? (restoreAfterWidening.map .call) = some e ∧
        e.screen.dims.cols = 4 ∧ e.screen.pendingWrap = true ∧
        e.screen.cursor = ⟨0, 1⟩ ∧ (e.screen.write? 'c').map Screen.cursor = some ⟨1, 1⟩) := by
  constructor
  · have hrun : ((ofDimensions ⟨2, 2⟩).operateAll? (restoreWithoutWrapping.map .call)).map
        (fun e => (e.screen.autowrap, e.screen.pendingWrap, e.screen.cursor,
          (e.screen.write? 'c').map Screen.cursor)) =
        some (false, true, ⟨0, 1⟩, some ⟨1, 1⟩) := by decide +kernel
    obtain ⟨e, he, hstate⟩ := Option.map_eq_some_iff.mp hrun
    simp only [Prod.mk.injEq] at hstate
    obtain ⟨hmode, hp, hcursor, hnext⟩ := hstate
    refine ⟨fun halong => ?_, e, he, hmode, hp, hcursor, hnext⟩
    obtain ⟨hiff, -, hend⟩ := wraps_at_edge_all_along_iff ⟨2, 2⟩ restoreWithoutWrapping
    have hon : e.screen.autowrap = true := ((hend e he (hiff.mp halong)).1 hp).1
    exact Bool.false_ne_true (hmode.symm.trans hon)
  · have hrun : ((ofDimensions ⟨2, 2⟩).operateAll? (restoreAfterWidening.map .call)).map
        (fun e => (e.screen.dims.cols, e.screen.pendingWrap, e.screen.cursor,
          (e.screen.write? 'c').map Screen.cursor)) =
        some (4, true, ⟨0, 1⟩, some ⟨1, 1⟩) := by decide +kernel
    obtain ⟨e, he, hstate⟩ := Option.map_eq_some_iff.mp hrun
    simp only [Prod.mk.injEq] at hstate
    obtain ⟨hcols, hp, hcursor, hnext⟩ := hstate
    refine ⟨fun halong => ?_, e, he, hcols, hp, hcursor, hnext⟩
    obtain ⟨hiff, -, hend⟩ := wraps_at_edge_all_along_iff ⟨2, 2⟩ restoreAfterWidening
    have hlast := ((hend e he (hiff.mp halong)).1 hp).2
    rw [hcols, hcursor] at hlast
    cases hlast

end Emulator

end VirtualTerminal
