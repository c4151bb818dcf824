import VirtualTerminal.Proofs.PendingWrap

/-!
# SavedCursor — what restoring the cursor brings back

Restoring the cursor looks at the saved cursor alone, or at the home position and the plain style
where none is saved (`Screen.remembered`, `Screen.restoreCursor_eq_remembered`).  Only saving and a
reset change what is saved (`Screen.saved_change?`); so it outlives every run without them, whatever
becomes of the size, the style and the cells.  Restoring is itself such a change, and may be
repeated.

**What was saved is restored** (`Screen.restores_what_was_saved`).
-/

namespace VirtualTerminal

namespace Screen

variable {s s' : Screen} {c : Change} {cs : List Change}

/-! ### Restoring -/

/-- What restoring the cursor brings back: what is saved, or home and the plain style. -/
def remembered (s : Screen) : SavedCursor := s.saved.getD ⟨.origin, .plain, false⟩

theorem remembered_of_some {saved : SavedCursor} (h : s.saved = some saved) :
    s.remembered = saved := by
  rw [remembered, h, Option.getD_some]

theorem remembered_of_none (h : s.saved = none) : s.remembered = ⟨.origin, .plain, false⟩ := by
  rw [remembered, h, Option.getD_none]

/-- **Restoring** sets the cursor, the style and the pending wrap, and nothing else. -/
theorem restoreCursor_eq_remembered (s : Screen) :
    s.restoreCursor = { s with
      cursor := s.dims.clamp s.remembered.position
      style := s.remembered.style
      pendingWrap := s.remembered.pendingWrap } := by
  unfold restoreCursor
  split
  · rename_i saved hsaved
    rw [remembered_of_some hsaved]
  · rename_i hsaved
    rw [remembered_of_none hsaved]
    rfl

/-! ### What is saved -/

/-- The change neither saves the cursor nor resets the screen. -/
def Change.KeepsSaved (c : Change) : Prop := c ≠ .obey .saveCursor ∧ c ≠ .obey .reset

/-- **One change.**  Without a save, what is saved stays, or a reset drops it. -/
theorem saved_change? (h : s.WellFormed) (hc : c ≠ .obey .saveCursor)
    (hs : s.change? c = some s') : s'.saved = s.saved ∨ c = .obey .reset ∧ s'.saved = none := by
  cases c with
  | obey i =>
    rcases obey?_cases h hs with hplain | rfl | rfl | ⟨on, rfl⟩ | rfl
    · exact .inl hplain.saved
    · exact absurd rfl hc
    · obtain rfl := Option.some.inj hs
      rw [restoreCursor_eq_remembered]
      exact .inl rfl
    · exact .inl (Option.some.inj hs ▸ rfl)
    · exact .inr ⟨rfl, Option.some.inj hs ▸ rfl⟩
  | setStyle style => exact .inl (Option.some.inj hs ▸ rfl)
  | putCell row col c =>
    obtain rfl := Option.some.inj hs
    unfold putCell?
    split
    · exact .inl rfl
    · exact .inl rfl
  | resize d =>
    obtain rfl := Option.some.inj hs
    cases hresize : s.resize? d with
    | none => exact .inl rfl
    | some s' =>
      obtain ⟨-, rfl | rfl⟩ := resize?_eq_some hresize
      · exact .inl rfl
      · exact .inl rfl

/-- A run without a save and a reset leaves what is saved as it is. -/
theorem along_saved_eq (h : s.WellFormed) (hcs : ∀ c ∈ cs, c.KeepsSaved) :
    s.Along (fun s' => s'.saved = s.saved) cs := by
  refine along_of_kept (fun h' hc hs hsaved => ?_) h rfl
  obtain ⟨hsave, hreset⟩ := hcs _ hc
  rcases saved_change? h' hsave hs with hkept | ⟨hdrop, -⟩
  · exact hkept.trans hsaved
  · exact absurd hdrop hreset

/-- Where nothing is saved, a run without a save leaves it so, resets included. -/
theorem along_saved_eq_none (h : s.WellFormed) (hnone : s.saved = none)
    (hcs : ∀ c ∈ cs, c ≠ .obey .saveCursor) : s.Along (fun s' => s'.saved = none) cs := by
  refine along_of_kept (fun h' hc hs hsaved => ?_) h hnone
  rcases saved_change? h' (hcs _ hc) hs with hkept | ⟨-, hdrop⟩
  · exact hkept.trans hsaved
  · exact hdrop

/-! ### Restoring after a run -/

/-- **The saved cursor outlives every run.**

* Save the cursor and make any changes but a save and a reset; the size, the style and the place of
  the cursor may change, and the cursor may be restored in between.  Then at each screen on the way,
  restoring brings back the place that was saved, or the nearest one on the screen as it is now, the
  style and the pending wrap.  It changes nothing else.
* From a new screen or from a reset on, make any changes but a save.  Then at each screen on the
  way, restoring homes the cursor, disarms a pending wrap and sets the plain style, and changes
  nothing else. -/
theorem restores_what_was_saved (h : s.WellFormed) (cs : List Change) :
    ((∀ c ∈ cs, c.KeepsSaved) →
        s.saveCursor.Along (fun s' => s'.restoreCursor = { s' with
          cursor := s'.dims.clamp s.cursor
          style := s.style
          pendingWrap := s.pendingWrap }) cs) ∧
      ((∀ c ∈ cs, c ≠ .obey .saveCursor) →
        ∀ s₀, (s₀ = s.reset ∨ ∃ d, s₀ = blank d) →
          s₀.Along (fun s' => s'.restoreCursor = { s' with
            cursor := .origin
            style := .plain
            pendingWrap := false }) cs) := by
  constructor
  · intro hcs
    have hsave : s.saveCursor.WellFormed := h.of_eq rfl rfl rfl rfl
    refine (along_saved_eq hsave hcs).imp fun s' hsaved => ?_
    rw [restoreCursor_eq_remembered, remembered_of_some hsaved]
  · intro hcs s₀ hs₀
    obtain ⟨d, rfl⟩ : ∃ d, s₀ = blank d := hs₀.elim (fun hreset => ⟨s.dims, hreset⟩) id
    refine (along_saved_eq_none (.blank d) rfl hcs).imp fun s' hsaved => ?_
    rw [restoreCursor_eq_remembered, remembered_of_none hsaved, Dimensions.clamp_origin]

/-- A bold cursor in the last column, with a wrap pending. -/
def boldAtEdge : Screen :=
  { blank ⟨3, 5⟩ with cursor := ⟨2, 4⟩, style := Style.plain.withBold, pendingWrap := true }

/-- Another style, a smaller screen, a restore there, the old size, and a character. -/
def shrunkInBetween : List Change :=
  [.setStyle .plain, .resize ⟨2, 3⟩, .obey .restoreCursor, .resize ⟨3, 5⟩, .obey .carriageReturn,
    .obey (.print 'x')]

/-- The first restore stops at the edge of the smaller screen; a second one, once the screen is as
large as before, brings back the whole of what was saved. -/
theorem restores_what_was_saved_shrunk :
    boldAtEdge.WellFormed ∧ (∀ c ∈ shrunkInBetween, c.KeepsSaved) ∧
      boldAtEdge.saveCursor.Along (fun s' => s'.restoreCursor = { s' with
        cursor := s'.dims.clamp ⟨2, 4⟩
        style := Style.plain.withBold
        pendingWrap := true }) shrunkInBetween ∧
      (boldAtEdge.saveCursor.changeAll? (shrunkInBetween.take 3)).map
          (fun s' => (s'.cursor, s'.style.bold)) = some (⟨1, 2⟩, true) ∧
      (boldAtEdge.saveCursor.changeAll? shrunkInBetween).map
          (fun s' => (s'.cursor, s'.restoreCursor.cursor, s'.restoreCursor.style.bold)) =
        some (⟨1, 1⟩, ⟨2, 4⟩, true) ∧
      (blank ⟨3, 5⟩).Along (fun s' => s'.restoreCursor = { s' with
        cursor := .origin
        style := .plain
        pendingWrap := false }) shrunkInBetween := by
  have hwell : boldAtEdge.WellFormed := by
    have hblank := WellFormed.blank ⟨3, 5⟩
    exact ⟨hblank.length_lines, hblank.length_line, by decide, by decide, hblank.5, hblank.6⟩
  have hkeeps : ∀ c ∈ shrunkInBetween, c.KeepsSaved := by
    simp [shrunkInBetween, Change.KeepsSaved]
  obtain ⟨hsaved, hnone⟩ := restores_what_was_saved hwell shrunkInBetween
  exact ⟨hwell, hkeeps, hsaved hkeeps, by decide +kernel, by decide +kernel,
    hnone (fun c hc => (hkeeps c hc).1) _ (.inr ⟨⟨3, 5⟩, rfl⟩)⟩

end Screen

end VirtualTerminal
