import VirtualTerminal.Proofs.Pairing.Screen

/-!
# Pairing — Run

Whether a wide glyph is ever torn apart (`Emulator.paired_all_along_iff_no_cut`).  An emulator that is
fed any bytes in any chunks, finished and resized keeps its screen paired all along the run exactly
if no erase on the way cuts a wide glyph; every other change restores what it cuts.

There are runs that do cut one: erasing to the end of the line from the second column of a wide glyph
leaves its first half alone (`Emulator.not_paired_eraseFromSpacer`).
-/

namespace VirtualTerminal

/-- The changes of the screen that calls of a new emulator mean. -/
def Call.changes (calls : List Call) : List Screen.Change :=
  (Reader.fresh.operateAll (calls.map .call)).2

namespace Screen

variable {s : Screen} {c : Change} {cs : List Change}

/-- A change without a result cuts nothing. -/
theorem not_cuts_of_none (hs : s.change? c = none) : ¬ c.Cuts s := by
  rintro ⟨region, rfl, -⟩
  cases hs

/-- From a paired screen on, the screens stay paired exactly as long as no erase cuts a glyph. -/
theorem along_paired_iff (h : s.WellFormed) (hr : s.Regular) (hp : s.Paired)
    (hcs : ∀ c ∈ cs, c.Narrow) : s.Along Paired cs ↔ s.Avoids Change.Cuts cs := by
  have hregular : s.Along Regular cs :=
    along_of_kept (fun h' hc hs hr' => (paired_change? h' hr' (hcs _ hc) hs).1) h hr
  have hboth : s.Along (fun s => s.Regular ∧ s.Paired) cs ↔ s.Avoids Change.Cuts cs := by
    refine along_iff_avoids (fun h' hc hs => ?_) not_cuts_of_none h ⟨hr, hp⟩
    rintro ⟨hr', hp'⟩
    obtain ⟨hr₁, hstep⟩ := paired_change? h' hr' (hcs _ hc) hs
    exact (and_iff_right hr₁).trans (hstep hp')
  rw [← hboth]
  refine ⟨fun halong before s' hpre hrun => ?_, fun halong => halong.imp fun _ => And.right⟩
  exact ⟨hregular before s' hpre hrun, halong before s' hpre hrun⟩

/-- A blank screen has no wide glyphs. -/
theorem paired_blank (d : Dimensions) : (blank d).Paired :=
  (paired_iff_linked (all_blank .regular d)).mpr fun _ hl =>
    List.eq_of_mem_replicate hl ▸ Line.linked_empty _

end Screen

namespace Emulator

variable {d : Dimensions} {calls : List Call}

/-- No character of the calls takes more than two columns. -/
def AtMostTwoColumns (calls : List Call) : Prop :=
  ∀ c, .obey (.print c) ∈ Call.changes calls →
    ∀ width, Width.columns? c = some width → width ≤ 2

/-- Calls without wider characters print none. -/
theorem narrow_changes (hw : AtMostTwoColumns calls) : ∀ c ∈ Call.changes calls, c.Narrow := by
  intro c hc
  rcases Reader.fresh.mem_operateAll_calls c hc with ⟨i, rfl⟩ | ⟨d, rfl⟩
  · cases i with
    | print c => exact hw c hc
    | _ => trivial
  · trivial

/-- **A run keeps its screen paired exactly if no erase in it cuts a wide glyph**; the bytes, the
chunks and the sizes are arbitrary. -/
theorem paired_all_along_iff_no_cut (hw : AtMostTwoColumns calls) :
    ((Screen.blank d).Along Screen.Paired (Call.changes calls) ↔
        (Screen.blank d).Avoids Screen.Change.Cuts (Call.changes calls)) ∧
      ∀ e, (ofDimensions d).operateAll? (calls.map .call) = some e →
        (Screen.blank d).Avoids Screen.Change.Cuts (Call.changes calls) → e.screen.Paired := by
  have hiff := Screen.along_paired_iff (.blank d) (Screen.all_blank .regular d)
    (Screen.paired_blank d) (narrow_changes hw)
  refine ⟨hiff, fun e he hfree => ?_⟩
  rw [operateAll?_eq] at he
  obtain ⟨s, hs, rfl⟩ := Option.map_eq_some_iff.mp he
  exact hiff.mpr hfree _ s (List.prefix_refl _) hs

/-- A wide glyph, a motion to its second column, and erasing to the end of the line. -/
def eraseFromSpacer : List Call :=
  [.feed [0xe4, 0xb8, 0xad, 0x1b, 0x5b, 0x32, 0x47, 0x1b, 0x5b, 0x4b]]

theorem changes_eraseFromSpacer : Call.changes eraseFromSpacer =
    [.obey (.print '中'), .obey (.moveToColumn 2), .obey (.erase .lineToEnd)] := by
  decide +kernel

theorem atMostTwoColumns_eraseFromSpacer : AtMostTwoColumns eraseFromSpacer := by
  intro c hc width hcolumns
  rw [changes_eraseFromSpacer] at hc
  simp only [List.mem_cons, Screen.Change.obey.injEq, Instruction.print.injEq, reduceCtorEq,
    List.not_mem_nil, or_false] at hc
  obtain rfl := hc
  rw [show Width.columns? '中' = some 2 by decide +kernel] at hcolumns
  exact Nat.le_of_eq (Option.some.inj hcolumns).symm

/-- The erase begins at a spacer, and leaves its glyph. -/
theorem not_avoids_cuts_eraseFromSpacer :
    ¬ (Screen.blank ⟨1, 4⟩).Avoids Screen.Change.Cuts (Call.changes eraseFromSpacer) := by
  intro hfree
  rw [changes_eraseFromSpacer] at hfree
  have hcuts : ((Screen.blank ⟨1, 4⟩).changeAll? [.obey (.print '中'), .obey (.moveToColumn 2)]).map
      (fun s => s.cuts .lineToEnd) = some true := by decide +kernel
  obtain ⟨s, hs, hs'⟩ := Option.map_eq_some_iff.mp hcuts
  exact hfree _ (.obey (.erase .lineToEnd)) s (List.prefix_refl _) hs ⟨.lineToEnd, rfl, hs'⟩

/-- Erasing from the second column of a wide glyph on tears it apart: the screen is not paired all
along, nor at the end. -/
theorem not_paired_eraseFromSpacer :
    AtMostTwoColumns eraseFromSpacer ∧
      ¬ (Screen.blank ⟨1, 4⟩).Along Screen.Paired (Call.changes eraseFromSpacer) ∧
      ∃ e, (ofDimensions ⟨1, 4⟩).operateAll? (eraseFromSpacer.map .call) = some e ∧
        ¬ e.screen.Paired := by
  have hw := atMostTwoColumns_eraseFromSpacer
  refine ⟨hw, fun halong => ?_, ?_⟩
  · exact not_avoids_cuts_eraseFromSpacer ((paired_all_along_iff_no_cut hw).1.mp halong)
  · have hcells : ((ofDimensions ⟨1, 4⟩).operateAll? (eraseFromSpacer.map .call)).map
        (fun e => e.screen.lines.any fun l =>
          l[0]?.any (fun c => Width.columns? c.character == some 2) &&
            !Line.spacerAt l 1) = some true := by decide +kernel
    obtain ⟨e, he, hlines⟩ := Option.map_eq_some_iff.mp hcells
    obtain ⟨l, hmem, hl⟩ := List.any_eq_true.mp hlines
    obtain ⟨hfirst, hsecond⟩ := (Bool.and_eq_true _ _).mp hl
    obtain ⟨c, hget, hwide⟩ := Option.any_eq_true _ _ |>.mp hfirst
    refine ⟨e, he, fun hp => ?_⟩
    -- the line begins with a character of two columns that no spacer follows
    have hspacer := Line.spacerAt_eq_true_iff.mpr
      ((hp l hmem).followed 0 c hget (beq_iff_eq.mp hwide))
    rw [hspacer] at hsecond
    cases hsecond

end Emulator

end VirtualTerminal
