import VirtualTerminal.Proofs.WellFormed

/-!
# Run — sequences of operations

A program that holds an emulator may feed it bytes, end the stream, change the size, or work on the
screen directly.  Such a sequence is read into changes of the screen, and what is read depends on
the bytes alone; so a run of the emulator is a run of its screen (`operateAll?_eq`).

Every change keeps a screen well formed (`WellFormed.changeAll?`).  An operation without a result
ends the run; one that is refused, such as an empty size, changes nothing.

A property of the screens on the way (`Screen.Along`) is decided step by step: it holds all along if
every change keeps it (`Screen.along_of_kept`); and where every change keeps it exactly if it does
no harm, a run keeps it exactly if it avoids harm (`Screen.along_iff_avoids`).
-/

namespace VirtualTerminal

namespace Screen

/-- A change of a screen. -/
inductive Change where
  | obey (i : Instruction)
  /-- Sets the style outright. -/
  | setStyle (style : Style)
  | putCell (row col : Nat) (c : Cell)
  | resize (d : Dimensions)
deriving DecidableEq, Repr

/-- Makes a change; a place outside the grid and an empty size are refused. -/
def change? (s : Screen) : Change → Option Screen
  | .obey i => i.obey? s
  | .setStyle style => some (s.setStyle style)
  | .putCell row col c => some ((s.putCell? row col c).getD s)
  | .resize d => some ((s.resize? d).getD s)

/-- Makes changes one after another. -/
def changeAll? : List Change → Screen → Option Screen
  | [], s => some s
  | c :: rest, s => (s.change? c).bind (changeAll? rest)

/-- Changes in two parts are made one part after the other. -/
theorem changeAll?_append (a b : List Change) (s : Screen) :
    s.changeAll? (a ++ b) = (s.changeAll? a).bind (changeAll? b) := by
  induction a generalizing s with
  | nil => rfl
  | cons c a ih =>
    rw [List.cons_append, changeAll?, changeAll?, Option.bind_assoc]
    exact congrArg _ (funext ih)

theorem changeAll?_map_obey (is : List Instruction) (s : Screen) :
    s.changeAll? (is.map .obey) = s.obeyAll? is := by
  induction is generalizing s with
  | nil => rfl
  | cons i is ih =>
    rw [List.map_cons, changeAll?, obeyAll?]
    exact congrArg _ (funext ih)

namespace WellFormed

variable {s s' : Screen}

/-- An operation that has no result leaves the screen as it is. -/
theorem getD (h : s.WellFormed) {o : Option Screen} (ho : ∀ s', o = some s' → s'.WellFormed) :
    (o.getD s).WellFormed := by
  cases o with
  | none => exact h
  | some s' => exact ho s' rfl

/-- **One change** keeps the screen well formed. -/
theorem change? (h : s.WellFormed) {c : Change} (hs : s.change? c = some s') : s'.WellFormed := by
  cases c with
  | obey i => exact h.obey? hs
  | setStyle style => exact Option.some.inj hs ▸ h.of_eq rfl rfl rfl rfl
  | putCell row col c => exact Option.some.inj hs ▸ h.getD fun _ => h.putCell?
  | resize d => exact Option.some.inj hs ▸ h.getD fun _ => h.resize?

/-- **A run of changes** keeps the screen well formed. -/
theorem changeAll? (h : s.WellFormed) {cs : List Change} (hs : s.changeAll? cs = some s') :
    s'.WellFormed := by
  induction cs generalizing s with
  | nil => exact Option.some.inj hs ▸ h
  | cons c cs ih =>
    obtain ⟨s₁, h₁, h₂⟩ := Option.bind_eq_some_iff.mp hs
    exact ih (h.change? h₁) h₂

end WellFormed

/-! ### Screens on the way -/

/-- Each screen that the changes lead to has the property, the first and the last included. -/
def Along (P : Screen → Prop) (s : Screen) (cs : List Change) : Prop :=
  ∀ before s', before <+: cs → s.changeAll? before = some s' → P s'

/-- None of the changes is made on a screen where it does harm. -/
def Avoids (harm : Change → Screen → Prop) (s : Screen) (cs : List Change) : Prop :=
  ∀ before c s', before ++ [c] <+: cs → s.changeAll? before = some s' → ¬ harm c s'

section OnTheWay
variable {s s' : Screen} {c : Change} {cs : List Change} {P : Screen → Prop}
  {harm harm' : Change → Screen → Prop}

theorem along_nil : s.Along P [] ↔ P s := by
  refine ⟨fun h => h [] s List.nil_prefix rfl, ?_⟩
  intro hp before s' hpre hrun
  obtain rfl := List.prefix_nil.mp hpre
  exact Option.some.inj hrun ▸ hp

/-- What holds along a run holds before its first change and along the rest. -/
theorem along_cons :
    s.Along P (c :: cs) ↔ P s ∧ ∀ s₁, s.change? c = some s₁ → s₁.Along P cs := by
  constructor
  · intro h
    refine ⟨h [] s List.nil_prefix rfl, fun s₁ hs₁ before s' hpre hrun => ?_⟩
    refine h (c :: before) s' (List.cons_prefix_cons.mpr ⟨rfl, hpre⟩) ?_
    rw [changeAll?, hs₁, Option.bind_some, hrun]
  · rintro ⟨hp, h⟩ before s' hpre hrun
    rcases List.prefix_cons_iff.mp hpre with rfl | ⟨before, rfl, hpre'⟩
    · exact Option.some.inj hrun ▸ hp
    · obtain ⟨s₁, hs₁, hrun⟩ := Option.bind_eq_some_iff.mp hrun
      exact h s₁ hs₁ before s' hpre' hrun

/-- What follows from a property that holds all along a run holds all along it. -/
theorem Along.imp {Q : Screen → Prop} (halong : s.Along P cs) (himp : ∀ s', P s' → Q s') :
    s.Along Q cs :=
  fun before s' hpre hrun => himp s' (halong before s' hpre hrun)

/-- **What each step keeps, a run keeps**: a property that each change of a run keeps holds all
along the run. -/
theorem along_of_kept
    (hkeep : ∀ {s s' c}, s.WellFormed → c ∈ cs → s.change? c = some s' → P s → P s')
    (h : s.WellFormed) (hp : P s) : s.Along P cs := by
  induction cs generalizing s with
  | nil => exact along_nil.mpr hp
  | cons c cs ih =>
    refine along_cons.mpr ⟨hp, fun s₁ hs₁ => ?_⟩
    have hrest : ∀ {s s' c'}, s.WellFormed → c' ∈ cs → s.change? c' = some s' → P s → P s' :=
      fun h hc' => hkeep h (List.mem_cons_of_mem c hc')
    exact ih hrest (h.change? hs₁) (hkeep h List.mem_cons_self hs₁ hp)

theorem avoids_nil (s : Screen) : s.Avoids harm [] := by
  intro before c s' hpre
  exact absurd (List.prefix_nil.mp hpre) (List.append_ne_nil_of_right_ne_nil _ nofun)

/-- What a run avoids its first change avoids, and so does the rest. -/
theorem avoids_cons :
    s.Avoids harm (c :: cs) ↔
      ¬ harm c s ∧ ∀ s₁, s.change? c = some s₁ → s₁.Avoids harm cs := by
  constructor
  · intro h
    refine ⟨h [] c s (List.cons_prefix_cons.mpr ⟨rfl, List.nil_prefix⟩) rfl, ?_⟩
    intro s₁ hs₁ before c' s' hpre hrun
    refine h (c :: before) c' s' (List.cons_prefix_cons.mpr ⟨rfl, hpre⟩) ?_
    rw [changeAll?, hs₁, Option.bind_some, hrun]
  · rintro ⟨hc, h⟩ before c' s' hpre hrun
    cases before with
    | nil =>
      obtain ⟨rfl, -⟩ := List.cons_prefix_cons.mp hpre
      obtain rfl := Option.some.inj hrun
      exact hc
    | cons c'' before =>
      obtain ⟨rfl, hpre'⟩ := List.cons_prefix_cons.mp hpre
      obtain ⟨s₁, hs₁, hrun⟩ := Option.bind_eq_some_iff.mp hrun
      exact h s₁ hs₁ before c' s' hpre' hrun

/-- **What a step decides, a run decides.**  If each change of a run keeps the property exactly where
it does no harm, then the property holds all along the run exactly if the run avoids harm. -/
theorem along_iff_avoids
    (hstep : ∀ {s c s'}, s.WellFormed → c ∈ cs → s.change? c = some s' → P s →
      (P s' ↔ ¬ harm c s))
    (hnone : ∀ {s c}, s.change? c = none → ¬ harm c s) (h : s.WellFormed) (hp : P s) :
    s.Along P cs ↔ s.Avoids harm cs := by
  induction cs generalizing s with
  | nil => exact iff_of_true (along_nil.mpr hp) (avoids_nil s)
  | cons c cs ih =>
    have hrest : ∀ {s c' s'}, s.WellFormed → c' ∈ cs → s.change? c' = some s' → P s →
        (P s' ↔ ¬ harm c' s) := fun h hc' => hstep h (List.mem_cons_of_mem c hc')
    rw [along_cons, avoids_cons]
    cases hs : s.change? c with
    | none =>
      -- the run ends here
      refine iff_of_true ⟨hp, fun s₁ hs₁ => ?_⟩ ⟨hnone hs, fun s₁ hs₁ => ?_⟩
      · cases hs₁
      · cases hs₁
    | some s₁ =>
      have hiff := hstep h List.mem_cons_self hs hp
      have h₁ := h.change? hs
      simp only [Option.some.injEq, forall_eq']
      constructor
      · rintro ⟨-, halong⟩
        have hp₁ : P s₁ := halong [] s₁ List.nil_prefix rfl
        exact ⟨hiff.mp hp₁, (ih hrest h₁ hp₁).mp halong⟩
      · rintro ⟨hc, havoids⟩
        exact ⟨hp, (ih hrest h₁ (hiff.mpr hc)).mpr havoids⟩

/-- What does harm only where the property is lost is avoided by a run that keeps the property. -/
theorem Avoids.of_keeps
    (hkeep : ∀ {s c s'}, s.WellFormed → P s → ¬ harm c s → s.change? c = some s' → P s')
    (hharm : ∀ {s c}, P s → ¬ harm' c s) (h : s.WellFormed) (hp : P s) (hcs : s.Avoids harm cs) :
    s.Avoids harm' cs := by
  induction cs generalizing s with
  | nil => exact avoids_nil s
  | cons c cs ih =>
    obtain ⟨hc, hrest⟩ := avoids_cons.mp hcs
    refine avoids_cons.mpr ⟨hharm hp, fun s₁ hs₁ => ?_⟩
    exact ih (h.change? hs₁) (hkeep h hp hc hs₁) (hrest s₁ hs₁)

end OnTheWay

end Screen

/-! ### Operations of the emulator -/

/-- A call of the emulator. -/
inductive Call where
  | feed (chunk : List UInt8)
  | finish
  | resize (d : Dimensions)
deriving DecidableEq, Repr

/-- A call of the emulator, or a change of its screen behind its back. -/
inductive Operation where
  | call (c : Call)
  | change (c : Screen.Change)
deriving DecidableEq, Repr

namespace Reader

/-- The reader after an operation, and the changes of the screen it means. -/
def operate (r : Reader) : Operation → Reader × List Screen.Change
  | .call (.feed chunk) => ((r.feed chunk).1, (r.feed chunk).2.map .obey)
  | .call .finish => (r.finish.1, r.finish.2.map .obey)
  | .call (.resize d) => (r, [.resize d])
  | .change c => (r, [c])

/-- The reader after a sequence of operations, and the changes of the screen they mean. -/
def operateAll : List Operation → Reader → Reader × List Screen.Change
  | [], r => (r, [])
  | op :: rest, r =>
    ((operateAll rest (r.operate op).1).1,
      (r.operate op).2 ++ (operateAll rest (r.operate op).1).2)

/-- Calls ask for instructions and sizes; they overwrite no cell directly. -/
theorem mem_operateAll_calls {calls : List Call} (r : Reader) :
    ∀ c ∈ (r.operateAll (calls.map .call)).2, (∃ i, c = .obey i) ∨ ∃ d, c = .resize d := by
  induction calls generalizing r with
  | nil =>
    intro c hc
    cases hc
  | cons call calls ih =>
    intro c hc
    rcases List.mem_append.mp hc with hc | hc
    · rcases call with chunk | _ | d
      · obtain ⟨i, -, rfl⟩ := List.mem_map.mp hc
        exact .inl ⟨i, rfl⟩
      · obtain ⟨i, -, rfl⟩ := List.mem_map.mp hc
        exact .inl ⟨i, rfl⟩
      · exact .inr ⟨d, List.mem_singleton.mp hc⟩
    · exact ih _ c hc

end Reader

namespace Emulator

/-- Carries out a call; an empty size is refused. -/
def call? (e : Emulator) : Call → Option Emulator
  | .feed chunk => (e.feed? chunk).map Prod.fst
  | .finish => e.finish?.map Prod.fst
  | .resize d => some ((e.resize? d).getD e)

/-- Carries out an operation. -/
def operate? (e : Emulator) : Operation → Option Emulator
  | .call c => e.call? c
  | .change c => (e.screen.change? c).map fun screen => { e with screen := screen }

/-- Carries out operations one after another. -/
def operateAll? : List Operation → Emulator → Option Emulator
  | [], e => some e
  | op :: rest, e => (e.operate? op).bind (operateAll? rest)

/-- An operation changes the screen by what the reader makes of it. -/
theorem operate?_eq (e : Emulator) (op : Operation) :
    e.operate? op =
      (e.screen.changeAll? (e.reader.operate op).2).map (e.reader.operate op).1.emulator := by
  cases op with
  | call c =>
    cases c with
    | feed chunk =>
      simp only [operate?, call?, feed?_eq, Reader.perform?, Reader.operate,
        Screen.changeAll?_map_obey, Option.map_map, Function.comp_def]
    | finish =>
      simp only [operate?, call?, finish?_eq, Reader.perform?, Reader.operate,
        Screen.changeAll?_map_obey, Option.map_map, Function.comp_def]
    | resize d =>
      simp only [operate?, call?, resize?, Reader.operate, Screen.changeAll?, Screen.change?]
      cases e.screen.resize? d <;> rfl
  | change c =>
    simp only [operate?, Reader.operate, Screen.changeAll?]
    cases e.screen.change? c <;> rfl

/-- **A run of the emulator is a run of its screen.** -/
theorem operateAll?_eq (ops : List Operation) (e : Emulator) :
    e.operateAll? ops =
      (e.screen.changeAll? (e.reader.operateAll ops).2).map
        (e.reader.operateAll ops).1.emulator := by
  induction ops generalizing e with
  | nil => rfl
  | cons op ops ih =>
    rw [operateAll?, operate?_eq, Reader.operateAll, Screen.changeAll?_append, Option.bind_map,
      Option.map_bind]
    exact congrArg _ (funext fun s => ih _)

end Emulator

end VirtualTerminal
