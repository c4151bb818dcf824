import VirtualTerminal.Proofs.Table.Run

/-!
# Table — Calls

The steps of a call, if nobody else takes one between them, do what the manager does in one go: for a
listing (`run_list`), for closing a session (`run_close`), and for closing all (`run_closeAll`).  A
session that is closed begins first, if it has not, and takes the request to shut down.
-/

namespace VirtualTerminal

namespace Session

variable {ω η : Type} [Host ω η] {t : Session η}

omit [Host ω η] in
/-- A session that has begun is starting no more. -/
theorem status_begin_ne_starting (t : Session η) : t.begin.status ≠ .starting := by
  rw [begin]
  split
  · exact SessionStatus.noConfusion
  · assumption

/-- It makes no difference to a session that is stopped whether it began before. -/
theorem terminate_begin (h : t.Sound) (w : ω) : t.begin.terminate w = t.terminate w := by
  rcases h with h | ⟨⟨is, h⟩, -⟩
  · have hbegin : t.begin = { t with status := .running } := if_pos h.status
    have hphase : t.begin.phase = .reading := hbegin ▸ h.phase
    rw [terminate_reading h.phase, terminate_reading hphase, hbegin]
    rfl
  · rw [begin_of_ne h.status_ne_starting]

/-- Nothing is left of the task of a session that is stopped. -/
theorem phase_terminate (t : Session η) (w : ω) : (t.terminate w).1.phase = .gone := by
  by_cases hphase : t.phase = .reading
  · rw [terminate_reading hphase]
  · rw [terminate_unread hphase]

theorem id_terminate (t : Session η) (w : ω) : (t.terminate w).1.id = t.id :=
  (turn_terminate (.inl rfl) t w).id_eq

/-- A session stays sound when it is stopped. -/
theorem Sound.terminate (h : t.Sound) (w : ω) : (t.terminate w).1.Sound := by
  rw [← terminate_begin h]
  exact (turn_terminate (i := .shutdown) (.inl rfl) t.begin w).sound h.begin
    t.status_begin_ne_starting rfl

end Session

namespace Manager

variable {ω η : Type} [Host ω η] {m : Manager η} {t : Session η} {id : SessionId}

section Update
omit [Host ω η]

/-- Of two updates of one session the later one counts. -/
theorem update_update (m : Manager η) {t t' : Session η} (hid : t.id = t'.id) :
    (m.update t).update t' = m.update t' := by
  simp only [update, List.map_map]
  congr 1
  refine List.map_congr_left fun t₀ _ => ?_
  show (if (if t₀.id = t.id then t else t₀).id = t'.id then t' else _) = _
  by_cases h : t₀.id = t.id
  · simp [h, hid]
  · simp [h, hid ▸ h]

/-- An updated session is found as it is now. -/
theorem session?_update (ht : m.session? id = some t) {t' : Session η} (hid : t'.id = id) :
    (m.update t').session? id = some t' := by
  have hsame : ∀ t₀ : Session η, ((if t₀.id = t'.id then t' else t₀).id == id) = (t₀.id == id) := by
    intro t₀
    by_cases h : t₀.id = t'.id
    · rw [if_pos h, h]
    · rw [if_neg h]
  have hold : (m.sessions.find? fun t₀ => t₀.id == id) = some t := ht
  rw [session?, update, List.find?_map]
  simp only [Function.comp_def, hsame, hold, Option.map_some]
  rw [if_pos ((mem_sessions_of_session? ht).2.trans hid.symm)]

end Update

/-- Closing a session that is in the table stops it and takes it out. -/
theorem closeSession_of_found (ht : m.getSession id = .ok t) (w : ω) :
    m.closeSession id w = (((m.update (t.terminate w).1).untrack id, .ok ()), (t.terminate w).2) := by
  rw [closeSession, ht]
  rfl

/-- Closing a session that is not there changes nothing. -/
theorem closeSession_of_error {e : Error} (he : m.getSession id = .error e) (w : ω) :
    m.closeSession id w = ((m, .error e), w) := by
  rw [closeSession, he]
  rfl

end Manager

namespace Shared

variable {ω η : Type} [Host ω η] {s : Shared η} {c : Nat} {id : SessionId}

theorem run_cons (a : Action) (as : List Action) (s : Shared η) (w : ω) :
    run (a :: as) s w = run as (s.step a w).1 (s.step a w).2 := rfl

/-- Actions one after the other: the second ones start where the first ones end. -/
theorem run_append (as more : List Action) (s : Shared η) (w : ω) :
    run (as ++ more) s w = run more (run as s w).1 (run as s w).2 := by
  induction as generalizing s w with
  | nil => rfl
  | cons a as ih => exact ih _ _

omit [Host ω η] in
/-- A client can call while nobody lists and it is about nothing else. -/
theorem canCall_iff : s.canCall c = true ↔ s.listing = none ∧ s.errands c = .idle := by
  rw [canCall, isUnlocked, Bool.and_eq_true, Option.isNone_iff_eq_none, decide_eq_true_iff]

/-! ### Closing sessions -/

section Steps
variable {left : Option (List SessionId)} {t : Session η}

theorem step_begin (ht : s.manager.session? id = some t) (w : ω) :
    s.step (.begin id) w = ({ s with manager := s.manager.update t.begin }, w) := by
  simp only [step, begin, ht]
  rfl

/-- A session that has begun takes its inputs itself. -/
theorem step_input (ht : s.manager.session? id = some t) (hbegun : t.status ≠ .starting)
    (i : Session.Input) (w : ω) :
    s.step (.input id i) w =
      ({ s with manager := s.manager.update (t.react i w).1 }, (t.react i w).2) := by
  simp only [step, input, ht, hbegun, if_false]
  rfl

/-- A client that sees its session stopped takes it out, and is told so. -/
theorem step_remove (hunlocked : s.listing = none) (herrand : s.errands c = .stopping id left)
    (ht : s.manager.session? id = some t) (hphase : t.phase = .gone) (w : ω) :
    s.step (.remove c) w =
      (({ s with manager := s.manager.untrack id }.send c (.after left)).answer c (.closed id),
        w) := by
  have hstopped : s.manager.hasStopped id = true := by
    rw [Manager.hasStopped, ht]
    exact decide_eq_true hphase
  simp only [step, isUnlocked, hunlocked, remove, herrand, hstopped, Option.isNone_none, if_true]
  rfl

/-- A client that waits for a session to stop sees it stopped, and takes it out of the table. -/
theorem run_stop (herrand : s.errands c = .stopping id left) (hunlocked : s.listing = none)
    (ht : s.manager.session? id = some t) (hsound : t.Sound) (w : ω) :
    run [.begin id, .input id .shutdown, .remove c] s w =
      (({ s with manager := (s.manager.update (t.terminate w).1).untrack id }.send c
        (.after left)).answer c (.closed id), (t.terminate w).2) := by
  have hid := (Manager.mem_sessions_of_session? ht).2
  have hbegun : (s.manager.update t.begin).session? id = some t.begin :=
    Manager.session?_update ht (t.id_begin.trans hid)
  have hstopped : (s.manager.update (t.terminate w).1).session? id = some (t.terminate w).1 :=
    Manager.session?_update ht ((t.id_terminate w).trans hid)
  have hreact : t.begin.react .shutdown w = t.terminate w := Session.terminate_begin hsound w
  have hupdate : (s.manager.update t.begin).update (t.terminate w).1 =
      s.manager.update (t.terminate w).1 :=
    Manager.update_update _ (t.id_begin.trans (t.id_terminate w).symm)
  rw [run_cons, step_begin ht, run_cons,
    step_input (s := { s with manager := s.manager.update t.begin }) hbegun
      t.status_begin_ne_starting, hreact, hupdate, run_cons,
    step_remove (s := { s with manager := s.manager.update (t.terminate w).1 }) hunlocked herrand
      hstopped (t.phase_terminate w)]
  rfl

end Steps

section Send
omit [Host ω η]

theorem send_send (s : Shared η) (c : Nat) (e e' : Errand) :
    (s.send c e).send c e' = s.send c e' := by
  simp only [send]
  congr 1
  funext other
  split <;> rfl

/-- A client that is sent where it is stays there. -/
theorem send_self {e : Errand} (h : s.errands c = e) : s.send c e = s := by
  have hsame : (fun other => if other = c then e else s.errands other) = s.errands := by
    funext other
    split
    · next hother => rw [hother, h]
    · rfl
  rw [send, hsame]

/-- What a client was about before does not matter. -/
theorem send_with (s : Shared η) (m : Manager η) (answers : List (Nat × Answer)) (c : Nat)
    (e e' : Errand) : { s.send c e with manager := m, answers := answers }.send c e' =
      { s with manager := m, answers := answers }.send c e' :=
  send_send { s with manager := m, answers := answers } c e e'

theorem errands_send (s : Shared η) (c : Nat) (e : Errand) : (s.send c e).errands c = e :=
  if_pos rfl

end Send

/-- **Closing a session**, step by step, is closing it in one go. -/
theorem run_close {t : Session η} (hcan : s.canCall c = true)
    (ht : s.manager.getSession id = .ok t) (hsound : t.Sound) (w : ω) :
    run [.close c id, .begin id, .input id .shutdown, .remove c] s w =
      ({ s with manager := (s.manager.closeSession id w).1.1 }.answer c (.closed id),
        (s.manager.closeSession id w).2) := by
  obtain ⟨hunlocked, hidle⟩ := canCall_iff.mp hcan
  have hclose : s.step (.close c id) w = (s.send c (.stopping id none), w) := by
    simp only [step, hcan, if_true, seek, ht]
    rfl
  have hdone : (({ s with
      manager := (s.manager.update (t.terminate w).1).untrack id }.send c
        (.stopping id none)).send c (.after none)) =
      { s with manager := (s.manager.update (t.terminate w).1).untrack id } := by
    rw [send_send]
    exact send_self hidle
  rw [run_cons, hclose, run_stop (errands_send s c _) hunlocked
    (Manager.session?_of_getSession ht) hsound, Manager.closeSession_of_found ht]
  exact congrArg (fun s => (Shared.answer s c (.closed id), _)) hdone

/-- Who has no session left to close is done. -/
theorem step_allClosed (s : Shared η) (c : Nat) (w : ω) :
    (s.send c (.closing [])).step (.allClosed c) w = ((s.send c .idle).answer c .closedAll, w) := by
  simp only [step, allClosed, errands_send, send_send]
  rfl

/-- Who closes all sessions goes on to the first one that is left. -/
theorem step_next {left : List SessionId} (herrand : s.errands c = .closing (id :: left))
    (hunlocked : s.listing = none) (w : ω) :
    s.step (.next c id) w = (s.seek c id (some left), w) := by
  simp only [step, isUnlocked, hunlocked, Option.isNone_none, if_true, next, herrand,
    List.mem_cons_self, List.erase_cons_head]
  rfl

/-- Closing each session closes the first one and then the others. -/
theorem closeEach_cons (id : SessionId) (left : List SessionId) (m : Manager η) (w : ω) :
    Manager.closeEach (id :: left) m w =
      Manager.closeEach left (m.closeSession id w).1.1 (m.closeSession id w).2 := rfl

/-- What is left to be closed is closed one after another. -/
theorem run_closing (left : List SessionId) (herrand : s.errands c = .closing left)
    (hunlocked : s.listing = none) (hsound : ∀ t ∈ s.manager.sessions, t.Sound) (w : ω) :
    ∃ as answers, run as s w =
      ({ s with
          manager := (Manager.closeEach left s.manager w).1
          answers := s.answers ++ answers }.send c (.closing []),
        (Manager.closeEach left s.manager w).2) := by
  induction left generalizing s w with
  | nil =>
    refine ⟨[], [], ?_⟩
    rw [List.append_nil]
    exact congrArg (·, w) (send_self herrand).symm
  | cons id left ih =>
    rw [closeEach_cons]
    cases hfound : s.manager.getSession id with
    | error e =>
      have hnext : s.step (.next c id) w = (s.send c (.closing left), w) := by
        rw [step_next herrand hunlocked]
        simp only [seek, hfound]
      obtain ⟨as, answers, has⟩ := ih (s := s.send c (.closing left)) (errands_send s c _) hunlocked
        hsound w
      refine ⟨.next c id :: as, answers, ?_⟩
      rw [run_cons, hnext, has, Manager.closeSession_of_error hfound]
      exact congrArg (·, _) (send_with s _ _ c (.closing left) (.closing []))
    | ok t =>
      have hnext : s.step (.next c id) w = (s.send c (.stopping id (some left)), w) := by
        rw [step_next herrand hunlocked]
        simp only [seek, hfound]
      have ht := Manager.session?_of_getSession hfound
      have htSound := hsound t (Manager.mem_sessions_of_session? ht).1
      have hstop : run [.begin id, .input id .shutdown, .remove c]
            (s.send c (.stopping id (some left))) w =
          ({ s with
              manager := (s.manager.update (t.terminate w).1).untrack id
              answers := s.answers ++ [(c, Answer.closed id)] }.send c (.closing left),
            (t.terminate w).2) := by
        rw [run_stop (errands_send s c _) hunlocked ht htSound]
        exact congrArg (·, _) (send_with s _ (s.answers ++ [(c, Answer.closed id)]) c _ _)
      have hsound' : ∀ t' ∈ (s.manager.update (t.terminate w).1).sessions, t'.Sound := by
        intro t' ht'
        rcases Manager.mem_update ht' with rfl | hmem
        · exact htSound.terminate w
        · exact hsound t' hmem
      obtain ⟨as, answers, has⟩ := ih
        (s := { s with
          manager := (s.manager.update (t.terminate w).1).untrack id
          answers := s.answers ++ [(c, Answer.closed id)] }.send c (.closing left))
        (errands_send _ c _) hunlocked hsound' (t.terminate w).2
      refine ⟨.next c id :: ([.begin id, .input id .shutdown, .remove c] ++ as),
        [(c, Answer.closed id)] ++ answers, ?_⟩
      rw [run_cons, hnext, run_append, hstop, has, Manager.closeSession_of_found hfound,
        ← List.append_assoc]
      exact congrArg (·, _) (send_with _ _ (s.answers ++ [(c, Answer.closed id)] ++ answers) c _ _)

/-- **Closing all sessions**, step by step, is closing them in one go. -/
theorem run_closeAll (hcan : s.canCall c = true) (hsound : ∀ t ∈ s.manager.sessions, t.Sound)
    (w : ω) :
    ∃ as answers, run (.closeAll c :: (as ++ [.allClosed c])) s w =
      ({ s with
          manager := (s.manager.closeAll w).1
          answers := s.answers ++ answers }.answer c .closedAll, (s.manager.closeAll w).2) := by
  obtain ⟨hunlocked, hidle⟩ := canCall_iff.mp hcan
  have hcall : s.step (.closeAll c) w = (s.send c (.closing s.manager.tracked), w) := by
    simp only [step, hcan, if_true]
    rfl
  obtain ⟨as, answers, has⟩ := run_closing (s := s.send c (.closing s.manager.tracked))
    s.manager.tracked (errands_send s c _) hunlocked hsound w
  have hdone (m : Manager η) (answers : List (Nat × Answer)) (w : ω) :
      ({ s.send c (.closing s.manager.tracked) with manager := m, answers := answers }.send c
        (.closing [])).step (.allClosed c) w =
        ({ s with manager := m, answers := answers }.answer c .closedAll, w) := by
    rw [send_with, step_allClosed,
      send_self (s := { s with manager := m, answers := answers }) hidle]
  refine ⟨as, answers, ?_⟩
  rw [run_cons, hcall, run_append, has, run_cons, hdone]
  rfl

/-! ### Listing -/

section Reap
omit [Host ω η]

/-- Looking at one session of a listing takes out that session or none. -/
theorem reap_eq (m : Manager η) (id : SessionId) :
    m.reap id =
      { m with tracked := m.tracked.filter fun other => !(other == id && m.isFinished other) } := by
  rw [Manager.reap]
  cases hfinal : m.isFinished id with
  | true =>
    refine congrArg (fun tracked => { m with tracked := tracked }) ?_
    refine List.filter_congr fun other _ => ?_
    rw [bne]
    cases hother : other == id with
    | true => rw [eq_of_beq hother, hfinal]; rfl
    | false => rfl
  | false =>
    refine congrArg (fun tracked => { m with tracked := tracked }) ?_
    refine (List.filter_eq_self.mpr fun other _ => ?_).symm
    cases hother : other == id with
    | true => rw [eq_of_beq hother, hfinal]; rfl
    | false => rfl

/-- Looking at sessions one after another takes out those among them that have ended. -/
theorem foldl_reap (ids : List SessionId) (m : Manager η) :
    ids.foldl Manager.reap m =
      { m with tracked := m.tracked.filter fun id => !(ids.contains id && m.isFinished id) } := by
  induction ids generalizing m with
  | nil =>
    refine congrArg (fun tracked => { m with tracked := tracked }) ?_
    exact (List.filter_eq_self.mpr fun _ _ => rfl).symm
  | cons id ids ih =>
    have hfinished : ∀ tracked other,
        { m with tracked := tracked }.isFinished other = m.isFinished other := fun _ _ => rfl
    rw [List.foldl_cons, ih, reap_eq]
    simp only [hfinished, List.filter_filter, List.contains_cons]
    refine congrArg (fun tracked => { m with tracked := tracked }) ?_
    refine List.filter_congr fun other _ => ?_
    cases ids.contains other <;> cases other == id <;> cases m.isFinished other <;> rfl

end Reap

/-- A listing looks at its sessions one after another. -/
theorem run_looks {ids : List SessionId} (hlisting : s.listing = some (c, ids)) (w : ω) :
    run (ids.map .look) s w =
      ({ s with listing := some (c, []), manager := ids.foldl Manager.reap s.manager }, w) := by
  induction ids generalizing s with
  | nil => rw [← hlisting]; rfl
  | cons id ids ih =>
    have hlook : s.step (.look id) w =
        ({ s with listing := some (c, ids), manager := s.manager.reap id }, w) := by
      simp only [step, look, hlisting, List.mem_cons_self, if_true, List.erase_cons_head]
      rfl
    rw [List.map_cons, run_cons, hlook, ih rfl]
    rfl

/-- **Listing the sessions**, step by step, is listing them in one go. -/
theorem run_list (hcan : s.canCall c = true) (w : ω) :
    run (.list c :: (s.manager.tracked.map .look ++ [.listed])) s w =
      ({ s with manager := s.manager.list.1 }.answer c (.listed s.manager.list.2), w) := by
  obtain ⟨hunlocked, -⟩ := canCall_iff.mp hcan
  have hbegin : s.step (.list c) w = ({ s with listing := some (c, s.manager.tracked) }, w) := by
    simp only [step, hcan, if_true]
    rfl
  have hreaped : s.manager.tracked.foldl Manager.reap s.manager = s.manager.list.1 := by
    rw [foldl_reap]
    refine congrArg (fun tracked => { s.manager with tracked := tracked }) ?_
    refine List.filter_congr fun id hid => ?_
    rw [List.contains_iff_mem.mpr hid, Bool.true_and]
  rw [run_cons, hbegin, run_append, run_looks rfl, hreaped]
  show (({ s with listing := none, manager := s.manager.list.1 } : Shared η).answer c _, w) = _
  rw [← hunlocked]
  rfl

end Shared

end VirtualTerminal
