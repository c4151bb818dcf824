import Mathlib.Data.List.Nodup
import VirtualTerminal.Backend.Scripted
import VirtualTerminal.Proofs.Table.Basic

/-!
# Table — Run

What holds of a shared manager after every sequence of actions, if the names of the sessions are
distinct and no task fails in the middle.

* `Session.Sound`: a session has not begun, or it stands somewhere and is not gone without an end.
  Once it has ended it stays so (`Session.Turn.isFinished`).
* `Manager.Sound`: the table has room enough, and who is not in it has ended.  `Effect.sound`: each
  effect keeps this.
* `Sound.run`: so does every run, and what was closed is not in the table.

**The table keeps every session that has not ended** (`run_orderly`).
-/

namespace VirtualTerminal

/-! ### Sessions -/

namespace Session

variable {η : Type} {t t' : Session η} {i : Input} {es : List Event}

/-- The task has not begun, or it stands somewhere and is not gone without an end. -/
def Sound (t : Session η) : Prop := t.Unbegun ∨ (∃ is, Standing is t) ∧ ¬ t.Faulted

/-- Who stands somewhere has begun. -/
theorem Standing.status_ne_starting {is : List Input} (h : Standing is t) :
    t.status ≠ .starting := by
  cases h with
  | reading _ hstatus => exact hstatus ▸ by decide
  | faulted hfault => exact hfault.2 ▸ by decide
  | ended ending _ hstatus =>
    rw [hstatus]
    cases ending <;> exact SessionStatus.noConfusion

/-- A session that reads no more has ended, unless its task is gone without an end. -/
theorem Standing.isFinished_of_unread {is : List Input} (h : Standing is t) (hfault : ¬ t.Faulted)
    (hphase : t.phase ≠ .reading) : t.status.isFinished = true := by
  cases h with
  | reading hreading => exact absurd hreading hphase
  | faulted h => exact absurd h hfault
  | ended ending _ hstatus => exact hstatus ▸ ending.isFinished_status

/-- If nothing is left of its task, a sound session has ended. -/
theorem Sound.isFinished_of_gone (h : t.Sound) (hphase : t.phase = .gone) :
    t.status.isFinished = true := by
  rcases h with h | ⟨⟨is, h⟩, hfault⟩
  · rw [h.phase] at hphase
    cases hphase
  · exact h.isFinished_of_unread hfault (by rw [hphase]; exact SessionPhase.noConfusion)

theorem begin_of_ne (h : t.status ≠ .starting) : t.begin = t := if_neg h

/-- To begin keeps a session sound. -/
theorem Sound.begin (h : t.Sound) : t.begin.Sound := by
  rcases h with h | ⟨⟨is, h⟩, hfault⟩
  · have hbegin : t.begin = { t with status := .running } := if_pos h.status
    have hphase : t.begin.phase = .reading := hbegin ▸ h.phase
    refine .inr ⟨⟨[], .reading hphase ?_ ?_ rfl⟩, fun hgone => ?_⟩
    · rw [hbegin]
    · rw [hbegin]
      exact h.closed
    · exact SessionPhase.noConfusion (hphase.symm.trans hgone.1)
  · rw [begin_of_ne h.status_ne_starting]
    exact .inr ⟨⟨is, h⟩, hfault⟩

/-- A session that has ended does not begin again. -/
theorem isFinished_begin (h : t.status.isFinished = true) : t.begin.status.isFinished = true := by
  rw [begin_of_ne]
  · exact h
  · intro hstarting
    rw [hstarting] at h
    cases h

/-- **A task that does not fail in the middle** is not gone without an end. -/
theorem Turn.not_faulted {is : List Input} (h : Turn t i t' es) (hs : Standing is t)
    (hfault : ¬ t.Faulted) (hcalm : t.faults i = false) : ¬ t'.Faulted := by
  rintro ⟨hgone, hrunning⟩
  cases h with
  | unread | unmoved => exact hfault ⟨hgone, hrunning⟩
  | skipped hphase => exact SessionPhase.noConfusion (hphase.symm.trans hgone)
  | fed hphase =>
    rw [phase_shown, hphase] at hgone
    cases hgone
  | faulted hphase hi =>
    rcases hi with ⟨bytes, rfl, hbinary, hfeed⟩ | ⟨rfl, hfinish⟩
    · simp [faults, hphase, hbinary, hfeed] at hcalm
    · simp [faults, hphase, hfinish] at hcalm
  | resized hphase => exact hphase hgone
  | exited | failed => cases hgone
  | stopped => cases hrunning
  | released _ hphase =>
    have hfinal := hs.isFinished_of_unread hfault hphase
    have hstatus : t.status = .running := hrunning
    rw [hstatus] at hfinal
    cases hfinal

/-- **A turn keeps a session sound**, unless the task fails in it. -/
theorem Turn.sound (h : Turn t i t' es) (ht : t.Sound) (hbegun : t.status ≠ .starting)
    (hcalm : t.faults i = false) : t'.Sound := by
  obtain ⟨⟨is, hs⟩, hfault⟩ := ht.resolve_left fun hunbegun => hbegun hunbegun.status
  exact .inr ⟨⟨is ++ [i], h.standing hs⟩, h.not_faulted hs hfault hcalm⟩

/-- **A session that has ended stays so.** -/
theorem Turn.isFinished (h : Turn t i t' es) (ht : t.Sound) (hbegun : t.status ≠ .starting)
    (hfinal : t.status.isFinished = true) : t'.status.isFinished = true := by
  obtain ⟨⟨is, hs⟩, -⟩ := ht.resolve_left fun hunbegun => hbegun hunbegun.status
  obtain ⟨-, phase, rfl⟩ := h.idle_of_finished hs hfinal
  exact hfinal

/-- To begin does not change the name. -/
theorem id_begin (t : Session η) : t.begin.id = t.id := by
  rw [begin]
  split <;> rfl

/-- A session keeps its name. -/
theorem Turn.id_eq (h : Turn t i t' es) : t'.id = t.id := by
  cases h with
  | fed => rw [shown_eq]
  | @exited e o _ _ now code =>
    show (t.flushed e o now).id = t.id
    rw [flushed]
    split
    · rfl
    · rw [shown_eq]
  | _ => rfl

end Session

/-! ### The table -/

namespace Manager

variable {η : Type} {m : Manager η} {t : Session η} {id : SessionId}

/-- The names of all sessions that were started. -/
def ids (m : Manager η) : List SessionId := m.sessions.map Session.id

/-- The table of a manager with a configuration has no more sessions than it allows, all of them
started by the manager, and every other session has ended. -/
structure Sound (config : Config) (m : Manager η) : Prop where
  config_eq : m.config = config
  room : m.count ≤ config.server.maxSessions
  sessions : ∀ t ∈ m.sessions, t.Sound
  known : ∀ id ∈ m.tracked, id ∈ m.ids
  dropped : ∀ t ∈ m.sessions, t.id ∉ m.tracked → t.status.isFinished = true

/-- A session that is found is one of the sessions, and has the name. -/
theorem mem_sessions_of_session? (h : m.session? id = some t) : t ∈ m.sessions ∧ t.id = id := by
  refine ⟨List.mem_of_find?_eq_some h, ?_⟩
  have hid := List.find?_some h
  exact beq_iff_eq.mp hid

/-- What the table has is one of the sessions that were started. -/
theorem session?_of_getSession (h : m.getSession id = .ok t) : m.session? id = some t := by
  rw [getSession] at h
  split at h
  · split at h
    · next ht => exact ht.trans (congrArg some (Except.ok.inj h))
    · cases h
  · cases h

/-- Every name that was given is found. -/
theorem exists_session?_of_mem (h : id ∈ m.ids) : ∃ t, m.session? id = some t := by
  obtain ⟨t, ht, rfl⟩ := List.mem_map.mp h
  refine Option.isSome_iff_exists.mp (List.find?_isSome.mpr ⟨t, ht, ?_⟩)
  exact beq_self_eq_true t.id

/-- Distinct names tell the sessions apart. -/
theorem session?_eq_of_mem (hids : m.ids.Nodup) (ht : t ∈ m.sessions) :
    m.session? t.id = some t := by
  obtain ⟨t', ht'⟩ := exists_session?_of_mem (List.mem_map_of_mem ht)
  obtain ⟨hmem, hid⟩ := mem_sessions_of_session? ht'
  rw [ht', List.inj_on_of_nodup_map hids hmem ht hid]

/-- An update gives no names and takes none. -/
theorem ids_update (m : Manager η) (t : Session η) : (m.update t).ids = m.ids := by
  rw [ids, update, List.map_map]
  refine List.map_congr_left fun t' _ => ?_
  show (if t'.id = t.id then t else t').id = t'.id
  split
  · exact Eq.symm ‹_›
  · rfl

/-- A session after an update is the new one or was there before. -/
theorem mem_update {t' : Session η} (h : t' ∈ (m.update t).sessions) : t' = t ∨ t' ∈ m.sessions := by
  obtain ⟨t₀, ht₀, rfl⟩ := List.mem_map.mp h
  split
  · exact .inl rfl
  · exact .inr ht₀

variable {config : Config}

/-- Updating a session to a sound one that has not come back to life. -/
theorem Sound.update (h : m.Sound config) {t' : Session η} (ht : t ∈ m.sessions)
    (hid : t'.id = t.id) (hsound : t'.Sound)
    (hstays : t.status.isFinished = true → t'.status.isFinished = true) :
    (m.update t').Sound config where
  config_eq := h.config_eq
  room := h.room
  sessions t'' ht'' := by
    rcases mem_update ht'' with rfl | hmem
    · exact hsound
    · exact h.sessions t'' hmem
  known id hid := (m.ids_update t').symm ▸ h.known id hid
  dropped t'' ht'' hdropped := by
    rcases mem_update ht'' with rfl | hmem
    · exact hstays (h.dropped t ht (hid ▸ hdropped))
    · exact h.dropped t'' hmem hdropped

/-- A session that has ended can leave the table. -/
theorem Sound.untrack (h : m.Sound config) (hids : m.ids.Nodup)
    (hfinal : ∀ t, m.session? id = some t → t.status.isFinished = true) :
    (m.untrack id).Sound config where
  config_eq := h.config_eq
  room := Nat.le_trans (List.length_filter_le _ _) h.room
  sessions := h.sessions
  known id' hid' := h.known id' (List.mem_filter.mp hid').1
  dropped t ht hdropped := by
    by_cases hid : t.id = id
    · exact hfinal t (hid ▸ session?_eq_of_mem hids ht)
    · refine h.dropped t ht fun htracked => hdropped ?_
      exact List.mem_filter.mpr ⟨htracked, bne_iff_ne.mpr hid⟩

/-- A session is added where there is room for it. -/
theorem Sound.add (h : m.Sound config) (registry : Registry) (ht : t.Unbegun)
    (hroom : m.count < config.server.maxSessions) :
    Sound config { m with
      registry := registry, sessions := m.sessions ++ [t], tracked := m.tracked ++ [t.id] } where
  config_eq := h.config_eq
  room := by
    rw [count, List.length_append]
    exact hroom
  sessions t' ht' := by
    rcases List.mem_append.mp ht' with hmem | hmem
    · exact h.sessions t' hmem
    · exact List.mem_singleton.mp hmem ▸ .inl ht
  known id hid := by
    rw [ids, List.map_append]
    rcases List.mem_append.mp hid with hmem | hmem
    · exact List.mem_append_left _ (h.known id hmem)
    · exact List.mem_append_right _ hmem
  dropped t' ht' hdropped := by
    obtain ⟨hold, hnew⟩ := not_or.mp (mt List.mem_append.mpr hdropped)
    rcases List.mem_append.mp ht' with hmem | hmem
    · exact h.dropped t' hmem hold
    · rw [List.mem_singleton.mp hmem] at hnew
      exact absurd (List.mem_singleton_self _) hnew

theorem isFinished_status (hfinal : m.isFinished id = true) (ht : m.session? id = some t) :
    t.status.isFinished = true := by
  rw [isFinished, ht] at hfinal
  exact hfinal

/-- Nothing is left of the task of a session that has stopped. -/
theorem phase_of_hasStopped (hstopped : m.hasStopped id = true) (ht : m.session? id = some t) :
    t.phase = .gone := by
  rw [hasStopped, ht] at hstopped
  exact of_decide_eq_true hstopped

end Manager

/-! ### Runs -/

namespace Shared

variable {ω η : Type} [Host ω η] {config : Config} {s s' : Shared η} {a : Action}
  {m' : Manager η} {c : Nat} {id : SessionId}

/-- **Each effect keeps the table sound**, if no task fails in the middle. -/
theorem Effect.sound (h : Effect s a m') (hs : s.manager.Sound config)
    (hids : s.manager.ids.Nodup) (hcalm : s.faults a = false) : m'.Sound config := by
  cases h with
  | none => exact hs
  | refused => exact ⟨hs.config_eq, hs.room, hs.sessions, hs.known, hs.dropped⟩
  | added registry hroom ht => exact hs.add registry ht (hs.config_eq ▸ hroom)
  | @begun id t ht =>
    obtain ⟨hmem, -⟩ := Manager.mem_sessions_of_session? ht
    exact hs.update hmem t.id_begin (hs.sessions t hmem).begin Session.isFinished_begin
  | turned ht hbegun hturn =>
    obtain ⟨hmem, -⟩ := Manager.mem_sessions_of_session? ht
    have hsound := hs.sessions _ hmem
    rw [faults, ht] at hcalm
    exact hs.update hmem hturn.id_eq (hturn.sound hsound hbegun hcalm)
      (hturn.isFinished hsound hbegun)
  | reaped _ hfinal => exact hs.untrack hids fun t ht => Manager.isFinished_status hfinal ht
  | removed _ hstopped =>
    refine hs.untrack hids fun t ht => ?_
    have hsound := hs.sessions t (Manager.mem_sessions_of_session? ht).1
    exact hsound.isFinished_of_gone (Manager.phase_of_hasStopped hstopped ht)

/-- Sessions are added behind the others, and keep their names. -/
theorem Effect.ids_isPrefix (h : Effect s a m') : s.manager.ids <+: m'.ids := by
  cases h with
  | none | refused | reaped | removed => exact List.prefix_refl _
  | begun | turned => exact (Manager.ids_update _ _).symm ▸ List.prefix_refl _
  | added => exact ⟨_, (List.map_append).symm⟩

/-- In every run sessions are added behind the others. -/
theorem ids_run_isPrefix (as : List Action) (s : Shared η) (w : ω) :
    s.manager.ids <+: (run as s w).1.manager.ids := by
  induction as generalizing s w with
  | nil => exact List.prefix_refl _
  | cons a as ih => exact (effect_step s a w).ids_isPrefix.trans (ih _ _)

/-- What clients are about and what they were told after an action: who waits for a session to stop
has found it, and only who waited for a session is told that it is closed. -/
structure Honest (s s' : Shared η) : Prop where
  errands : ∀ c id left, s'.errands c = .stopping id left →
    s.errands c = .stopping id left ∨ id ∈ s.manager.ids
  closed : ∀ c id, (c, .closed id) ∈ s'.answers → (c, .closed id) ∈ s.answers ∨
    (∃ left, s.errands c = .stopping id left) ∧ s'.manager = s.manager.untrack id

section Honest
omit [Host ω η]

/-- An action that concerns no client. -/
theorem Honest.of_eq (herrands : s'.errands = s.errands) (hanswers : s'.answers = s.answers) :
    Honest s s' :=
  ⟨fun _ _ _ h => .inl (herrands ▸ h), fun _ _ h => .inl (hanswers ▸ h)⟩

/-- Any other answer than that a session is closed may be given. -/
theorem Honest.answer (h : Honest s s') (c : Nat) {a : Answer} (ha : ∀ id, a ≠ .closed id) :
    Honest s (s'.answer c a) := by
  refine ⟨h.errands, fun c' id hmem => ?_⟩
  rcases List.mem_append.mp hmem with hold | hnew
  · exact h.closed c' id hold
  · exact absurd (congrArg Prod.snd (List.mem_singleton.mp hnew)).symm (ha id)

/-- A client may be sent to wait for a session that was started. -/
theorem Honest.send (h : Honest s s') (c : Nat) {e : Errand}
    (he : ∀ id left, e = .stopping id left → id ∈ s.manager.ids) : Honest s (s'.send c e) := by
  refine ⟨fun c' id left herrand => ?_, h.closed⟩
  rw [Shared.send] at herrand
  dsimp only at herrand
  split at herrand
  · exact .inr (he id left herrand)
  · exact h.errands c' id left herrand

theorem honest_refl (s : Shared η) : Honest s s := .of_eq rfl rfl

theorem honest_with (s : Shared η) (m : Manager η) (listing : Option (Nat × List SessionId)) :
    Honest s { s with manager := m, listing := listing } := .of_eq rfl rfl

theorem Honest.ite {p : Prop} [Decidable p] (h : Honest s s') :
    Honest s (if p then s' else s) := by
  split
  · exact h
  · exact honest_refl s

/-- A client that looks for a session waits for it only if it is found. -/
theorem honest_seek (s : Shared η) (c : Nat) (id : SessionId) (left : Option (List SessionId)) :
    Honest s (s.seek c id left) := by
  cases hfound : s.manager.getSession id with
  | ok t =>
    simp only [seek, hfound]
    refine (honest_refl s).send c fun id' left' he => ?_
    cases he
    obtain ⟨hmem, hid⟩ :=
      Manager.mem_sessions_of_session? (Manager.session?_of_getSession hfound)
    exact hid ▸ List.mem_map_of_mem hmem
  | error e =>
    cases left with
    | none =>
      simp only [seek, hfound]
      exact (honest_refl s).answer c (by simp)
    | some left =>
      simp only [seek, hfound]
      exact (honest_refl s).send c (by simp)

theorem honest_next (s : Shared η) (c : Nat) (id : SessionId) : Honest s (s.next c id) := by
  rw [next.eq_def]
  split
  · exact .ite (honest_seek s c id _)
  · exact honest_refl s

theorem honest_allClosed (s : Shared η) (c : Nat) : Honest s (s.allClosed c) := by
  rw [allClosed.eq_def]
  split
  · exact ((honest_refl s).send c (by simp)).answer c (by simp)
  · exact honest_refl s

/-- A client that is told of a closed session waited for it. -/
theorem honest_remove (s : Shared η) (c : Nat) : Honest s (s.remove c) := by
  rw [remove.eq_def]
  split
  · next id left herrand =>
    split
    · constructor
      · intro c' id' left' h
        refine ((honest_with s (s.manager.untrack id) s.listing).send c
          (fun id'' left'' he => ?_)).errands c' id' left' h
        cases left <;> cases he
      · intro c' id' hmem
        rcases List.mem_append.mp hmem with hold | hnew
        · exact .inl hold
        · cases List.mem_singleton.mp hnew
          exact .inr ⟨⟨left, herrand⟩, rfl⟩
    · exact honest_refl s
  · exact honest_refl s

end Honest

/-- **Every action is honest.** -/
theorem honest_step (s : Shared η) (a : Action) (w : ω) : Honest s (s.step a w).1 := by
  cases a with
  | spawn c request =>
    rw [step]
    split
    · rcases s.manager.spawn_cases request w with
        ⟨registry, e, w', hspawn⟩ | ⟨registry, t, r, w', hspawn, -⟩
      · simp only [spawn, bind, StateT.bind, hspawn]
        exact (honest_with s _ _).answer c (a := .notSpawned e) (by simp)
      · simp only [spawn, bind, StateT.bind, hspawn]
        exact (honest_with s _ _).answer c (a := .spawned t.id) (by simp)
    · exact honest_refl s
  | get c id =>
    refine .ite ?_
    rw [get]
    split
    · exact (honest_refl s).answer c (by simp)
    · exact (honest_refl s).answer c (by simp)
  | list c => exact .ite (honest_with s _ _)
  | look id =>
    show Honest s (s.look id)
    rw [look]
    split
    · exact .ite (.of_eq rfl rfl)
    · exact honest_refl s
  | listed =>
    show Honest s s.listed
    rw [listed.eq_def]
    split
    · exact (honest_with s _ _).answer _ (a := .listed _) (by simp)
    · exact honest_refl s
  | close c id => exact .ite (honest_seek s c id none)
  | closeAll c => exact .ite ((honest_refl s).send c (by simp))
  | next c id => exact .ite (honest_next s c id)
  | allClosed c => exact honest_allClosed s c
  | remove c => exact .ite (honest_remove s c)
  | begin id =>
    show Honest s (s.begin id)
    rw [begin]
    split
    · exact .of_eq rfl rfl
    · exact honest_refl s
  | input id i =>
    show Honest s (s.input id i w).1
    rw [input]
    cases s.manager.session? id with
    | none => exact honest_refl s
    | some t =>
      by_cases hbegun : t.status = .starting
      · simp only [hbegun, if_true]
        exact honest_refl s
      · simp only [hbegun, if_false]
        exact .of_eq rfl rfl

/-- The table is sound, who waits for a session has found it, and a closed session is not in the
table. -/
structure Sound (config : Config) (s : Shared η) : Prop where
  manager : s.manager.Sound config
  errands : ∀ c id left, s.errands c = .stopping id left → id ∈ s.manager.ids
  closed : ∀ c id, (c, .closed id) ∈ s.answers → id ∈ s.manager.ids ∧ id ∉ s.manager.tracked

/-- A name that has left the table does not come back. -/
theorem Effect.not_tracked (h : Effect s a m') (hids : m'.ids.Nodup) (hid : id ∈ s.manager.ids)
    (hgone : id ∉ s.manager.tracked) : id ∉ m'.tracked := by
  cases h with
  | none | refused | begun | turned => exact hgone
  | reaped | removed => exact fun hmem => hgone (List.mem_filter.mp hmem).1
  | @added c request registry t hroom ht =>
    intro hmem
    rcases List.mem_append.mp hmem with hold | hnew
    · exact hgone hold
    · -- the new session has a name of its own
      rw [Manager.ids, List.map_append] at hids
      exact List.disjoint_of_nodup_append hids hid hnew

/-- **One action** keeps the table and what clients are told sound. -/
theorem Sound.step (h : s.Sound config) (a : Action) (w : ω)
    (hids : (s.step a w).1.manager.ids.Nodup) (hcalm : s.faults a = false) :
    (s.step a w).1.Sound config := by
  have heffect := effect_step s a w
  have hhonest := honest_step s a w
  have hmore := heffect.ids_isPrefix
  refine ⟨heffect.sound h.manager (hids.sublist hmore.sublist) hcalm, ?_, ?_⟩
  · intro c id left herrand
    rcases hhonest.errands c id left herrand with hold | hknown
    · exact hmore.subset (h.errands c id left hold)
    · exact hmore.subset hknown
  · intro c id hmem
    rcases hhonest.closed c id hmem with hold | ⟨⟨left, herrand⟩, hmanager⟩
    · obtain ⟨hknown, hgone⟩ := h.closed c id hold
      exact ⟨hmore.subset hknown, heffect.not_tracked hids hknown hgone⟩
    · refine ⟨hmore.subset (h.errands c id left herrand), ?_⟩
      rw [hmanager]
      exact fun hmem => bne_iff_ne.mp (List.mem_filter.mp hmem).2 rfl

/-- A table without sessions is sound. -/
theorem sound_start (config : Config) (registry : Registry) :
    (start config registry : Shared η).Sound config where
  manager := ⟨rfl, Nat.zero_le _, fun _ ht => absurd ht List.not_mem_nil,
    fun _ hid => absurd hid List.not_mem_nil, fun _ ht => absurd ht List.not_mem_nil⟩
  errands _ _ _ h := by cases h
  closed _ _ h := absurd h List.not_mem_nil

/-- **Every run keeps the table sound**, if no task fails in the middle. -/
theorem Sound.run (h : s.Sound config) (as : List Action) (w : ω)
    (hids : (run as s w).1.manager.ids.Nodup) (hcalm : isCalm as s w = true) :
    (run as s w).1.Sound config := by
  induction as generalizing s w with
  | nil => exact h
  | cons a as ih =>
    rw [isCalm, Bool.and_eq_true, Bool.not_eq_true'] at hcalm
    have hstep := hids.sublist (ids_run_isPrefix as (s.step a w).1 (s.step a w).2).sublist
    exact ih (h.step a w hstep hcalm.1) _ hids hcalm.2

/-! ### Order -/

/-- How a session can leave the table. -/
inductive Leaves (s : Shared η) (t : Session η) : Action → Prop where
  /-- A client closes it, or all sessions, and has seen its task stop. -/
  | closed {c : Nat} {left : Option (List SessionId)} (herrand : s.errands c = .stopping t.id left)
      (hphase : t.phase = .gone) (hfinal : t.status.isFinished = true) : Leaves s t (.remove c)
  /-- A client lists the sessions, and this one has ended. -/
  | listed {c : Nat} {left : List SessionId} (hlisting : s.listing = some (c, left))
      (hfinal : t.status.isFinished = true) : Leaves s t (.look t.id)

/-- **A session leaves the table in no other way.** -/
theorem Effect.leaves (h : Effect s a m') (hs : s.manager.Sound config)
    (hid : id ∈ s.manager.tracked) (hgone : id ∉ m'.tracked) :
    ∃ t, s.manager.session? id = some t ∧ Leaves s t a := by
  obtain ⟨t, ht⟩ := Manager.exists_session?_of_mem (hs.known id hid)
  obtain ⟨hmem, rfl⟩ := Manager.mem_sessions_of_session? ht
  refine ⟨t, ht, ?_⟩
  have hsame : ∀ {other}, t.id ∉ (s.manager.untrack other).tracked → other = t.id := by
    intro other hgone
    by_contra hne
    exact hgone (List.mem_filter.mpr ⟨hid, bne_iff_ne.mpr fun heq => hne heq.symm⟩)
  cases h with
  | none | refused | begun | turned => exact absurd hid hgone
  | added => exact absurd (List.mem_append_left _ hid) hgone
  | reaped hlisting hfinal =>
    obtain rfl := hsame hgone
    exact .listed hlisting (Manager.isFinished_status hfinal ht)
  | removed herrand hstopped =>
    obtain rfl := hsame hgone
    have hphase := Manager.phase_of_hasStopped hstopped ht
    exact .closed herrand hphase ((hs.sessions t hmem).isFinished_of_gone hphase)

/-- The table of a shared manager is in order. -/
structure Orderly (config : Config) (s : Shared η) (w : ω) : Prop where
  /-- It has no more sessions than are allowed. -/
  room : s.manager.count ≤ config.server.maxSessions
  /-- A spawn that fails leaves it as it is. -/
  refusal : ∀ request e, (s.manager.spawn request w).1.2 = .error e →
    (s.manager.spawn request w).1.1.tracked = s.manager.tracked ∧
      (s.manager.spawn request w).1.1.sessions = s.manager.sessions
  /-- With the next action, whichever it is, a session leaves only when it is closed and its task
  has stopped, or when a listing finds it ended. -/
  leaves : ∀ a, ∀ id ∈ s.manager.tracked, id ∉ (s.step a w).1.manager.tracked →
    ∃ t, s.manager.session? id = some t ∧ Leaves s t a
  /-- Every session that was ever started is there, unless it has ended. -/
  live : ∀ t ∈ s.manager.sessions, t.id ∈ s.manager.tracked ∨ t.status.isFinished = true
  /-- A session that somebody was told is closed is not found, and it has ended. -/
  closed : ∀ c id, (c, .closed id) ∈ s.answers →
    s.manager.getSession id = .error (.sessionNotFound id) ∧
      ∃ t, s.manager.session? id = some t ∧ t.status.isFinished = true

/-- **The table is always in order**, whatever clients and sessions do in whatever order, if the
names of the sessions are distinct and no task fails in the middle. -/
theorem run_orderly (config : Config) (registry : Registry) (as : List Action) (w : ω)
    (hids : (run as (start (η := η) config registry) w).1.manager.ids.Nodup)
    (hcalm : isCalm as (start (η := η) config registry) w = true) :
    Orderly config (run as (start (η := η) config registry) w).1
      (run as (start (η := η) config registry) w).2 := by
  have h := (sound_start (η := η) config registry).run as w hids hcalm
  revert h
  generalize run as (start (η := η) config registry) w = after
  obtain ⟨s, w⟩ := after
  intro h
  refine ⟨h.manager.room, fun request e hspawn => ?_, fun a id hid hgone => ?_, fun t ht => ?_,
    fun c id hmem => ?_⟩
  · rcases s.manager.spawn_cases request w with
      ⟨registry, e', w', heq⟩ | ⟨registry, t, r, w', heq, -⟩
    · rw [heq]
      exact ⟨rfl, rfl⟩
    · rw [heq] at hspawn
      cases hspawn
  · exact (effect_step s a w).leaves h.manager hid hgone
  · by_cases htracked : t.id ∈ s.manager.tracked
    · exact .inl htracked
    · exact .inr (h.manager.dropped t ht htracked)
  · obtain ⟨hknown, hgone⟩ := h.closed c id hmem
    obtain ⟨t, ht⟩ := Manager.exists_session?_of_mem hknown
    obtain ⟨hsession, rfl⟩ := Manager.mem_sessions_of_session? ht
    refine ⟨?_, t, ht, h.manager.dropped t hsession hgone⟩
    rw [Manager.getSession, if_neg]
    exact fun hcontains => hgone (List.contains_iff_mem.mp hcontains)

/-- A configuration with room for one session. -/
def oneSeat : Config := { server := { maxSessions := 1 } }

/-- The backend of the sessions. -/
def mockRegistry : Registry := .ofBackends .linux [⟨"mock", .nativePty, [.linux], .full⟩]

/-- The name of the session that is started first. -/
def firstName : SessionId := .ofRandom 1

/-- A client closes a session while another lists it. -/
def closedWhileListed : List Action :=
  [.spawn 0 { command := "sh" }, .spawn 1 { command := "sh" }, .begin firstName,
    .input firstName (.chunk [104, 105]), .close 1 firstName, .list 0, .input firstName .shutdown,
    .remove 1, .look firstName, .listed, .remove 1, .get 1 firstName, .spawn 1 { command := "sh" }]

/-- A session is closed while another client lists it, and its seat is taken again. -/
theorem run_orderly_closedWhileListed :
    let before : Shared Nat × Scripted :=
      (start oneSeat mockRegistry, { scripts := [{ backendName := "mock" }] })
    let after := run closedWhileListed before.1 before.2
    ((after.1.manager.ids.Nodup ∧ isCalm closedWhileListed before.1 before.2 = true) ∧
        after.1.manager.ids.length = 2 ∧ after.1.manager.count = 1) ∧
      Orderly oneSeat after.1 after.2 :=
  ⟨by decide +kernel,
    run_orderly oneSeat mockRegistry closedWhileListed _ (by decide +kernel) (by decide +kernel)⟩

end Shared

end VirtualTerminal
