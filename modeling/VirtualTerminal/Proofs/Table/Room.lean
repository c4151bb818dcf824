import VirtualTerminal.Proofs.Registry.Selection
import VirtualTerminal.Proofs.Table.Run

/-!
# Table — Room

Who takes the seats of the table.  A session that ends on its own keeps its seat: its name goes only
when a listing finds the session ended or a client closes it (`Shared.releases`).  So the limit is
one on the sessions that have not ended and on those that have and linger (`Manager.live`,
`Manager.lingering`).

* `Seated`: the table has the names of all sessions that were started, in order, less those that
  were taken out.  `Seated.step`, `Seated.run`: so it is after every sequence of actions.
* `Manager.live_eq`: every session that has not ended has a seat, unless it was taken out.
* `Session.error_of_spawn`: of what fails behind the check of the limit, only taking the reader can
  say that the limit is reached.

**A spawn is refused for the limit exactly when the live and the lingering sessions reach it**
(`run_seating`).  Right after a listing nothing lingers, and the limit is one on live sessions.
-/

namespace VirtualTerminal

/-! ### What a spawn can fail with -/

section Errors
variable {ω η : Type} [Host ω η]

/-- A selection fails only when all backends have. -/
theorem Registry.error_of_select {r r' : Registry} {request : ExecRequest} {w w' : ω} {e : Error}
    (h : r.select (η := η) request w = ((r', .error e), w')) :
    ∃ attempts, e = .backendsExhausted attempts := by
  obtain ⟨ts, w₁, result, -, hchosen, hyields⟩ :=
    exists_walk (ω := ω) (η := η) (r := r) request rfl rfl r.ranking r.nodup_ranking
      (fun i hi => ⟨rfl, mem_ranking_iff.mp hi⟩) [] (List.map_nil (f := some)).symm w
  obtain rfl : result = .error e :=
    congrArg (fun out => out.1.2) (hyields.host.symm.trans h)
  cases hchosen with
  | exhausted => exact ⟨_, rfl⟩

/-- What a spawn of a session fails with: its size, all backends, or the reader of its output. -/
theorem Session.error_of_spawn {r r' : Registry} {settings : SessionSettings}
    {request : ExecRequest} {w w' : ω} {e : Error}
    (h : Session.spawn (η := η) r settings request w = ((r', .error e), w')) :
    e = .resizeOutOfBounds request.dimensions ∨ (∃ attempts, e = .backendsExhausted attempts) ∨
      ∃ r₁ running w₁, r.select (η := η) request w = ((r₁, .ok running), w₁) ∧
        (Host.takeReader running.handle w₁).1 = .error e := by
  rw [spawn] at h
  cases hvalid : request.dimensions.validate with
  | error fault =>
    rw [hvalid] at h
    cases h
    rw [Dimensions.validate] at hvalid
    split at hvalid
    · exact .inl (Except.error.inj hvalid).symm
    · cases hvalid
  | ok =>
    rw [hvalid] at h
    rcases hselect : r.select (ω := ω) (η := η) request w with ⟨⟨r₁, fault | running⟩, w₁⟩
    · simp only [bind, StateT.bind, hselect] at h
      cases h
      exact .inr (.inl (Registry.error_of_select hselect))
    · simp only [bind, StateT.bind, hselect] at h
      rcases hreader : Host.takeReader running.handle w₁ with ⟨fault | _, w₂⟩
      · simp only [hreader] at h
        cases h
        exact .inr (.inr ⟨_, running, w₁, rfl, congrArg Prod.fst hreader⟩)
      · simp only [hreader] at h
        cases h

end Errors

/-! ### The seats -/

namespace Manager

variable {ω η : Type} [Host ω η] {m : Manager η} {config : Config} {gone : List SessionId}

/-- The sessions in the table that have not ended. -/
def live (m : Manager η) : List SessionId := m.tracked.filter fun id => !m.isFinished id

/-- The sessions in the table that have ended. -/
def lingering (m : Manager η) : List SessionId := m.tracked.filter m.isFinished

/-- The backend chosen for a request runs the command, and says that a limit is reached when it is
asked for the reader of its output. -/
def ReaderLimited (m : Manager η) (request : ExecRequest) (w : ω) (n : Nat) : Prop :=
  ∃ registry running w', m.registry.select (η := η) request w = ((registry, .ok running), w') ∧
    (Host.takeReader running.handle w').1 = .error (.sessionLimitReached n)

section Seats
omit [Host ω η]

/-- Every seat is taken by a live session or by a lingering one. -/
theorem count_eq_add (m : Manager η) : m.count = m.live.length + m.lingering.length := by
  have hsplit := m.tracked.length_eq_length_filter_add m.isFinished
  rw [count, hsplit, Nat.add_comm]
  rfl

/-- The live sessions are those that were started, have not ended and were not taken out. -/
theorem live_eq (hids : m.ids.Nodup)
    (hseats : m.tracked = m.ids.filter fun id => !gone.contains id) :
    m.live = (m.sessions.filter fun t => !t.status.isFinished && !gone.contains t.id).map
      Session.id := by
  rw [live, hseats, List.filter_filter, ids, List.filter_map]
  refine congrArg (List.map Session.id) (List.filter_congr fun t ht => ?_)
  have hfinished : m.isFinished t.id = t.status.isFinished := by
    rw [isFinished, session?_eq_of_mem hids ht]
    rfl
  exact congrArg (fun final => !final && !gone.contains t.id) hfinished

/-- A listing takes no seat from a live session. -/
theorem live_list (m : Manager η) : m.list.1.live = m.live := by
  show (m.tracked.filter _).filter (fun id => !m.isFinished id) = _
  rw [List.filter_filter]
  simp only [Bool.and_self]
  rfl

/-- A listing takes the seats of all lingering sessions. -/
theorem lingering_list (m : Manager η) : m.list.1.lingering = [] := by
  show (m.tracked.filter _).filter m.isFinished = _
  rw [List.filter_filter, List.filter_eq_nil_iff]
  intro id _ hboth
  cases hfinal : m.isFinished id <;> simp [hfinal] at hboth

end Seats

/-- **A full table refuses a spawn**, and the refusal changes nothing. -/
theorem spawn_of_full (hfull : m.config.server.maxSessions ≤ m.count) (request : ExecRequest)
    (w : ω) :
    m.spawn request w = ((m, .error (.sessionLimitReached m.config.server.maxSessions)), w) := by
  rw [spawn, if_pos hfull]
  rfl

/-- **A table with room refuses no spawn for the limit**; only the backend can. -/
theorem readerLimited_of_room (hroom : m.count < m.config.server.maxSessions)
    {request : ExecRequest} {w : ω} {n : Nat}
    (hspawn : (m.spawn request w).1.2 = .error (.sessionLimitReached n)) :
    m.ReaderLimited request w n := by
  rw [spawn, if_neg (Nat.not_le_of_lt hroom)] at hspawn
  rcases hstarted : Session.spawn (ω := ω) (η := η) m.registry m.config.sessionSettings request w
    with ⟨⟨registry, e | ⟨t, r⟩⟩, w'⟩
  · simp only [bind, StateT.bind, hstarted] at hspawn
    obtain rfl : e = .sessionLimitReached n := Except.error.inj hspawn
    rcases Session.error_of_spawn hstarted with hsize | ⟨attempts, hexhausted⟩ | hreader
    · cases hsize
    · cases hexhausted
    · exact hreader
  · simp only [bind, StateT.bind, hstarted] at hspawn
    cases hspawn

end Manager

/-! ### Who gives up a seat -/

namespace Shared

variable {ω η : Type} [Host ω η] {config : Config} {s : Shared η} {gone : List SessionId}

/-- The session that an action takes out of the table: a listing finds it ended, or a client that
closes it sees its task stopped. -/
def releases (s : Shared η) : Action → Option SessionId
  | .look id =>
    if s.manager.tracked.contains id &&
        (s.listing.any (fun l => l.2.contains id) && s.manager.isFinished id) then some id
    else none
  | .remove c =>
    match s.errands c with
    | .stopping id _ =>
      if s.manager.tracked.contains id && (s.isUnlocked && s.manager.hasStopped id) then some id
      else none
    | _ => none
  | _ => none

/-- The sessions that a sequence of actions takes out of the table. -/
def released : List Action → Shared η → ω → List SessionId
  | [], _, _ => []
  | a :: as, s, w => (s.releases a).toList ++ released as (s.step a w).1 (s.step a w).2

section Steps
omit [Host ω η]

/-- Taking one name out of others, if it is there and may go. -/
theorem filter_ne_if (ids : List SessionId) (id : SessionId) (p : Bool) :
    (ids.filter fun other => some other != if ids.contains id && p then some id else none) =
      if p then ids.filter (fun other => other != id) else ids := by
  cases p with
  | false => simp
  | true =>
    by_cases hmem : ids.contains id = true
    · simp only [hmem, Bool.and_self, if_true]
      exact List.filter_congr fun other _ => by simp [bne]
    · have hsame : ids.filter (fun other => other != id) = ids :=
        List.filter_eq_self.mpr fun other hother => by
          rw [bne_iff_ne]
          rintro rfl
          exact hmem (List.contains_iff_mem.mpr hother)
      simp only [hmem, hsame]
      simp

/-- A listing that looks at a session takes out what `releases` says. -/
theorem tracked_look (s : Shared η) (id : SessionId) :
    (s.look id).manager.tracked =
      s.manager.tracked.filter fun other => some other != s.releases (.look id) := by
  rw [releases, filter_ne_if, look]
  cases s.listing with
  | none => rfl
  | some l =>
    obtain ⟨c, left⟩ := l
    by_cases hleft : id ∈ left
    · have hcontains : left.contains id = true := List.contains_iff_mem.mpr hleft
      simp only [hleft, if_true, Option.any_some, hcontains, Bool.true_and, Manager.reap]
      split <;> rfl
    · have hcontains : left.contains id = false := by simpa using hleft
      simp only [hleft, if_false, Option.any_some, hcontains, Bool.false_and]
      rfl

/-- A client that has seen its session stop takes out what `releases` says. -/
theorem tracked_remove (s : Shared η) (c : Nat) :
    (if s.isUnlocked then s.remove c else s).manager.tracked =
      s.manager.tracked.filter fun other => some other != s.releases (.remove c) := by
  have hnone : (s.manager.tracked.filter fun other => some other != none) = s.manager.tracked :=
    List.filter_eq_self.mpr fun _ _ => rfl
  rw [remove.eq_def]
  simp only [releases]
  cases s.errands c with
  | idle | closing =>
    rw [hnone]
    split <;> rfl
  | stopping id left =>
    dsimp only
    rw [filter_ne_if]
    cases s.isUnlocked with
    | false => rfl
    | true =>
      rw [if_pos rfl, Bool.true_and]
      split <;> rfl

/-- Nothing is forgotten of a session that a listing takes out. -/
theorem sessions_look (s : Shared η) (id : SessionId) :
    (s.look id).manager.sessions = s.manager.sessions := by
  rw [look]
  split
  · split
    · simp only [Manager.reap]
      split <;> rfl
    · rfl
  · rfl

/-- Nothing is forgotten of a session that a client takes out. -/
theorem sessions_remove (s : Shared η) (c : Nat) :
    (s.remove c).manager.sessions = s.manager.sessions := by
  rw [remove.eq_def]
  split
  · split <;> rfl
  · rfl

end Steps

/-- Names that are added behind the others, in the table as among all, while one may be taken out
of the table. -/
def Moves (m m' : Manager η) (released : Option SessionId) : Prop :=
  ∃ new, m'.ids = m.ids ++ new ∧
    m'.tracked = (m.tracked.filter fun id => some id != released) ++ new

/-- Every other action takes nobody out. -/
theorem Effect.moves {a : Action} {m' : Manager η} (h : Effect s a m')
    (hlook : ∀ id, a ≠ .look id) (hremove : ∀ c, a ≠ .remove c) :
    Moves s.manager m' Option.none := by
  have hall : (s.manager.tracked.filter fun id => some id != Option.none) = s.manager.tracked :=
    List.filter_eq_self.mpr fun _ _ => rfl
  cases h with
  | none | refused => exact ⟨[], (List.append_nil _).symm, by rw [hall, List.append_nil]⟩
  | @added c request registry t => exact ⟨[t.id], List.map_append, by rw [hall]⟩
  | begun | turned =>
    refine ⟨[], ?_, by rw [hall, List.append_nil]; rfl⟩
    rw [Manager.ids_update, List.append_nil]
  | @reaped c left id => exact absurd rfl (hlook id)
  | @removed c id left => exact absurd rfl (hremove c)

/-- **What an action does to the seats.** -/
theorem moves_step (s : Shared η) (a : Action) (w : ω) :
    Moves s.manager (s.step a w).1.manager (s.releases a) := by
  cases a with
  | look id =>
    refine ⟨[], ?_, ?_⟩
    · rw [List.append_nil]
      exact congrArg (List.map Session.id) (sessions_look s id)
    · rw [List.append_nil]
      exact tracked_look s id
  | remove c =>
    have hsessions : (if s.isUnlocked then s.remove c else s).manager.sessions =
        s.manager.sessions := by
      split
      · exact sessions_remove s c
      · rfl
    refine ⟨[], ?_, ?_⟩
    · rw [List.append_nil]
      exact congrArg (List.map Session.id) hsessions
    · rw [List.append_nil]
      exact tracked_remove s c
  | _ => refine (effect_step s _ w).moves ?_ ?_ <;> simp

/-- Only who has a seat is taken out. -/
theorem mem_tracked_of_releases {a : Action} {id : SessionId} (h : s.releases a = some id) :
    id ∈ s.manager.tracked := by
  have hif : ∀ {id' : SessionId} {p : Bool},
      (if s.manager.tracked.contains id' && p then some id' else none) = some id →
        id ∈ s.manager.tracked := by
    intro id' p h
    obtain ⟨hboth, hid⟩ := Option.ite_none_right_eq_some.mp h
    cases hid
    exact List.contains_iff_mem.mp (Bool.and_eq_true_iff.mp hboth).1
  cases a with
  | look id' => exact hif h
  | remove c =>
    rw [releases] at h
    split at h
    · exact hif h
    · cases h
  | _ => cases h

/-! ### Runs -/

/-- The table has the names of all sessions that were started, but of those that were taken out. -/
structure Seated (gone : List SessionId) (m : Manager η) : Prop where
  seats : m.tracked = m.ids.filter fun id => !gone.contains id
  known : ∀ id ∈ gone, id ∈ m.ids

/-- **One action** takes out at most one name, and adds only new ones. -/
theorem Seated.step (h : Seated gone s.manager) (a : Action) (w : ω)
    (hids : (s.step a w).1.manager.ids.Nodup) :
    Seated (gone ++ (s.releases a).toList) (s.step a w).1.manager := by
  obtain ⟨new, hnew, htracked⟩ := moves_step s a w
  have hreleased : ∀ id ∈ (s.releases a).toList, id ∈ s.manager.ids := by
    intro id hid
    have hmem := mem_tracked_of_releases (Option.mem_toList.mp hid)
    rw [h.seats] at hmem
    exact List.mem_of_mem_filter hmem
  have hknown : ∀ id ∈ gone ++ (s.releases a).toList, id ∈ s.manager.ids := fun id hid =>
    (List.mem_append.mp hid).elim (h.known id) (hreleased id)
  refine ⟨?_, fun id hid => hnew ▸ List.mem_append_left _ (hknown id hid)⟩
  -- the new names are none of those that were taken out
  have hfresh : (new.filter fun id => !(gone ++ (s.releases a).toList).contains id) = new := by
    rw [hnew] at hids
    refine List.filter_eq_self.mpr fun id hid => ?_
    rw [Bool.not_eq_true', ← Bool.not_eq_true, List.contains_iff_mem]
    exact fun hgone => List.disjoint_of_nodup_append hids (hknown id hgone) hid
  rw [htracked, hnew, List.filter_append, hfresh, h.seats, List.filter_filter]
  refine congrArg (· ++ new) (List.filter_congr fun id _ => ?_)
  rw [List.contains_append, Bool.not_or, Bool.and_comm]
  cases s.releases a with
  | none => simp
  | some id' => simp [bne, beq_eq_decide]

/-- A table without sessions has no seats taken. -/
theorem seated_start (config : Config) (registry : Registry) :
    Seated [] (start (η := η) config registry).manager :=
  ⟨rfl, fun _ h => absurd h List.not_mem_nil⟩

/-- **After every sequence of actions** the table lacks what was taken out on the way, and no
more. -/
theorem Seated.run (h : Seated gone s.manager) (as : List Action) (w : ω)
    (hids : (run as s w).1.manager.ids.Nodup) :
    Seated (gone ++ released as s w) (Shared.run as s w).1.manager := by
  induction as generalizing s w gone with
  | nil =>
    rw [released, List.append_nil]
    exact h
  | cons a as ih =>
    have hstep := hids.sublist (ids_run_isPrefix as (s.step a w).1 (s.step a w).2).sublist
    rw [released, ← List.append_assoc]
    exact ih (h.step a w hstep) _ hids

theorem Effect.config_eq {a : Action} {m' : Manager η} (h : Effect s a m') :
    m'.config = s.manager.config := by
  cases h <;> rfl

/-- Nothing that clients and sessions do changes the configuration. -/
theorem config_run (as : List Action) (s : Shared η) (w : ω) :
    (run as s w).1.manager.config = s.manager.config := by
  induction as generalizing s w with
  | nil => rfl
  | cons a as ih => exact (ih _ _).trans (effect_step s a w).config_eq

/-- How the seats of a shared manager are taken, and when it starts no more sessions. -/
structure Seating (config : Config) (gone : List SessionId) (s : Shared η) (w : ω) : Prop where
  /-- The table has all sessions that were started but those that were taken out, so one that ends
  on its own keeps its seat. -/
  seats : s.manager.tracked = s.manager.ids.filter fun id => !gone.contains id
  /-- The live ones among them are those that have not ended. -/
  live : s.manager.live =
    (s.manager.sessions.filter fun t => !t.status.isFinished && !gone.contains t.id).map Session.id
  /-- If the live and the lingering sessions reach the limit, every spawn is refused for it. -/
  full : config.server.maxSessions ≤ s.manager.live.length + s.manager.lingering.length →
    ∀ request, s.manager.spawn request w =
      ((s.manager, .error (.sessionLimitReached config.server.maxSessions)), w)
  /-- If they do not, none is, unless the backend says so itself. -/
  room : s.manager.live.length + s.manager.lingering.length < config.server.maxSessions →
    ∀ request n, (s.manager.spawn request w).1.2 = .error (.sessionLimitReached n) →
      s.manager.ReaderLimited request w n
  /-- After a listing the live sessions are the same and nothing lingers. -/
  swept : s.manager.list.1.live = s.manager.live ∧ s.manager.list.1.lingering = []
  /-- So then no spawn is refused for the limit while the live sessions alone are fewer. -/
  listed : s.manager.live.length < config.server.maxSessions →
    ∀ request n, (s.manager.list.1.spawn request w).1.2 = .error (.sessionLimitReached n) →
      s.manager.ReaderLimited request w n

/-- **The limit is one on the live and on the lingering sessions together**, whatever clients and
sessions do in whatever order, if the names of the sessions are distinct.  If no task fails in the
middle either, then only sessions that have ended were taken out. -/
theorem run_seating (config : Config) (registry : Registry) (as : List Action) (w : ω)
    (hids : (run as (start (η := η) config registry) w).1.manager.ids.Nodup) :
    Seating config (released as (start (η := η) config registry) w)
        (run as (start (η := η) config registry) w).1
        (run as (start (η := η) config registry) w).2 ∧
      (isCalm as (start (η := η) config registry) w = true →
        ∀ t ∈ (run as (start (η := η) config registry) w).1.manager.sessions,
          t.id ∈ released as (start (η := η) config registry) w → t.status.isFinished = true) := by
  have hseated := (seated_start (η := η) config registry).run as w hids
  have hconfig := config_run as (start (η := η) config registry) w
  have hsound := (sound_start (η := η) config registry).run as w hids
  rw [List.nil_append] at hseated
  revert hsound hconfig hseated hids
  generalize run as (start (η := η) config registry) w = after
  obtain ⟨s, w'⟩ := after
  intro hids hseated (hconfig : s.manager.config = config) hsound
  have hswept : s.manager.list.1.live = s.manager.live ∧ s.manager.list.1.lingering = [] :=
    ⟨s.manager.live_list, s.manager.lingering_list⟩
  refine ⟨⟨hseated.seats, Manager.live_eq hids hseated.seats, fun hfull request => ?full,
    fun hroom request n => ?room, hswept, fun hroom request n => ?listed⟩,
    fun hcalm t ht hgone => ?calm⟩
  case full =>
    rw [← s.manager.count_eq_add, ← hconfig] at hfull
    rw [Manager.spawn_of_full hfull, hconfig]
  case room =>
    rw [← s.manager.count_eq_add, ← hconfig] at hroom
    exact Manager.readerLimited_of_room hroom
  case listed =>
    refine Manager.readerLimited_of_room (m := s.manager.list.1) ?_
    rw [Manager.count_eq_add, hswept.1, hswept.2]
    exact hconfig.symm ▸ hroom
  case calm =>
    refine (hsound hcalm).manager.dropped t ht fun htracked => ?_
    rw [hseated.seats, List.mem_filter, List.contains_iff_mem.mpr hgone] at htracked
    exact Bool.noConfusion htracked.2

/-- A session ends on its own, and nobody lists the sessions or closes it. -/
def endedUnlisted : List Action :=
  [.spawn 0 { command := "sh" }, .begin firstName, .input firstName .streamEnd]

/-- The only session has ended, nobody lists it, and every spawn is refused for the limit. -/
theorem run_seating_endedUnlisted :
    let before : Shared Nat × Scripted :=
      (start oneSeat mockRegistry, { scripts := [{ backendName := "mock" }] })
    let after := run endedUnlisted before.1 before.2
    (after.1.manager.ids.Nodup ∧ isCalm endedUnlisted before.1 before.2 = true ∧
        after.1.manager.live = [] ∧ after.1.manager.lingering = [firstName]) ∧
      Seating oneSeat (released endedUnlisted before.1 before.2) after.1 after.2 ∧
      ∀ request, (after.1.manager.spawn request after.2).1.2 = .error (.sessionLimitReached 1) := by
  intro before after
  have h := (run_seating oneSeat mockRegistry endedUnlisted before.2 (by decide +kernel)).1
  have hfull : oneSeat.server.maxSessions ≤
      after.1.manager.live.length + after.1.manager.lingering.length := by decide +kernel
  exact ⟨by decide +kernel, h, fun request => congrArg (fun out => out.1.2) (h.full hfull request)⟩

end Shared

end VirtualTerminal
