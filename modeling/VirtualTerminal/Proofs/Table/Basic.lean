import VirtualTerminal.Manager
import VirtualTerminal.Proofs.Session.Run

/-!
# Table — Basic

Any number of clients share a manager, and each makes one call after another.  A call is made of
steps, each under the lock of the table, and between them other clients and the sessions take
theirs.  So what happens is a sequence of actions, any sequence (`Shared.Action`, `Shared.run`); an
action that is not possible does nothing.

* A spawn is one step, as is a look for a session.
* A listing keeps the lock, and looks at the sessions one after another while they go on.
* A close looks the session up, waits for its task to stop without the lock, and takes its name out
  of the table.  Closing all sessions is to note their names and to close one after another.

A table of names has no order, so a listing looks at the sessions in any order, and so does who
closes all of them.

`effect_step` says what an action does to the manager, one case for each thing that can happen to it
(`Effect`).  `isCalm` tells whether a run is one where no task fails in the middle.
-/

namespace VirtualTerminal

namespace Manager

variable {η : Type}

/-- Takes a name out of the table. -/
def untrack (m : Manager η) (id : SessionId) : Manager η :=
  { m with tracked := m.tracked.filter fun other => other != id }

/-- Takes a name out of the table if its session has ended. -/
def reap (m : Manager η) (id : SessionId) : Manager η :=
  if m.isFinished id then m.untrack id else m

/-- The task of the session with this name is over. -/
def hasStopped (m : Manager η) (id : SessionId) : Bool :=
  (m.session? id).any fun s => s.phase = .gone

end Manager

/-! ### Clients -/

/-- What a client is about between the steps of a call. -/
inductive Errand where
  /-- It makes no call, or one of a single step. -/
  | idle
  /-- It waits for a session to stop.  If it closes all sessions, these are left. -/
  | stopping (id : SessionId) (left : Option (List SessionId))
  /-- It closes these sessions, one after another, in any order. -/
  | closing (left : List SessionId)
deriving DecidableEq, Repr

/-- What a client is about when one session is closed. -/
def Errand.after : Option (List SessionId) → Errand
  | none => .idle
  | some left => .closing left

/-- What a call gave. -/
inductive Answer where
  | spawned (id : SessionId)
  | notSpawned (reason : Error)
  | found (id : SessionId)
  | notFound (id : SessionId)
  | listed (infos : List SessionInfo)
  | closed (id : SessionId)
  | closedAll

/-- A manager that clients share. -/
structure Shared (η : Type) where
  manager : Manager η
  /-- What each client is about. -/
  errands : Nat → Errand := fun _ => .idle
  /-- The client that lists the sessions, if one does, and the names it has still to look at.
  Meanwhile nobody else has the lock. -/
  listing : Option (Nat × List SessionId) := none
  /-- What the calls gave, with the clients that made them. -/
  answers : List (Nat × Answer) := []

namespace Shared

variable {ω η : Type} [Host ω η]

/-- A manager without sessions, and clients that make no call. -/
def start (config : Config) (registry : Registry) : Shared η :=
  { manager := { config := config, registry := registry } }

/-- Nobody has the lock. -/
def isUnlocked (s : Shared η) : Bool := s.listing.isNone

/-- The client can make a call, and nobody has the lock. -/
def canCall (s : Shared η) (c : Nat) : Bool := s.isUnlocked && s.errands c = .idle

/-- Notes what a call gave. -/
def answer (s : Shared η) (c : Nat) (a : Answer) : Shared η :=
  { s with answers := s.answers ++ [(c, a)] }

/-- Gives a client something to be about. -/
def send (s : Shared η) (c : Nat) (e : Errand) : Shared η :=
  { s with errands := fun other => if other = c then e else s.errands other }

/-! ### Steps of calls -/

/-- A step of a call, or something that a session does. -/
inductive Action where
  /-- A client starts a session. -/
  | spawn (c : Nat) (request : ExecRequest)
  /-- A client looks for a session. -/
  | get (c : Nat) (id : SessionId)
  /-- A client begins to list the sessions. -/
  | list (c : Nat)
  /-- The listing looks at a session. -/
  | look (id : SessionId)
  /-- The listing has looked at all sessions. -/
  | listed
  /-- A client begins to close a session. -/
  | close (c : Nat) (id : SessionId)
  /-- A client begins to close all sessions. -/
  | closeAll (c : Nat)
  /-- A client that closes all sessions goes on to one that is left. -/
  | next (c : Nat) (id : SessionId)
  /-- A client that closes all sessions has none left. -/
  | allClosed (c : Nat)
  /-- A client that sees the task it waits for stopped takes the name out of the table. -/
  | remove (c : Nat)
  /-- The task of a session begins. -/
  | begin (id : SessionId)
  /-- The task of a session takes an input. -/
  | input (id : SessionId) (i : Session.Input)

def spawn (s : Shared η) (c : Nat) (request : ExecRequest) : StateM ω (Shared η) := do
  match ← s.manager.spawn (ω := ω) request with
  | (m, .ok (t, _)) => return { s with manager := m }.answer c (.spawned t.id)
  | (m, .error e) => return { s with manager := m }.answer c (.notSpawned e)

def get (s : Shared η) (c : Nat) (id : SessionId) : Shared η :=
  match s.manager.getSession id with
  | .ok _ => s.answer c (.found id)
  | .error _ => s.answer c (.notFound id)

def look (s : Shared η) (id : SessionId) : Shared η :=
  match s.listing with
  | some (c, left) =>
    if id ∈ left then
      { s with listing := some (c, left.erase id), manager := s.manager.reap id }
    else s
  | none => s

def listed (s : Shared η) : Shared η :=
  match s.listing with
  | some (c, []) =>
    { s with listing := none }.answer c
      (.listed ((s.manager.tracked.filterMap s.manager.session?).map Session.info))
  | _ => s

/-- Looks a session up to close it.  Who closes all sessions passes over one that is not there. -/
def seek (s : Shared η) (c : Nat) (id : SessionId) (left : Option (List SessionId)) : Shared η :=
  match s.manager.getSession id, left with
  | .ok _, left => s.send c (.stopping id left)
  | .error _, none => s.answer c (.notFound id)
  | .error _, some left => s.send c (.closing left)

def next (s : Shared η) (c : Nat) (id : SessionId) : Shared η :=
  match s.errands c with
  | .closing left => if id ∈ left then s.seek c id (some (left.erase id)) else s
  | _ => s

def allClosed (s : Shared η) (c : Nat) : Shared η :=
  match s.errands c with
  | .closing [] => (s.send c .idle).answer c .closedAll
  | _ => s

def remove (s : Shared η) (c : Nat) : Shared η :=
  match s.errands c with
  | .stopping id left =>
    if s.manager.hasStopped id then
      ({ s with manager := s.manager.untrack id }.send c (.after left)).answer c (.closed id)
    else s
  | _ => s

def begin (s : Shared η) (id : SessionId) : Shared η :=
  match s.manager.session? id with
  | some t => { s with manager := s.manager.update t.begin }
  | none => s

/-- A task takes inputs once it has begun. -/
def input (s : Shared η) (id : SessionId) (i : Session.Input) : StateM ω (Shared η) :=
  match s.manager.session? id with
  | some t =>
    if t.status = .starting then return s
    else do
      let t ← t.react i
      return { s with manager := s.manager.update t }
  | none => return s

/-- What an action leaves. -/
def step (s : Shared η) : Action → StateM ω (Shared η)
  | .spawn c request => if s.canCall c then s.spawn c request else return s
  | .get c id => return if s.canCall c then s.get c id else s
  | .list c => return if s.canCall c then { s with listing := some (c, s.manager.tracked) } else s
  | .look id => return s.look id
  | .listed => return s.listed
  | .close c id => return if s.canCall c then s.seek c id none else s
  | .closeAll c => return if s.canCall c then s.send c (.closing s.manager.tracked) else s
  | .next c id => return if s.isUnlocked then s.next c id else s
  | .allClosed c => return s.allClosed c
  | .remove c => return if s.isUnlocked then s.remove c else s
  | .begin id => return s.begin id
  | .input id i => s.input id i

/-- What a sequence of actions leaves, and what surrounds it then. -/
def run : List Action → Shared η → ω → Shared η × ω
  | [], s, w => (s, w)
  | a :: as, s, w => run as (s.step a w).1 (s.step a w).2

end Shared

/-! ### Tasks that fail in the middle -/

/-- The task of the session fails in the middle when it takes this input: the emulator has no value
for it. -/
def Session.faults {η : Type} (t : Session η) : Session.Input → Bool
  | .chunk bytes =>
    t.phase = .reading && !ContentGate.isBinary t.gate bytes && (t.emulator.feed? bytes).isNone
  | .streamEnd => t.phase = .reading && t.emulator.finish?.isNone
  | _ => false

namespace Shared

variable {ω η : Type} [Host ω η]

/-- The action makes the task of a session fail in the middle. -/
def faults (s : Shared η) : Action → Bool
  | .input id i => (s.manager.session? id).any fun t => t.faults i
  | _ => false

/-- No task fails in the middle. -/
def isCalm : List Action → Shared η → ω → Bool
  | [], _, _ => true
  | a :: as, s, w => !s.faults a && isCalm as (s.step a w).1 (s.step a w).2

end Shared

/-! ### What a spawn does -/

namespace Session

variable {η : Type}

/-- The task of the session has not begun. -/
structure Unbegun (s : Session η) : Prop where
  status : s.status = .starting
  phase : s.phase = .reading
  closed : s.events.closed = false

/-- A session that has just been started has not begun its task. -/
theorem unbegun_started (id : SessionId) (request : ExecRequest) (settings : SessionSettings)
    (running : Running η) : (started id request settings running).Unbegun := ⟨rfl, rfl, rfl⟩

end Session

/-- A spawn adds a session to a table with room, or it fails and leaves the table as it was. -/
theorem Manager.spawn_cases {ω η : Type} [Host ω η] (m : Manager η) (request : ExecRequest) (w : ω) :
    (∃ registry e w', m.spawn request w = (({ m with registry := registry }, .error e), w')) ∨
      ∃ registry t r w', m.spawn request w =
        (({ m with
            registry := registry, sessions := m.sessions ++ [t], tracked := m.tracked ++ [t.id] },
          .ok (t, r)), w') ∧ m.count < m.config.server.maxSessions ∧ t.Unbegun := by
  rw [spawn]
  by_cases hfull : m.config.server.maxSessions ≤ m.count
  · rw [if_pos hfull]
    exact .inl ⟨m.registry, _, w, rfl⟩
  · rw [if_neg hfull]
    rcases hspawn : Session.spawn (ω := ω) (η := η) m.registry m.config.sessionSettings request w
      with ⟨⟨registry, e | ⟨t, r⟩⟩, w'⟩
    · refine .inl ⟨registry, e, w', ?_⟩
      simp only [bind, StateT.bind, hspawn]
      rfl
    · refine .inr ⟨registry, t, r, w', ?_, Nat.lt_of_not_le hfull, ?_⟩
      · simp only [bind, StateT.bind, hspawn]
        rfl
      · obtain ⟨-, id, running, rfl⟩ := Session.exists_started_of_spawn hspawn
        exact Session.unbegun_started id request _ running

/-! ### What an action does -/

namespace Shared

variable {ω η : Type} [Host ω η] {s : Shared η}

/-- What an action can do to the manager. -/
inductive Effect (s : Shared η) : Action → Manager η → Prop where
  | none (a : Action) : Effect s a s.manager
  /-- A spawn that fails. -/
  | refused {c : Nat} {request : ExecRequest} (registry : Registry) :
      Effect s (.spawn c request) { s.manager with registry := registry }
  | added {c : Nat} {request : ExecRequest} (registry : Registry) {t : Session η}
      (hroom : s.manager.count < s.manager.config.server.maxSessions) (ht : t.Unbegun) :
      Effect s (.spawn c request)
        { s.manager with
          registry := registry
          sessions := s.manager.sessions ++ [t]
          tracked := s.manager.tracked ++ [t.id] }
  | begun {id : SessionId} {t : Session η} (ht : s.manager.session? id = some t) :
      Effect s (.begin id) (s.manager.update t.begin)
  | turned {id : SessionId} {i : Session.Input} {t t' : Session η} {es : List Event}
      (ht : s.manager.session? id = some t) (hbegun : t.status ≠ .starting)
      (hturn : t.Turn i t' es) : Effect s (.input id i) (s.manager.update t')
  /-- A listing sees that a session has ended. -/
  | reaped {c : Nat} {left : List SessionId} {id : SessionId}
      (hlisting : s.listing = some (c, left)) (hfinal : s.manager.isFinished id = true) :
      Effect s (.look id) (s.manager.untrack id)
  /-- A client that closes a session sees that its task has stopped. -/
  | removed {c : Nat} {id : SessionId} {left : Option (List SessionId)}
      (herrand : s.errands c = .stopping id left) (hstopped : s.manager.hasStopped id = true) :
      Effect s (.remove c) (s.manager.untrack id)

omit [Host ω η] in
/-- To go on with an errand leaves the manager as it is. -/
theorem manager_seek (s : Shared η) (c : Nat) (id : SessionId) (left : Option (List SessionId)) :
    (s.seek c id left).manager = s.manager := by
  rw [seek.eq_def]
  split <;> rfl

/-- An action that leaves the manager as it is. -/
theorem Effect.of_eq {a : Action} {s' : Shared η} (h : s'.manager = s.manager) :
    Effect s a s'.manager := h.symm ▸ .none a

/-- An action that may do nothing. -/
theorem Effect.ite {a : Action} {p : Prop} [Decidable p] {s' : Shared η}
    (h : Effect s a s'.manager) : Effect s a (if p then s' else s).manager := by
  split
  · exact h
  · exact .none a

theorem effect_spawn (s : Shared η) (c : Nat) (request : ExecRequest) (w : ω) :
    Effect s (.spawn c request) (s.spawn c request w).1.manager := by
  rcases s.manager.spawn_cases request w with
    ⟨registry, e, w', hspawn⟩ | ⟨registry, t, r, w', hspawn, hroom, ht⟩
  · simp only [spawn, bind, StateT.bind, hspawn]
    exact .refused registry
  · simp only [spawn, bind, StateT.bind, hspawn]
    exact .added registry hroom ht

/-- A listing looks at one session, and forgets it if it has ended. -/
theorem effect_look (s : Shared η) (id : SessionId) :
    Effect s (.look id) (s.look id).manager := by
  rw [look]
  split
  · next c left hlisting =>
    refine .ite ?_
    show Effect s (.look id) (s.manager.reap id)
    rw [Manager.reap]
    split
    · exact .reaped hlisting ‹_›
    · exact .none _
  · exact .none _

/-- Only the client goes on, to the next session or to its errand's end. -/
theorem effect_next (s : Shared η) (c : Nat) (id : SessionId) :
    Effect s (.next c id) (s.next c id).manager := by
  rw [next.eq_def]
  split
  · exact .ite (.of_eq (manager_seek s c id _))
  · exact .none _

/-- A client takes out only a session that it has seen stop. -/
theorem effect_remove (s : Shared η) (c : Nat) : Effect s (.remove c) (s.remove c).manager := by
  rw [remove.eq_def]
  split
  · next id left herrand =>
    split
    · exact .removed herrand ‹_›
    · exact .none _
  · exact .none _

/-- Only a task that is in the table begins. -/
theorem effect_begin (s : Shared η) (id : SessionId) :
    Effect s (.begin id) (s.begin id).manager := by
  rw [begin]
  split
  · exact .begun ‹_›
  · exact .none _

/-- An input turns a session that has begun, and is lost on one that has not. -/
theorem effect_input (s : Shared η) (id : SessionId) (i : Session.Input) (w : ω) :
    Effect s (.input id i) (s.input id i w).1.manager := by
  rw [input]
  cases ht : s.manager.session? id with
  | none => exact .none _
  | some t =>
    by_cases hbegun : t.status = .starting
    · simp only [hbegun, if_true]
      exact .none _
    · simp only [hbegun, if_false]
      exact .turned ht hbegun (t.turn_react i w)

/-- **What an action does to the manager** is one of these effects. -/
theorem effect_step (s : Shared η) (a : Action) (w : ω) : Effect s a (s.step a w).1.manager := by
  cases a with
  | spawn c request =>
    rw [step]
    split
    · exact effect_spawn s c request w
    · exact .none _
  | get c id =>
    have hsame : (s.get c id).manager = s.manager := by
      rw [get]
      split <;> rfl
    exact .ite (.of_eq hsame)
  | list c => exact .ite (.of_eq rfl)
  | look id => exact effect_look s id
  | listed =>
    have hsame : s.listed.manager = s.manager := by
      rw [listed.eq_def]
      split <;> rfl
    exact .of_eq hsame
  | close c id => exact .ite (.of_eq (manager_seek s c id none))
  | closeAll c => exact .ite (.of_eq rfl)
  | next c id => exact .ite (effect_next s c id)
  | allClosed c =>
    have hsame : (s.allClosed c).manager = s.manager := by
      rw [allClosed.eq_def]
      split <;> rfl
    exact .of_eq hsame
  | remove c => exact .ite (effect_remove s c)
  | begin id => exact effect_begin s id
  | input id i => exact effect_input s id i w

end Shared

end VirtualTerminal
