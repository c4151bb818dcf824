import VirtualTerminal.Backend.Local
import VirtualTerminal.Backend.Scripted
import VirtualTerminal.Manager
import VirtualTerminal.Proofs.WellFormed

/-!
# Table — Cleanup

A spawn asks the host for one thing after another: whether backends can be used, to start the
command, to hand over the reader of its output, and, once the session stands, for chunks.  It can
fail before each of them, and after some.  All that is asked and answered is recorded
(`Host.Exchange`), on a host that else answers as it does without a record (`Host.Exchanges`).

* `Registry.exists_tryAll`: choosing a backend only probes and starts, and what it has started is
  the command that it answers, or nothing.
* `Manager.exists_spawning`: the ways a spawn can go, with all that is exchanged
  (`Manager.Spawning`).

**A spawn that fails leaves nothing behind** (`Manager.launch_cleans_up`): no entry in the table, no
command that runs, and no chunk that was read.
-/

namespace VirtualTerminal

namespace Host

/-- A host whose commands' output is read in chunks.  No value means that a command has not come so
far. -/
class Readable (ω : Type) (η : outParam Type) extends Host ω η where
  readChunk (handle : η) : StateM ω (Option ChunkResult)

instance : Readable LocalHost Nat where
  readChunk handle h := h.on handle none LocalCommand.readChunk

/-- Scripted commands print nothing. -/
instance : Readable Scripted Nat where
  readChunk _ h := (some (.ok none), h)

/-! ### Records -/

/-- Something asked of a host, and its answer. -/
inductive Exchange (η : Type) where
  | probe (place : Nat) (available : Bool)
  | start (place : Nat) (request : ExecRequest) (answer : Except Error η)
  | takeReader (handle : η) (answer : Except Error Unit)
  | readChunk (handle : η) (answer : Option ChunkResult)
  | write (handle : η) (data : List UInt8) (answer : Except Error Nat)
  | resize (handle : η) (size : Dimensions) (answer : Except Error Unit)
  | tryWait (handle : η) (answer : Except Error (Option Int))
  | terminate (handle : η) (answer : Except Error Unit)
  | now (seconds : Float)
  | freshId (id : SessionId)

/-- The commands that backends have started. -/
def started {η : Type} (log : List (Exchange η)) : List η :=
  log.filterMap fun x => match x with
    | .start _ _ (.ok handle) => some handle
    | _ => none

/-- The commands of which chunks were read, once for each chunk. -/
def chunksRead {η : Type} (log : List (Exchange η)) : List η :=
  log.filterMap fun x => match x with
    | .readChunk handle _ => some handle
    | _ => none

/-- The commands that were told to stop. -/
def stopped {η : Type} (log : List (Exchange η)) : List η :=
  log.filterMap fun x => match x with
    | .terminate handle _ => some handle
    | _ => none

@[simp] theorem started_append {η : Type} (log more : List (Exchange η)) :
    started (log ++ more) = started log ++ started more := List.filterMap_append

@[simp] theorem chunksRead_append {η : Type} (log more : List (Exchange η)) :
    chunksRead (log ++ more) = chunksRead log ++ chunksRead more := List.filterMap_append

@[simp] theorem stopped_append {η : Type} (log more : List (Exchange η)) :
    stopped (log ++ more) = stopped log ++ stopped more := List.filterMap_append

/-- A backend is looked for: it is probed, or asked to start the command. -/
def Exchange.Seeks {η : Type} : Exchange η → Prop
  | .probe _ _ | .start _ _ _ => True
  | _ => False

section Seeking
variable {η : Type} {log : List (Exchange η)} (h : ∀ x ∈ log, x.Seeks)
include h

/-- Looking for a backend reads nothing. -/
theorem chunksRead_of_seeks : chunksRead log = [] := by
  refine List.filterMap_eq_nil_iff.mpr fun x hx => ?_
  cases x with
  | readChunk => exact (h _ hx).elim
  | _ => rfl

/-- Looking for a backend stops nothing. -/
theorem stopped_of_seeks : stopped log = [] := by
  refine List.filterMap_eq_nil_iff.mpr fun x hx => ?_
  cases x with
  | terminate => exact (h _ hx).elim
  | _ => rfl

end Seeking

/-- Reading a command's output starts and stops nothing. -/
theorem reads_only {η : Type} {handle : η} {log : List (Exchange η)}
    (h : ∀ x ∈ log, ∃ answer, x = .readChunk handle answer) :
    started log = [] ∧ stopped log = [] ∧ ∀ other ∈ chunksRead log, other = handle := by
  refine ⟨List.filterMap_eq_nil_iff.mpr fun x hx => ?_,
    List.filterMap_eq_nil_iff.mpr fun x hx => ?_, fun other hother => ?_⟩
  · obtain ⟨answer, rfl⟩ := h x hx
    rfl
  · obtain ⟨answer, rfl⟩ := h x hx
    rfl
  · obtain ⟨x, hx, hread⟩ := List.mem_filterMap.mp hother
    obtain ⟨answer, rfl⟩ := h x hx
    exact (Option.some.inj hread).symm

/-- A start that succeeded is an element of the commands started. -/
theorem mem_started {η : Type} {before after : List (Exchange η)} {place : Nat}
    {request : ExecRequest} {handle : η} :
    handle ∈ started (before ++ .start place request (.ok handle) :: after) := by
  rw [started_append]
  exact List.mem_append_right _ List.mem_cons_self

/-- Where the last exchange stops the only command that was started, it follows the start. -/
theorem terminate_mem_of_last {η : Type} {log before after : List (Exchange η)} {place : Nat}
    {request : ExecRequest} {handle handle' : η} {stop : Except Error Unit}
    (hlog : log ++ [.terminate handle' stop] = before ++ .start place request (.ok handle) :: after)
    (hstarted : started log = [handle']) : .terminate handle stop ∈ after := by
  have hmem : handle ∈ started (log ++ [.terminate handle' stop]) := hlog ▸ mem_started
  rw [started_append, hstarted] at hmem
  obtain rfl : handle = handle' := List.mem_singleton.mp hmem
  rcases List.eq_nil_or_concat after with rfl | ⟨after, last, rfl⟩
  · cases List.append_inj_right' hlog rfl
  · rw [List.concat_eq_append, ← List.cons_append, ← List.append_assoc] at hlog
    obtain rfl : Exchange.terminate handle stop = last :=
      List.singleton_inj.mp (List.append_inj_right' hlog rfl)
    simp

/-- A host with a record of all that was exchanged. -/
structure Recorded (ω η : Type) where
  host : ω
  log : List (Exchange η) := []

namespace Recorded

variable {ω η α : Type}

/-- Asks the host and records the answer. -/
def pass (exchange : α → Exchange η) (ask : StateM ω α) : StateM (Recorded ω η) α := fun h =>
  ((ask h.host).1, ⟨(ask h.host).2, h.log ++ [exchange (ask h.host).1]⟩)

instance [Readable ω η] : Readable (Recorded ω η) η where
  probe place := pass (.probe place) (Host.probe place)
  start place request := pass (.start place request) (Host.start place request)
  takeReader handle := pass (.takeReader handle) (Host.takeReader handle)
  write handle data := pass (.write handle data) (Host.write handle data)
  resize handle size := pass (.resize handle size) (Host.resize handle size)
  tryWait handle := pass (.tryWait handle) (Host.tryWait handle)
  terminate handle := pass (.terminate handle) (Host.terminate handle)
  now := pass .now (Host.now (ω := ω) (η := η))
  freshId := pass .freshId (Host.freshId (ω := ω) (η := η))
  readChunk handle := pass (.readChunk handle) (Readable.readChunk handle)

end Recorded

/-- A computation on the host, without a record and with one, and what it exchanges. -/
structure Exchanges {ω η α : Type} [Readable ω η]
    (f : ∀ {σ : Type} [Readable σ η], StateM σ α) (w : ω) (answer : α)
    (log : List (Exchange η)) (w' : ω) : Prop where
  host : f w = (answer, w')
  recorded (before : List (Exchange η)) :
    f (⟨w, before⟩ : Recorded ω η) = (answer, (⟨w', before ++ log⟩ : Recorded ω η))

namespace Exchanges

variable {ω η α β : Type} [Readable ω η] {w w' w'' : ω} {log more : List (Exchange η)}

/-- A computation that only answers exchanges nothing. -/
theorem pure (answer : α) (w : ω) :
    Exchanges (fun {σ} [Readable σ η] => (Pure.pure answer : StateM σ α)) w answer [] w where
  host := rfl
  recorded before := by
    rw [List.append_nil]
    rfl

/-- One computation after another has the exchanges of both, in order. -/
theorem bind {f : ∀ {σ : Type} [Readable σ η], StateM σ α}
    {g : ∀ {σ : Type} [Readable σ η], α → StateM σ β} {a : α} {b : β}
    (hf : Exchanges f w a log w')
    (hg : Exchanges (fun {σ} [Readable σ η] => g (σ := σ) a) w' b more w'') :
    Exchanges (fun {σ} [Readable σ η] => f (σ := σ) >>= g) w b (log ++ more) w'' where
  host := by
    show (f >>= g) w = _
    simp only [Bind.bind, StateT.bind, hf.host]
    exact hg.host
  recorded before := by
    show (f >>= g) _ = _
    simp only [Bind.bind, StateT.bind, hf.recorded]
    rw [← List.append_assoc]
    exact hg.recorded (before ++ log)

/-- Going on without asking for anything. -/
theorem bind_silent {f : ∀ {σ : Type} [Readable σ η], StateM σ α}
    {g : ∀ {σ : Type} [Readable σ η], α → StateM σ β} {a : α} {b : β}
    (hf : Exchanges f w a log w')
    (hg : Exchanges (fun {σ} [Readable σ η] => g (σ := σ) a) w' b [] w'') :
    Exchanges (fun {σ} [Readable σ η] => f (σ := σ) >>= g) w b log w'' := by
  have h := hf.bind hg
  rw [List.append_nil] at h
  exact h

variable {handle : η}

theorem probe (place : Nat) (w : ω) :
    Exchanges (η := η) (Host.probe place) w (Host.probe place w).1
      [.probe place (Host.probe place w).1] (Host.probe place w).2 := ⟨rfl, fun _ => rfl⟩

theorem takeReader {answer : Except Error Unit} (h : Host.takeReader handle w = (answer, w')) :
    Exchanges (Host.takeReader handle) w answer [.takeReader handle answer] w' := by
  obtain ⟨rfl, rfl⟩ := Prod.mk.inj h
  exact ⟨rfl, fun _ => rfl⟩

theorem terminate (handle : η) (w : ω) :
    Exchanges (Host.terminate handle) w (Host.terminate handle w).1
      [.terminate handle (Host.terminate handle w).1] (Host.terminate handle w).2 :=
  ⟨rfl, fun _ => rfl⟩

theorem freshId (w : ω) :
    Exchanges (η := η) (Host.freshId (η := η)) w (Host.freshId (η := η) w).1
      [.freshId (Host.freshId (η := η) w).1] (Host.freshId (η := η) w).2 := ⟨rfl, fun _ => rfl⟩

theorem readChunk {answer : Option ChunkResult} (h : Readable.readChunk handle w = (answer, w')) :
    Exchanges (Readable.readChunk handle) w answer [.readChunk handle answer] w' := by
  obtain ⟨rfl, rfl⟩ := Prod.mk.inj h
  exact ⟨rfl, fun _ => rfl⟩

theorem start {place : Nat} {request : ExecRequest} {answer : Except Error η}
    (h : Host.start place request w = (answer, w')) :
    Exchanges (Host.start place request) w answer [.start place request answer] w' := by
  obtain ⟨rfl, rfl⟩ := Prod.mk.inj h
  exact ⟨rfl, fun _ => rfl⟩

end Exchanges

end Host

/-! ### Choosing a backend -/

namespace Registry

variable {ω η : Type} [Host.Readable ω η] {r : Registry} {request : ExecRequest}

/-- Asking whether a backend can be used starts nothing. -/
theorem exists_isAvailable (r : Registry) (place : Nat) (w : ω) :
    ∃ (r' : Registry) (available : Bool) (log : List (Host.Exchange η)) (w' : ω),
      Host.Exchanges (η := η) (r.isAvailable place) w (r', available) log w' ∧
      (∀ x ∈ log, x.Seeks) ∧ Host.started log = [] := by
  cases hmemory : r.registrations[place]?.bind Registration.available with
  | some available =>
    refine ⟨r, available, [], w, ?_, nofun, rfl⟩
    simp only [isAvailable, hmemory]
    exact .pure _ _
  | none =>
    refine ⟨r.remember place (some (Host.probe place w).1), (Host.probe place w).1,
      [.probe place (Host.probe place w).1], (Host.probe place w).2, ?_,
      by simp [Host.Exchange.Seeks], rfl⟩
    simp only [isAvailable, hmemory, Registry.probe]
    exact (Host.Exchanges.probe place w).bind_silent (.pure _ _)

/-- Trying a backend starts the command that it answers, if it answers one. -/
theorem exists_tryBackend (r : Registry) (place : Nat) (b : Backend) (request : ExecRequest)
    (w : ω) :
    ∃ (r' : Registry) (outcome : Except AttemptOutcome η) (log : List (Host.Exchange η)) (w' : ω),
      Host.Exchanges (r.tryBackend place b request) w (r', outcome) log w' ∧
      (∀ x ∈ log, x.Seeks) ∧ Host.started log = outcome.toOption.toList := by
  by_cases hname : r.isDisabled b.name = true
  · refine ⟨r, .error .disabled, [], w, ?_, nofun, rfl⟩
    simp only [tryBackend, hname, if_true]
    exact .pure _ _
  by_cases hplatform : b.platforms.contains r.platform = true
  · obtain ⟨r', available, log, w₁, hasked, hseeks, hnone⟩ :=
      exists_isAvailable (η := η) r place w
    cases available with
    | false =>
      refine ⟨r', .error .unavailable, log, w₁, ?_, hseeks, hnone⟩
      simp only [tryBackend, hname, hplatform, Bool.not_true, Bool.false_eq_true, if_false]
      exact hasked.bind_silent (.pure _ _)
    | true =>
      rcases hstart : Host.start place request w₁ with ⟨answer, w₂⟩
      have hseeks' : ∀ x ∈ log ++ [.start place request answer], x.Seeks := by
        simpa [or_imp, forall_and, Host.Exchange.Seeks] using hseeks
      have hstarted : Host.started (log ++ [.start place request answer]) =
          answer.toOption.toList := by
        rw [Host.started_append, hnone]
        cases answer <;> rfl
      cases answer with
      | error fault =>
        refine ⟨r', .error (.failed fault.message), _, w₂, ?_, hseeks', hstarted⟩
        simp only [tryBackend, hname, hplatform, Bool.not_true, Bool.false_eq_true, if_false]
        exact hasked.bind ((Host.Exchanges.start hstart).bind_silent (.pure _ _))
      | ok handle =>
        refine ⟨r', .ok handle, _, w₂, ?_, hseeks', hstarted⟩
        simp only [tryBackend, hname, hplatform, Bool.not_true, Bool.false_eq_true, if_false]
        exact hasked.bind ((Host.Exchanges.start hstart).bind_silent (.pure _ _))
  · refine ⟨r, .error .unavailable, [], w, ?_, nofun, rfl⟩
    simp only [tryBackend, hname, hplatform, Bool.false_eq_true, if_false, Bool.not_false, if_true]
    exact .pure _ _

/-- **Choosing among backends** starts the command that is answered, and no other. -/
theorem exists_tryAll (request : ExecRequest) (candidates : List Nat) (r : Registry)
    (attempts : List Attempt) (w : ω) :
    ∃ (r' : Registry) (answer : Except Error (Running η)) (log : List (Host.Exchange η)) (w' : ω),
      Host.Exchanges (tryAll request candidates r attempts) w (r', answer) log w' ∧
      (∀ x ∈ log, x.Seeks) ∧
      Host.started log = (answer.toOption.map Running.handle).toList := by
  induction candidates generalizing r attempts w with
  | nil => exact ⟨r, .error (.backendsExhausted attempts), [], w, .pure _ _, nofun, rfl⟩
  | cons place candidates ih =>
    cases he : r.registrations[place]? with
    | none =>
      obtain ⟨r', answer, log, w', hrest, hfacts⟩ := ih r attempts w
      refine ⟨r', answer, log, w', ?_, hfacts⟩
      simp only [tryAll, he]
      exact hrest
    | some e =>
      obtain ⟨r₁, outcome, log, w₁, htried, hseeks, hstarted⟩ :=
        exists_tryBackend r place e.backend request w
      cases outcome with
      | ok handle =>
        refine ⟨r₁, .ok ⟨e.backend, handle, attempts⟩, log, w₁, ?_, hseeks, hstarted⟩
        simp only [tryAll, he]
        exact htried.bind_silent (.pure _ _)
      | error reason =>
        obtain ⟨r', answer, more, w', hrest, hseeks', hstarted'⟩ :=
          ih r₁ (attempts ++ [⟨e.backend.name, reason⟩]) w₁
        refine ⟨r', answer, log ++ more, w', ?_, ?_, ?_⟩
        · simp only [tryAll, he]
          exact htried.bind hrest
        · intro x hx
          exact (List.mem_append.mp hx).elim (hseeks x) (hseeks' x)
        · rw [Host.started_append, hstarted, hstarted']
          rfl

end Registry

/-! ### Starting a session -/

namespace Session

variable {ω η : Type} [Host.Readable ω η] {request : ExecRequest}

/-- What the thread that reads a command's output does: it reads until the stream ends or fails, or
until the session has taken so many chunks and is gone. -/
def readOut (handle : η) : Nat → StateM ω Unit
  | 0 => return ()
  | n + 1 => do
    match ← Host.Readable.readChunk handle with
    | some (.ok (some _)) => readOut handle n
    | _ => return ()

/-- Reading a command's output asks for chunks and for nothing else. -/
theorem exists_readOut (handle : η) (n : Nat) (w : ω) :
    ∃ (log : List (Host.Exchange η)) (w' : ω),
      Host.Exchanges (readOut handle n) w () log w' ∧
      ∀ x ∈ log, ∃ answer, x = .readChunk handle answer := by
  induction n generalizing w with
  | zero => exact ⟨[], w, .pure _ _, nofun⟩
  | succ n ih =>
    rcases hread : Host.Readable.readChunk handle w with ⟨answer, w₁⟩
    have hlast : ∀ x ∈ [Host.Exchange.readChunk handle answer],
        ∃ answer, x = .readChunk handle answer :=
      fun x hx => ⟨answer, List.mem_singleton.mp hx⟩
    rcases answer with _ | (reason | (_ | chunk))
    · exact ⟨_, w₁, (Host.Exchanges.readChunk hread).bind_silent (.pure _ _), hlast⟩
    · exact ⟨_, w₁, (Host.Exchanges.readChunk hread).bind_silent (.pure _ _), hlast⟩
    · exact ⟨_, w₁, (Host.Exchanges.readChunk hread).bind_silent (.pure _ _), hlast⟩
    · obtain ⟨more, w', hrest, hreads⟩ := ih w₁
      refine ⟨_, w', (Host.Exchanges.readChunk hread).bind hrest, fun x hx => ?_⟩
      exact (List.mem_append.mp hx).elim (hlast x) (hreads x)

/-- The ways in which a session of a request starts or does not, and what is exchanged.  The log up
to the choice of a backend only seeks. -/
inductive Spawning (request : ExecRequest) :
    Except Error (Session η × Receiver) → List (Host.Exchange η) → Prop
  | empty (hsize : request.dimensions.isEmpty = true) :
      Spawning request (.error (.resizeOutOfBounds request.dimensions)) []
  | exhausted {e : Error} {log : List (Host.Exchange η)}
      (hsize : request.dimensions.isEmpty = false) (hseeks : ∀ x ∈ log, x.Seeks)
      (hstarted : Host.started log = []) : Spawning request (.error e) log
  /-- The reader of the command that was started is not available, so it is stopped. -/
  | unreadable {handle : η} {e : Error} {stop : Except Error Unit} {log : List (Host.Exchange η)}
      (hsize : request.dimensions.isEmpty = false) (hseeks : ∀ x ∈ log, x.Seeks)
      (hstarted : Host.started log = [handle]) :
      Spawning request (.error e) (log ++ [.takeReader handle (.error e), .terminate handle stop])
  | running {s : Session η} {receiver : Receiver} {log : List (Host.Exchange η)}
      (hsize : request.dimensions.isEmpty = false) (hseeks : ∀ x ∈ log, x.Seeks)
      (hstarted : Host.started log = [s.handle]) :
      Spawning request (.ok (s, receiver)) (log ++ [.takeReader s.handle (.ok ()), .freshId s.id])

/-- **A spawn of a session**, with all that it exchanges. -/
theorem exists_spawn (registry : Registry) (settings : SessionSettings) (request : ExecRequest)
    (w : ω) :
    ∃ (registry' : Registry) (answer : Except Error (Session η × Receiver))
      (log : List (Host.Exchange η)) (w' : ω),
      Host.Exchanges (spawn registry settings request) w (registry', answer) log w' ∧
      Spawning request answer log := by
  cases hsize : request.dimensions.isEmpty with
  | true =>
    refine ⟨registry, .error (.resizeOutOfBounds request.dimensions), [], w, ?_, .empty hsize⟩
    simp only [spawn, Dimensions.validate, hsize, if_true]
    exact .pure _ _
  | false =>
    obtain ⟨registry', chosen, log, w₁, hselect, hseeks, hstarted⟩ :=
      Registry.exists_tryAll (η := η) request registry.ranking registry [] w
    cases chosen with
    | error e =>
      refine ⟨registry', .error e, log, w₁, ?_, .exhausted hsize hseeks hstarted⟩
      simp only [spawn, Dimensions.validate, hsize, Bool.false_eq_true, if_false]
      exact hselect.bind_silent (.pure _ _)
    | ok running =>
      rcases hreader : Host.takeReader running.handle w₁ with ⟨e | ⟨⟩, w₂⟩
      · refine ⟨registry', .error e,
          log ++ [.takeReader running.handle (.error e),
            .terminate running.handle (Host.terminate running.handle w₂).1],
          (Host.terminate running.handle w₂).2, ?_, .unreadable hsize hseeks hstarted⟩
        simp only [spawn, Dimensions.validate, hsize, Bool.false_eq_true, if_false]
        exact hselect.bind ((Host.Exchanges.takeReader hreader).bind
          ((Host.Exchanges.terminate running.handle w₂).bind_silent (.pure _ _)))
      · let fresh := ofRunning (Host.freshId (η := η) w₂).1 request settings running
        let s := { fresh with events := fresh.events.subscribe.1 }
        have hcommand : Host.started log = [s.handle] := hstarted
        refine ⟨registry', .ok (s, fresh.events.subscribe.2),
          log ++ [.takeReader s.handle (.ok ()), .freshId s.id],
          (Host.freshId (η := η) w₂).2, ?_, .running hsize hseeks hcommand⟩
        simp only [spawn, Dimensions.validate, hsize, Bool.false_eq_true, if_false]
        exact hselect.bind ((Host.Exchanges.takeReader hreader).bind
          ((Host.Exchanges.freshId w₂).bind_silent (.pure _ _)))

namespace Spawning

omit [Host.Readable ω η]

variable {log : List (Host.Exchange η)} {answer : Except Error (Session η × Receiver)}

/-- A size without rows or columns is refused before anything is asked. -/
theorem of_empty (h : Spawning request answer log) (hsize : request.dimensions.isEmpty = true) :
    (∃ e, answer = .error e) ∧ log = [] := by
  cases h with
  | empty => exact ⟨⟨_, rfl⟩, rfl⟩
  | exhausted hpos | unreadable hpos | running hpos => cases hsize.symm.trans hpos

/-- A session that does not start has read nothing, and what was started is stopped. -/
theorem of_error {e : Error} (h : Spawning request (.error e) log) :
    Host.chunksRead log = [] ∧
      ∀ before place asked handle after,
        log = before ++ .start place asked (.ok handle) :: after →
          ∃ stop, .terminate handle stop ∈ after := by
  cases h with
  | empty => exact ⟨rfl, fun before _ _ _ _ hlog => absurd hlog.symm (by simp)⟩
  | exhausted _ hseeks hnone =>
    refine ⟨Host.chunksRead_of_seeks hseeks, fun before place asked handle after hlog => ?_⟩
    have hmem : handle ∈ Host.started log := hlog ▸ Host.mem_started
    rw [hnone] at hmem
    cases hmem
  | @unreadable handle _ stop found _ hseeks hone =>
    refine ⟨?_, fun before place asked handle' after hlog => ⟨stop, ?_⟩⟩
    · rw [Host.chunksRead_append, Host.chunksRead_of_seeks hseeks]
      rfl
    · rw [← List.singleton_append, ← List.append_assoc] at hlog
      refine Host.terminate_mem_of_last hlog ?_
      rw [Host.started_append, hone]
      rfl

/-- A session that starts runs the only command that was started, and nothing was stopped. -/
theorem of_ok {s : Session η} {receiver : Receiver} (h : Spawning request (.ok (s, receiver)) log) :
    Host.started log = [s.handle] ∧ Host.stopped log = [] ∧ Host.chunksRead log = [] := by
  cases h with
  | running _ hseeks hone =>
    rw [Host.started_append, Host.stopped_append, Host.chunksRead_append, hone,
      Host.stopped_of_seeks hseeks, Host.chunksRead_of_seeks hseeks]
    exact ⟨rfl, rfl, rfl⟩

end Spawning

end Session

namespace Manager

variable {ω η : Type} [Host.Readable ω η]

/-- Starts a session as a program does: the runtime that its tasks need may be missing, and once the
session stands, a thread reads some chunks of its output. -/
def launch (m : Manager η) (runtime : Except String Unit) (request : ExecRequest) (reads : Nat) :
    StateM ω (Manager η × Except Error (Session η × Receiver)) := do
  match runtime with
  | .error reason =>
    if m.config.server.maxSessions ≤ m.count then
      return (m, .error (.sessionLimitReached m.config.server.maxSessions))
    else return (m, .error (.pty ("sessions need a Tokio runtime: " ++ reason)))
  | .ok () =>
    match ← m.spawn request with
    | (m, .error e) => return (m, .error e)
    | (m, .ok (s, receiver)) =>
      Session.readOut s.handle reads
      return (m, .ok (s, receiver))

/-- Inside a runtime, and before anything is read, it is a spawn. -/
theorem launch_eq_spawn (m : Manager η) (request : ExecRequest) :
    m.launch (.ok ()) request 0 = (m.spawn request : StateM ω _) := by
  funext w
  simp only [launch, bind, StateT.bind]
  rcases m.spawn request w with ⟨⟨m', e | ⟨s, receiver⟩⟩, w'⟩ <;> rfl

/-- The ways in which a spawn goes, and what is exchanged. -/
inductive Spawning (m : Manager η) (runtime : Except String Unit) (request : ExecRequest) :
    Manager η → Except Error (Session η × Receiver) → List (Host.Exchange η) → Prop
  | full (hfull : m.config.server.maxSessions ≤ m.count) :
      Spawning m runtime request m (.error (.sessionLimitReached m.config.server.maxSessions)) []
  | outside {reason : String} (hroom : m.count < m.config.server.maxSessions)
      (hruntime : runtime = .error reason) :
      Spawning m runtime request m (.error (.pty ("sessions need a Tokio runtime: " ++ reason))) []
  | refused {registry : Registry} {e : Error} {log : List (Host.Exchange η)}
      (hroom : m.count < m.config.server.maxSessions) (hruntime : runtime = .ok ())
      (hspawning : Session.Spawning request (.error e : Except Error (Session η × Receiver)) log) :
      Spawning m runtime request { m with registry := registry } (.error e) log
  | running {registry : Registry} {s : Session η} {receiver : Receiver}
      {log reads : List (Host.Exchange η)}
      (hroom : m.count < m.config.server.maxSessions) (hruntime : runtime = .ok ())
      (hspawning : Session.Spawning request (.ok (s, receiver)) log)
      (hreads : ∀ x ∈ reads, ∃ answer, x = .readChunk s.handle answer) :
      Spawning m runtime request
        { m with
          registry := registry, sessions := m.sessions ++ [s], tracked := m.tracked ++ [s.id] }
        (.ok (s, receiver)) (log ++ reads)

/-- **How a spawn can go.** -/
theorem exists_spawning (m : Manager η) (runtime : Except String Unit) (request : ExecRequest)
    (reads : Nat) (w : ω) :
    ∃ (m' : Manager η) (answer : Except Error (Session η × Receiver))
      (log : List (Host.Exchange η)) (w' : ω),
      Host.Exchanges (m.launch runtime request reads) w (m', answer) log w' ∧
      m.Spawning runtime request m' answer log := by
  cases runtime with
  | error reason =>
    by_cases hfull : m.config.server.maxSessions ≤ m.count
    · refine ⟨m, _, [], w, ?_, .full hfull⟩
      simp only [launch, if_pos hfull]
      exact .pure _ _
    · refine ⟨m, _, [], w, ?_, .outside (Nat.lt_of_not_le hfull) rfl⟩
      simp only [launch, if_neg hfull]
      exact .pure _ _
  | ok started =>
    cases started
    by_cases hfull : m.config.server.maxSessions ≤ m.count
    · refine ⟨m, _, [], w, ?_, .full hfull⟩
      simp only [launch, spawn, if_pos hfull]
      exact .pure _ _
    · have hroom := Nat.lt_of_not_le hfull
      obtain ⟨registry, answer, log, w₁, hspawn, hspawning⟩ :=
        Session.exists_spawn (η := η) m.registry m.config.sessionSettings request w
      rcases answer with e | ⟨s, receiver⟩
      · have hrefused : Host.Exchanges (m.spawn request) w
            ({ m with registry := registry }, .error e) log w₁ := by
          simp only [spawn, if_neg hfull]
          exact hspawn.bind_silent (.pure _ _)
        exact ⟨{ m with registry := registry }, .error e, log, w₁,
          hrefused.bind_silent (.pure _ _), .refused hroom rfl hspawning⟩
      · let m' : Manager η := { m with
          registry := registry, sessions := m.sessions ++ [s], tracked := m.tracked ++ [s.id] }
        have hrunning : Host.Exchanges (m.spawn request) w (m', .ok (s, receiver)) log w₁ := by
          simp only [spawn, if_neg hfull]
          exact hspawn.bind_silent (.pure _ _)
        obtain ⟨reads, w₂, hread, hall⟩ := Session.exists_readOut s.handle reads w₁
        exact ⟨m', .ok (s, receiver), log ++ reads, w₂,
          hrunning.bind (hread.bind_silent (.pure _ _)), .running hroom rfl hspawning hall⟩

/-- **A spawn that fails leaves nothing behind.**  Whatever the backends answer, the table is as it
was, no chunk has been read, and every command that a backend has started has been told to stop
since.  A full table, and a size without rows or columns, fail before the host is asked for
anything.  A spawn that succeeds has started one command, which is in the table and not stopped, and
it is the only one whose output is read. -/
theorem launch_cleans_up (m : Manager η) (runtime : Except String Unit) (request : ExecRequest)
    (reads : Nat) (w : ω) :
    (m.launch (.ok ()) request 0 : StateM ω _) = m.spawn request ∧
    ∃ (m' : Manager η) (answer : Except Error (Session η × Receiver))
      (log : List (Host.Exchange η)) (w' : ω),
      Host.Exchanges (m.launch runtime request reads) w (m', answer) log w' ∧
      (∀ e, answer = .error e →
        (m'.tracked = m.tracked ∧ m'.sessions = m.sessions ∧ m'.config = m.config) ∧
        Host.chunksRead log = [] ∧
        ∀ before place asked handle after,
          log = before ++ .start place asked (.ok handle) :: after →
            ∃ stop, .terminate handle stop ∈ after) ∧
      (m.config.server.maxSessions ≤ m.count ∨ request.dimensions.rows = 0 ∨
          request.dimensions.cols = 0 →
        (∃ e, answer = .error e) ∧ log = []) ∧
      ∀ s receiver, answer = .ok (s, receiver) →
        (m'.tracked = m.tracked ++ [s.id] ∧ m'.sessions = m.sessions ++ [s]) ∧
        Host.started log = [s.handle] ∧ Host.stopped log = [] ∧
        ∀ handle ∈ Host.chunksRead log, handle = s.handle := by
  obtain ⟨m', answer, log, w', hexchanges, hspawning⟩ := m.exists_spawning runtime request reads w
  have hnothing : ∀ before place asked handle (after : List (Host.Exchange η)),
      [] = before ++ .start place asked (.ok handle) :: after →
        ∃ stop, .terminate handle stop ∈ after :=
    fun before _ _ _ _ hlog => absurd hlog.symm (by simp)
  -- with room in the table, only the size is left to blame
  have hempty : m.count < m.config.server.maxSessions →
      (m.config.server.maxSessions ≤ m.count ∨ request.dimensions.rows = 0 ∨
        request.dimensions.cols = 0) → request.dimensions.isEmpty = true :=
    fun hroom hcause =>
      Dimensions.isEmpty_eq_true_iff.mpr (hcause.resolve_left (Nat.not_le_of_lt hroom))
  refine ⟨m.launch_eq_spawn request, m', answer, log, w', hexchanges, ?_⟩
  cases hspawning with
  | full hfull =>
    exact ⟨fun _ _ => ⟨⟨rfl, rfl, rfl⟩, rfl, hnothing⟩, fun _ => ⟨⟨_, rfl⟩, rfl⟩,
      fun _ _ hanswer => nomatch hanswer⟩
  | outside hroom hruntime =>
    exact ⟨fun _ _ => ⟨⟨rfl, rfl, rfl⟩, rfl, hnothing⟩, fun _ => ⟨⟨_, rfl⟩, rfl⟩,
      fun _ _ hanswer => nomatch hanswer⟩
  | refused hroom hruntime hsession =>
    exact ⟨fun _ _ => ⟨⟨rfl, rfl, rfl⟩, hsession.of_error⟩,
      fun hcause => hsession.of_empty (hempty hroom hcause), fun _ _ hanswer => nomatch hanswer⟩
  | @running registry s receiver found reads hroom hruntime hsession hreads =>
    refine ⟨fun _ hanswer => (nomatch hanswer), fun hcause => ?_, fun s' receiver' hanswer => ?_⟩
    · obtain ⟨⟨e, he⟩, -⟩ := hsession.of_empty (hempty hroom hcause)
      cases he
    · obtain ⟨rfl, rfl⟩ := Prod.mk.inj (Except.ok.inj hanswer)
      obtain ⟨hone, hnone, hunread⟩ := hsession.of_ok
      obtain ⟨hreadStarted, hreadStopped, hread⟩ := Host.reads_only hreads
      rw [Host.started_append, Host.stopped_append, Host.chunksRead_append, hone, hnone, hunread,
        hreadStarted, hreadStopped]
      exact ⟨⟨rfl, rfl⟩, rfl, rfl, hread⟩

/-- Two backends of which the first starts nothing, and the second nothing that can be read. -/
def unreadableMocks : Manager Nat × Scripted :=
  ({ config := {}
     registry := .ofBackends .linux [⟨"first", .nativePty, [.linux], .full⟩,
      ⟨"second", .subprocess, [.linux], .full⟩] },
    { scripts := [{ backendName := "first", startFault := some (.pty "no terminal") },
      { backendName := "second", readerFault := some (.io "no reader") }] })

/-- The second backend starts the command, its output cannot be read, and so it is told to stop. -/
theorem launch_cleans_up_unreadableMocks :
    ∃ m' log w', Host.Exchanges (unreadableMocks.1.launch (.ok ()) { command := "sh" } 3)
        unreadableMocks.2 (m', .error (.io "no reader")) log w' ∧
      (m'.tracked = [] ∧ m'.sessions = []) ∧ Host.chunksRead log = [] ∧
      Host.started log = [0] ∧ Host.stopped log = [0] := by
  obtain ⟨-, m', answer, log, w', hexchanges, herror, -⟩ :=
    launch_cleans_up unreadableMocks.1 (.ok ()) { command := "sh" } 3 unreadableMocks.2
  let out := unreadableMocks.1.launch (.ok ()) { command := "sh" } 3
    (⟨unreadableMocks.2, []⟩ : Host.Recorded Scripted Nat)
  have hout : out = ((m', answer), ⟨w', log⟩) := hexchanges.recorded []
  have hlog : (Host.started out.2.log, Host.stopped out.2.log) = ([0], [0]) := by decide +kernel
  have hfault : (match out.1.2 with | .error e => some e | .ok _ => none) =
      some (.io "no reader") := by decide +kernel
  rw [hout] at hlog hfault
  obtain ⟨hstarted, hstopped⟩ := Prod.mk.inj hlog
  rcases answer with e | ⟨s, receiver⟩
  · obtain rfl := Option.some.inj hfault
    obtain ⟨⟨htracked, hsessions, -⟩, hunread, -⟩ := herror _ rfl
    exact ⟨m', log, w', hexchanges, ⟨htracked, hsessions⟩, hunread, hstarted, hstopped⟩
  · cases hfault

end Manager

end VirtualTerminal
