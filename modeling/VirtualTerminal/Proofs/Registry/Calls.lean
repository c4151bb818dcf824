import VirtualTerminal.Backend.Basic

/-!
# Registry — Calls

What is asked of a host, in which order.  A host with a log (`Host.Logged`) answers as it does
without, and keeps all that it was asked.
-/

namespace VirtualTerminal.Host

/-- Something asked of a host. -/
inductive Call (η : Type) where
  | probe (place : Nat)
  | start (place : Nat) (request : ExecRequest)
  | takeReader (handle : η)
  | write (handle : η) (data : List UInt8)
  | resize (handle : η) (size : Dimensions)
  | tryWait (handle : η)
  | terminate (handle : η)
  | now
  | freshId
deriving DecidableEq, Repr

/-- The backends that were asked to start a command. -/
def starts {η : Type} (calls : List (Call η)) : List Nat :=
  calls.filterMap fun c => match c with
    | .start place _ => some place
    | _ => none

/-- The starts of two logs one after the other. -/
@[simp] theorem starts_append {η : Type} (calls more : List (Call η)) :
    starts (calls ++ more) = starts calls ++ starts more := List.filterMap_append

/-- The backends that were asked whether they can be used. -/
def probes {η : Type} (calls : List (Call η)) : List Nat :=
  calls.filterMap fun c => match c with
    | .probe place => some place
    | _ => none

@[simp] theorem probes_append {η : Type} (calls more : List (Call η)) :
    probes (calls ++ more) = probes calls ++ probes more := List.filterMap_append

/-- A host with a log. -/
structure Logged (ω η : Type) where
  host : ω
  /-- All that the host was asked, in order. -/
  calls : List (Call η)

namespace Logged

variable {ω η α : Type} [Host ω η]

/-- Asks the host and logs it. -/
def pass (c : Call η) (ask : StateM ω α) : StateM (Logged ω η) α := fun h =>
  ((ask h.host).1, ⟨(ask h.host).2, h.calls ++ [c]⟩)

instance : Host (Logged ω η) η where
  probe place := pass (.probe place) (Host.probe place)
  start place request := pass (.start place request) (Host.start place request)
  takeReader handle := pass (.takeReader handle) (Host.takeReader handle)
  write handle data := pass (.write handle data) (Host.write handle data)
  resize handle size := pass (.resize handle size) (Host.resize handle size)
  tryWait handle := pass (.tryWait handle) (Host.tryWait handle)
  terminate handle := pass (.terminate handle) (Host.terminate handle)
  now := pass .now (Host.now (ω := ω) (η := η))
  freshId := pass .freshId (Host.freshId (ω := ω) (η := η))

end Logged

section Yields
variable {ω η α β : Type} [Host ω η] {w w' w'' : ω} {calls more : List (Call η)}

/-- A computation on the host, without a log and with one, and what it asks. -/
structure Yields (f : ∀ {σ : Type} [Host σ η], StateM σ α) (w : ω) (answer : α)
    (calls : List (Call η)) (w' : ω) : Prop where
  host : f w = (answer, w')
  logged (log : List (Call η)) :
    f (⟨w, log⟩ : Logged ω η) = (answer, (⟨w', log ++ calls⟩ : Logged ω η))

/-- A computation that only answers asks the host nothing. -/
theorem Yields.pure (answer : α) (w : ω) :
    Yields (fun {σ} [Host σ η] => (Pure.pure answer : StateM σ α)) w answer [] w where
  host := rfl
  logged log := by
    rw [List.append_nil]
    rfl

/-- One computation after another asks what the first asks and then what the second asks. -/
theorem Yields.bind {f : ∀ {σ : Type} [Host σ η], StateM σ α}
    {g : ∀ {σ : Type} [Host σ η], α → StateM σ β} {a : α} {b : β}
    (hf : Yields f w a calls w')
    (hg : Yields (fun {σ} [Host σ η] => g (σ := σ) a) w' b more w'') :
    Yields (fun {σ} [Host σ η] => f (σ := σ) >>= g) w b (calls ++ more) w'' where
  host := by
    show (f >>= g) w = _
    simp only [Bind.bind, StateT.bind, hf.host]
    exact hg.host
  logged log := by
    show (f >>= g) _ = _
    simp only [Bind.bind, StateT.bind, hf.logged]
    rw [← List.append_assoc]
    exact hg.logged (log ++ calls)

/-- A probe is logged under the backend's place. -/
theorem Yields.probe (place : Nat) (w : ω) :
    Yields (η := η) (Host.probe place) w (Host.probe place w).1 [.probe place]
      (Host.probe place w).2 := ⟨rfl, fun _ => rfl⟩

/-- A start is logged with the request it is for. -/
theorem Yields.start (place : Nat) (request : ExecRequest) (w : ω) :
    Yields (η := η) (Host.start place request) w (Host.start place request w).1
      [.start place request] (Host.start place request w).2 := ⟨rfl, fun _ => rfl⟩

end Yields

end VirtualTerminal.Host
