import VirtualTerminal.Proofs.Registry.Selection

/-!
# Registry — Operations

A registry lives through operations: commands are started, backends are asked again whether they can
be used, what is remembered of them is forgotten, names are excluded, and backends are added.  The
host may become anything between two operations, so each operation is given the host that it meets.

* `Performed`: what an operation can do, one case for each outcome, and the moments at which it has
  to do with a backend.  `exists_performed` reads it off the program, with the log of what the host
  is asked.
* `Ran`: a life of a registry as its moments, one operation after the other (`exists_ran`).
-/

namespace VirtualTerminal.Registry

variable {ω η : Type} [Host ω η] {r q : Registry}

/-! ### What can be asked of a registry -/

/-- What can be asked of a registry. -/
inductive Operation where
  /-- To start a command on the best backend that works. -/
  | select (request : ExecRequest)
  /-- To ask a backend again whether it can be used. -/
  | recheck (name : String)
  /-- To forget whether backends can be used. -/
  | forget
  /-- To exclude a name. -/
  | disable (name : String)
  /-- To exclude every backend of another name. -/
  | restrict (name : String)
  /-- To add a backend behind the others. -/
  | register (b : Backend)
deriving DecidableEq, Repr

/-- What an operation answers. -/
inductive Reply (η : Type) where
  | selected (result : Except Error (Running η))
  | rechecked (available : Option Bool)
  | refused (e : Error)
  | done

/-- Performs an operation on a registry in place; one that is refused leaves the registry alone. -/
def perform (r : Registry) : Operation → StateM ω (Registry × Reply η)
  | .select request => do
    let (r, result) ← r.select request
    return (r, .selected result)
  | .recheck name => do
    let (r, available) ← r.recheck (η := η) name
    return (r, .rechecked available)
  | .forget => return (r.forget, .done)
  | .disable name => return (r.disable name, .done)
  | .restrict name =>
    match r.restrictTo name with
    | .ok q => return (q, .done)
    | .error e => return (r, .refused e)
  | .register b => return (r.register b, .done)

/-- The registry after operations, each with the host that it meets. -/
def after (r : Registry) (ops : List (ω × Operation)) : Registry :=
  ops.foldl (fun r op => (r.perform (η := η) op.2 op.1).1.1) r

/-! ### Excluding names -/

theorem exists_disable_eq (r : Registry) (name : String) :
    ∃ names, r.disable name = { r with disabled := names } := by
  rw [disable]
  split
  · exact ⟨r.disabled, rfl⟩
  · exact ⟨_, rfl⟩

theorem exists_foldl_disable_eq (names : List String) (r : Registry) :
    ∃ all, names.foldl disable r = { r with disabled := all } := by
  induction names generalizing r with
  | nil => exact ⟨r.disabled, rfl⟩
  | cons name names ih =>
    obtain ⟨some, hsome⟩ := exists_disable_eq r name
    obtain ⟨all, hall⟩ := ih (r.disable name)
    refine ⟨all, ?_⟩
    rw [List.foldl_cons, hall, hsome]

/-- Only what is excluded changes with a restriction. -/
theorem exists_restrictTo_eq {name : String} (h : r.restrictTo name = .ok q) :
    ∃ names, q = { r with disabled := names } := by
  rw [restrictTo] at h
  split at h
  · obtain rfl := Except.ok.inj h
    exact exists_foldl_disable_eq _ r
  · cases h

/-! ### What an operation does -/

/-- A moment in which an operation has to do with the memory of a registry. -/
inductive Moment (ω η : Type) where
  /-- A selection on a registry reaches a candidate. -/
  | reached (r : Registry) (t : Trial ω η)
  /-- A backend of a registry is asked again. -/
  | rechecked (r : Registry) (name : String) (place : Nat) (answer : Bool)
  /-- All that is remembered is forgotten. -/
  | forgotten

/-- What the host is asked in a moment. -/
def Moment.calls : Moment ω η → List (Host.Call η)
  | .reached _ t => t.calls
  | .rechecked _ _ place _ => [.probe place]
  | .forgotten => []

/-- What an operation can do to a registry, with its moments, and what it leaves behind. -/
inductive Performed (r : Registry) (w : ω) : Operation → List (Moment ω η) → Registry → Prop
  | selected {request : ExecRequest} {ts : List (Trial ω η)} {w' : ω}
      {result : Except Error (Running η)} (hwalk : Walk r request w ts w')
      (hchosen : Chosen r.ranking ts result) :
      Performed r w (.select request) (ts.map (.reached r)) (ts.foldl learn r)
  | rechecked {name : String} {place : Nat} {answer : Bool} {w' : ω}
      (hfind : r.find? name = some place) (hprobe : Host.probe place w = (answer, w')) :
      Performed r w (.recheck name) [.rechecked r name place answer]
        (r.remember place (some answer))
  | unknown {name : String} (hfind : r.find? name = none) : Performed r w (.recheck name) [] r
  | forgotten : Performed r w .forget [.forgotten] r.forget
  | disabled (name : String) : Performed r w (.disable name) [] (r.disable name)
  | restricted {name : String} {q : Registry} (hrestrict : r.restrictTo name = .ok q) :
      Performed r w (.restrict name) [] q
  | refused {name : String} {e : Error} (hrestrict : r.restrictTo name = .error e) :
      Performed r w (.restrict name) [] r
  | registered (b : Backend) : Performed r w (.register b) [] (r.register b)

omit [Host ω η] in
theorem flatMap_reached (r : Registry) (ts : List (Trial ω η)) :
    (ts.map (.reached r)).flatMap Moment.calls = ts.flatMap Trial.calls :=
  List.flatMap_map ..

/-- **A selection** walks through the candidates until one starts. -/
theorem exists_selected (r : Registry) (request : ExecRequest) (w : ω) :
    ∃ (ts : List (Trial ω η)) (w' : ω) (result : Except Error (Running η)),
      Walk r request w ts w' ∧ Chosen r.ranking ts result ∧
      Host.Yields (r.select request) w (ts.foldl learn r, result) (ts.flatMap Trial.calls) w' :=
  exists_walk request rfl rfl r.ranking r.nodup_ranking (fun _ hi => ⟨rfl, mem_ranking_iff.mp hi⟩)
    [] (List.map_nil (f := some)).symm w

/-- **Asking again** remembers the answer. -/
theorem exists_rechecked {name : String} {place : Nat} (hfind : r.find? name = some place) (w : ω) :
    ∃ (answer : Bool) (w' : ω), Host.probe place w = (answer, w') ∧
      Host.Yields (η := η) (r.recheck name) w (r.remember place (some answer), some answer)
        [.probe place] w' := by
  refine ⟨_, _, rfl, ?_⟩
  have hprobe : Host.Yields (η := η) (r.probe place) w
      (r.remember place (some (Host.probe place w).1), (Host.probe place w).1) [.probe place]
      (Host.probe place w).2 := (Host.Yields.probe place w).bind (.pure _ _)
  simp only [recheck, hfind]
  exact hprobe.bind (.pure _ _)

/-- **An operation does one of these things**, and asks the host what its moments say. -/
theorem exists_performed (r : Registry) (op : Operation) (w : ω) :
    ∃ (ms : List (Moment ω η)) (r' : Registry) (reply : Reply η) (w' : ω),
      Performed r w op ms r' ∧
      Host.Yields (r.perform op) w (r', reply) (ms.flatMap Moment.calls) w' := by
  cases op with
  | select request =>
    obtain ⟨ts, w', result, hwalk, hchosen, hyields⟩ := exists_selected (η := η) r request w
    refine ⟨_, _, .selected result, w', .selected hwalk hchosen, ?_⟩
    rw [flatMap_reached, ← (ts.flatMap Trial.calls).append_nil]
    exact hyields.bind (.pure _ _)
  | recheck name =>
    cases hfind : r.find? name with
    | none =>
      refine ⟨[], r, .rechecked none, w, .unknown hfind, ?_⟩
      simp only [perform, recheck, hfind]
      exact .pure _ _
    | some place =>
      obtain ⟨answer, w', hprobe, hyields⟩ := exists_rechecked (η := η) hfind w
      exact ⟨_, _, .rechecked (some answer), w', .rechecked hfind hprobe, hyields.bind (.pure _ _)⟩
  | forget => exact ⟨_, _, .done, w, .forgotten, .pure _ _⟩
  | disable name => exact ⟨_, _, .done, w, .disabled name, .pure _ _⟩
  | restrict name =>
    cases hrestrict : r.restrictTo name with
    | ok q =>
      refine ⟨_, _, .done, w, .restricted hrestrict, ?_⟩
      simp only [perform, hrestrict]
      exact .pure _ _
    | error e =>
      refine ⟨_, _, .refused e, w, .refused hrestrict, ?_⟩
      simp only [perform, hrestrict]
      exact .pure _ _
  | register b => exact ⟨_, _, .done, w, .registered b, .pure _ _⟩

/-! ### Lives of a registry -/

/-- A life of a registry: operations, each with the host that it meets, and their moments.  The host
is asked what the moments say, and nothing else. -/
inductive Ran : Registry → List (ω × Operation) → List (Moment ω η) → Prop
  | nil (r : Registry) : Ran r [] []
  | cons {r r' : Registry} {w w' : ω} {op : Operation} {ops : List (ω × Operation)}
      {ms more : List (Moment ω η)} {reply : Reply η} (h : Performed r w op ms r')
      (hyields : Host.Yields (r.perform op) w (r', reply) (ms.flatMap Moment.calls) w')
      (hs : Ran r' ops more) : Ran r ((w, op) :: ops) (ms ++ more)

theorem exists_ran (r : Registry) (ops : List (ω × Operation)) :
    ∃ history : List (Moment ω η), Ran r ops history := by
  induction ops generalizing r with
  | nil => exact ⟨[], .nil r⟩
  | cons op ops ih =>
    obtain ⟨ms, r', reply, w', hperformed, hyields⟩ := exists_performed (η := η) r op.2 op.1
    obtain ⟨more, hmore⟩ := ih r'
    exact ⟨ms ++ more, .cons hperformed hyields hmore⟩

/-- Operations one after another: the first one does what it can do, and the others follow. -/
theorem after_cons (r : Registry) (w : ω) (op : Operation) (ops : List (ω × Operation)) :
    ∃ (ms : List (Moment ω η)) (r' : Registry),
      Performed r w op ms r' ∧ r.after ((w, op) :: ops) = r'.after ops := by
  obtain ⟨ms, r', reply, w', hperformed, hyields⟩ := exists_performed (η := η) r op w
  refine ⟨ms, r', hperformed, ?_⟩
  rw [after, List.foldl_cons, hyields.host]
  rfl

end VirtualTerminal.Registry
