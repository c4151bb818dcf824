import VirtualTerminal.Backend.Registry
import VirtualTerminal.Proofs.Registry.Calls

/-!
# Registry — Selection

The backends of a registry are tried in the order of their ranks until one starts the command.

* `pairwise_ranking`, `perm_ranking`: the order is by rank and then by registration, and every
  backend stands in it once.
* `Tried`: what comes of a candidate, by the first check that it fails.  `exists_tried` reads it off
  the program, with the log of what the host is asked.
* `exists_walk`: candidates are tried one after another, each with what the ones before left behind.

**The first backend that works is chosen**, all before it are recorded, and none behind it is
started (`select_first_that_starts`).
-/

namespace VirtualTerminal.Registry

variable {ω η : Type} [Host ω η] {r : Registry} {request : ExecRequest}

/-! ### The order of the candidates -/

/-- The rank of the backend at a place, if there is one. -/
def tier? (r : Registry) (place : Nat) : Option Nat :=
  r.registrations[place]?.map fun e => e.backend.kind.tier

/-- The backend at one place is tried before the one at another. -/
def Before (r : Registry) (i j : Nat) : Prop :=
  ∃ a b, r.tier? i = some a ∧ r.tier? j = some b ∧ (a < b ∨ a = b ∧ i < j)

theorem tier_le_two (k : BackendKind) : k.tier ≤ 2 := by cases k <;> decide

theorem mem_tier_iff {place tier : Nat} :
    (place ∈ (List.range (r.registrations.map fun e => e.backend.kind.tier).length).filter
      fun i => (r.registrations.map fun e => e.backend.kind.tier)[i]? == some tier) ↔
      r.tier? place = some tier := by
  rw [List.mem_filter, List.mem_range, beq_iff_eq, List.getElem?_map, tier?]
  refine and_iff_right_of_imp fun h => ?_
  obtain ⟨e, he, -⟩ := Option.map_eq_some_iff.mp h
  rw [List.length_map]
  exact (List.getElem?_eq_some_iff.mp he).1

/-- **The ranking is in order**: by tier, and within a tier by place. -/
theorem pairwise_ranking (r : Registry) : r.ranking.Pairwise r.Before := by
  rw [ranking, List.pairwise_flatMap]
  constructor
  · intro tier _
    refine List.Pairwise.imp_of_mem ?_ (List.pairwise_lt_range.filter _)
    intro i j hi hj hij
    exact ⟨tier, tier, mem_tier_iff.mp hi, mem_tier_iff.mp hj, .inr ⟨rfl, hij⟩⟩
  · have htiers : [0, 1, 2].Pairwise (· < ·) := by decide
    refine htiers.imp fun hlt i hi j hj => ?_
    exact ⟨_, _, mem_tier_iff.mp hi, mem_tier_iff.mp hj, .inl hlt⟩

theorem nodup_ranking (r : Registry) : r.ranking.Nodup := by
  refine (pairwise_ranking r).imp ?_
  rintro i _ ⟨a, b, ha, hb, hlt⟩ rfl
  obtain rfl := Option.some.inj (ha.symm.trans hb)
  omega

/-- What is ranked is registered, and the other way round. -/
theorem mem_ranking_iff {place : Nat} : place ∈ r.ranking ↔ place < r.registrations.length := by
  rw [ranking, List.mem_flatMap]
  simp only [mem_tier_iff]
  constructor
  · rintro ⟨tier, -, h⟩
    obtain ⟨e, he, -⟩ := Option.map_eq_some_iff.mp h
    exact (List.getElem?_eq_some_iff.mp he).1
  · intro h
    have hle := tier_le_two r.registrations[place].backend.kind
    refine ⟨r.registrations[place].backend.kind.tier, ?_, ?_⟩
    · simp only [List.mem_cons, List.not_mem_nil, or_false]
      omega
    · rw [tier?, List.getElem?_eq_getElem h, Option.map_some]

/-- Every registered backend is ranked once. -/
theorem perm_ranking (r : Registry) : r.ranking.Perm (List.range r.registrations.length) := by
  rw [List.perm_ext_iff_of_nodup r.nodup_ranking List.nodup_range]
  intro place
  rw [mem_ranking_iff, List.mem_range]

/-! ### One candidate -/

/-- The settings exclude a name; names are compared ignoring the case of ASCII letters. -/
def Excludes (r : Registry) (name : String) : Prop :=
  ∃ d ∈ r.disabled, d.toList.map Char.toLower = name.toList.map Char.toLower

theorem isDisabled_iff (r : Registry) (name : String) :
    r.isDisabled name = true ↔ r.Excludes name := by
  rw [isDisabled, List.any_eq_true, Excludes]
  simp only [sameName, beq_iff_eq]
  exact ⟨fun ⟨d, hd, h⟩ => ⟨d, hd, h.symm⟩, fun ⟨d, hd, h⟩ => ⟨d, hd, h.symm⟩⟩

/-- Whether a backend can be used, from memory or by a probe, with what the host is asked for it. -/
inductive Asked (e : Registration) (place : Nat) (w : ω) : Bool → List (Host.Call η) → ω → Prop
  | remembered {available : Bool} (h : e.available = some available) : Asked e place w available [] w
  | probed {available : Bool} {w' : ω} (h : e.available = none)
      (hprobe : Host.probe place w = (available, w')) :
      Asked e place w available [.probe place] w'

/-- What came of a candidate. -/
structure Trial (ω η : Type) where
  place : Nat
  backend : Backend
  /-- The command, or why the candidate was passed over. -/
  outcome : Except AttemptOutcome η
  /-- What is remembered of its availability from then on. -/
  available : Option Bool
  /-- What the host was asked. -/
  calls : List (Host.Call η)
  /-- The host afterwards. -/
  host : ω

/-- What can come of a candidate that is reached with the host in a state.  It is passed over at the
first check that it fails: being disabled, then not being for the platform or not being available,
then not starting. -/
inductive Tried (r : Registry) (request : ExecRequest) (w : ω) : Trial ω η → Prop
  | disabled {place : Nat} {e : Registration} (he : r.registrations[place]? = some e)
      (hname : r.Excludes e.backend.name) :
      Tried r request w ⟨place, e.backend, .error .disabled, e.available, [], w⟩
  | foreign {place : Nat} {e : Registration} (he : r.registrations[place]? = some e)
      (hname : ¬ r.Excludes e.backend.name) (hplatform : r.platform ∉ e.backend.platforms) :
      Tried r request w ⟨place, e.backend, .error .unavailable, e.available, [], w⟩
  | unavailable {place : Nat} {e : Registration} {calls : List (Host.Call η)} {w' : ω}
      (he : r.registrations[place]? = some e)
      (hname : ¬ r.Excludes e.backend.name) (hplatform : r.platform ∈ e.backend.platforms)
      (hasked : Asked e place w false calls w') :
      Tried r request w ⟨place, e.backend, .error .unavailable, some false, calls, w'⟩
  | failed {place : Nat} {e : Registration} {calls : List (Host.Call η)} {w' w'' : ω} {fault : Error}
      (he : r.registrations[place]? = some e)
      (hname : ¬ r.Excludes e.backend.name) (hplatform : r.platform ∈ e.backend.platforms)
      (hasked : Asked e place w true calls w')
      (hstart : Host.start place request w' = (.error fault, w'')) :
      Tried r request w ⟨place, e.backend, .error (.failed fault.message), some true,
        calls ++ [.start place request], w''⟩
  | started {place : Nat} {e : Registration} {calls : List (Host.Call η)} {w' w'' : ω} {handle : η}
      (he : r.registrations[place]? = some e)
      (hname : ¬ r.Excludes e.backend.name) (hplatform : r.platform ∈ e.backend.platforms)
      (hasked : Asked e place w true calls w')
      (hstart : Host.start place request w' = (.ok handle, w'')) :
      Tried r request w ⟨place, e.backend, .ok handle, some true,
        calls ++ [.start place request], w''⟩

/-- To remember what is known changes nothing. -/
theorem remember_eq_self {place : Nat} {e : Registration}
    (he : r.registrations[place]? = some e) : r.remember place e.available = r := by
  have hsame : (r.registrations.modify place fun e' => { e' with available := e.available }) =
      r.registrations := by
    refine List.ext_getElem? fun i => ?_
    rw [List.getElem?_modify]
    split
    · next h =>
      subst h
      rw [he]
      rfl
    · rw [Option.map_eq_map, Option.map_id']
  rw [remember, hsame]

/-- Asking whether the backend at a place can be used. -/
theorem exists_asked {place : Nat} {e : Registration} (he : r.registrations[place]? = some e)
    (w : ω) : ∃ available calls w', Asked e place w available calls w' ∧
      Host.Yields (η := η) (r.isAvailable place) w (r.remember place (some available), available)
        calls w' := by
  have hmemory : r.registrations[place]?.bind Registration.available = e.available := by rw [he]; rfl
  cases h : e.available with
  | some available =>
    refine ⟨available, [], w, .remembered h, ?_⟩
    have hsame : r.remember place (some available) = r := by rw [← h, remember_eq_self he]
    simp only [isAvailable, hmemory, h, hsame]
    exact .pure _ _
  | none =>
    refine ⟨_, _, _, .probed h rfl, ?_⟩
    simp only [isAvailable, hmemory, h, Registry.probe]
    exact (Host.Yields.probe place w).bind (.pure _ _)

/-- **What comes of a candidate**, and what is remembered of it. -/
theorem exists_tried (request : ExecRequest) {place : Nat} {e : Registration}
    (he : r.registrations[place]? = some e) (w : ω) :
    ∃ t : Trial ω η, Tried r request w t ∧ t.place = place ∧
      Host.Yields (r.tryBackend place e.backend request) w
        (r.remember t.place t.available, t.outcome) t.calls t.host := by
  by_cases hname : r.isDisabled e.backend.name = true
  · refine ⟨_, .disabled he ((isDisabled_iff r _).mp hname), rfl, ?_⟩
    simp only [tryBackend, hname, if_true, remember_eq_self he]
    exact .pure _ _
  have hexcludes : ¬ r.Excludes e.backend.name := fun h => hname ((isDisabled_iff r _).mpr h)
  by_cases hplatform : e.backend.platforms.contains r.platform = true
  · have hmem := List.contains_iff_mem.mp hplatform
    obtain ⟨available, calls, w', hasked, hyields⟩ := exists_asked he w
    cases available with
    | false =>
      refine ⟨_, .unavailable he hexcludes hmem hasked, rfl, ?_⟩
      rw [← calls.append_nil]
      simp only [tryBackend, hname, hplatform, Bool.not_true, Bool.false_eq_true, if_false]
      exact hyields.bind (.pure _ _)
    | true =>
      rcases hstart : Host.start place request w' with ⟨fault | handle, w''⟩
      · refine ⟨_, .failed he hexcludes hmem hasked hstart, rfl, ?_⟩
        have hasks := Host.Yields.start (η := η) place request w'
        rw [hstart] at hasks
        simp only [tryBackend, hname, hplatform, Bool.not_true, Bool.false_eq_true, if_false]
        exact hyields.bind (hasks.bind (.pure _ _))
      · refine ⟨_, .started he hexcludes hmem hasked hstart, rfl, ?_⟩
        have hasks := Host.Yields.start (η := η) place request w'
        rw [hstart] at hasks
        simp only [tryBackend, hname, hplatform, Bool.not_true, Bool.false_eq_true, if_false]
        exact hyields.bind (hasks.bind (.pure _ _))
  · have hmem : r.platform ∉ e.backend.platforms := fun h =>
      hplatform (List.contains_iff_mem.mpr h)
    refine ⟨_, .foreign he hexcludes hmem, rfl, ?_⟩
    simp only [tryBackend, hname, hplatform, Bool.false_eq_true, if_false, Bool.not_false, if_true,
      remember_eq_self he]
    exact .pure _ _

/-! ### The walk through the candidates -/

/-- Candidates tried one after another, each with the host that the one before left. -/
inductive Walk (r : Registry) (request : ExecRequest) : ω → List (Trial ω η) → ω → Prop
  | nil (w : ω) : Walk r request w [] w
  | cons {w w' : ω} {t : Trial ω η} {ts : List (Trial ω η)} (ht : Tried r request w t)
      (hts : Walk r request t.host ts w') : Walk r request w (t :: ts) w'

/-- The record of a candidate that was passed over. -/
def Trial.attempt? (t : Trial ω η) : Option Attempt :=
  match t.outcome with
  | .error outcome => some ⟨t.backend.name, outcome⟩
  | .ok _ => none

/-- The candidate was asked to start the command. -/
def Trial.wasStarted (t : Trial ω η) : Bool :=
  match t.outcome with
  | .error (.failed _) => true
  | .error _ => false
  | .ok _ => true

/-- What choosing among these candidates, in this order, comes to. -/
inductive Chosen (candidates : List Nat) : List (Trial ω η) → Except Error (Running η) → Prop
  /-- All candidates before the last one tried were passed over, and that one runs the command. -/
  | running {passed : List (Trial ω η)} {winner : Trial ω η} {rest : List Nat}
      {attempts : List Attempt} {handle : η}
      (hcandidates : candidates = (passed ++ [winner]).map Trial.place ++ rest)
      (hpassed : passed.map Trial.attempt? = attempts.map some)
      (hwinner : winner.outcome = .ok handle) :
      Chosen candidates (passed ++ [winner]) (.ok ⟨winner.backend, handle, attempts⟩)
  /-- All candidates were passed over. -/
  | exhausted {passed : List (Trial ω η)} {attempts : List Attempt}
      (hcandidates : candidates = passed.map Trial.place)
      (hpassed : passed.map Trial.attempt? = attempts.map some) :
      Chosen candidates passed (.error (.backendsExhausted attempts))

omit [Host ω η] in
/-- The candidates tried come first among all, in their order. -/
theorem Chosen.isPrefix {candidates : List Nat} {ts : List (Trial ω η)}
    {result : Except Error (Running η)} (h : Chosen candidates ts result) :
    ts.map Trial.place <+: candidates := by
  cases h with
  | running hcandidates => exact ⟨_, hcandidates.symm⟩
  | exhausted hcandidates => exact hcandidates ▸ List.prefix_refl _

omit [Host ω η] in
/-- The best candidate is tried first. -/
theorem Chosen.exists_cons {place : Nat} {rest : List Nat} {ts : List (Trial ω η)}
    {result : Except Error (Running η)} (h : Chosen (place :: rest) ts result) :
    ∃ t more, ts = t :: more ∧ t.place = place := by
  cases h with
  | @running passed winner _ _ _ hcandidates =>
    cases passed with
    | nil => exact ⟨winner, [], rfl, (List.cons.inj hcandidates).1.symm⟩
    | cons t passed => exact ⟨t, passed ++ [winner], rfl, (List.cons.inj hcandidates).1.symm⟩
  | exhausted hcandidates =>
    obtain ⟨t, more, rfl, hplace, -⟩ := List.map_eq_cons_iff.mp hcandidates.symm
    exact ⟨t, more, rfl, hplace⟩

/-- The registry with what was found out about a candidate. -/
def learn (r : Registry) (t : Trial ω η) : Registry := r.remember t.place t.available

/-- Only the place itself is remembered differently. -/
theorem getElem?_remember_of_ne {i place : Nat} (h : place ≠ i) (available : Option Bool) :
    (r.remember place available).registrations[i]? = r.registrations[i]? := by
  simp [remember, h]

theorem Tried.starts_eq {w : ω} {t : Trial ω η} (h : Tried r request w t) :
    Host.starts t.calls = if t.wasStarted then [t.place] else [] := by
  have hasked : ∀ {e place available calls} {w' : ω},
      Asked e place w available calls w' → Host.starts calls = [] := by
    rintro e place available calls w' (_ | _) <;> rfl
  cases h with
  | disabled | foreign => rfl
  | unavailable _ _ _ h => exact hasked h
  | failed _ _ _ h | started _ _ _ h =>
    rw [Host.starts_append, hasked h]
    rfl

/-- What was asked to start, told from the trials. -/
theorem Walk.starts_eq {w w' : ω} {ts : List (Trial ω η)} (h : Walk r request w ts w') :
    Host.starts (ts.flatMap Trial.calls) = (ts.filter Trial.wasStarted).map Trial.place := by
  induction h with
  | nil => rfl
  | @cons w w' t ts ht hts ih =>
    rw [List.flatMap_cons, Host.starts_append, ih, ht.starts_eq, List.filter_cons]
    split <;> rfl

/-- A trial depends on the platform, on whether the name of its candidate is excluded, and on what is
known of its candidate. -/
theorem Tried.congr_name {q : Registry} {w : ω} {t : Trial ω η} (h : Tried q request w t)
    (hplatform : q.platform = r.platform)
    (hexcludes : q.Excludes t.backend.name ↔ r.Excludes t.backend.name)
    (hsame : q.registrations[t.place]? = r.registrations[t.place]?) : Tried r request w t := by
  cases h with
  | disabled he hname => exact .disabled (hsame ▸ he) (hexcludes.mp hname)
  | foreign he hname hp =>
    exact .foreign (hsame ▸ he) (mt hexcludes.mpr hname) (hplatform ▸ hp)
  | unavailable he hname hp hasked =>
    exact .unavailable (hsame ▸ he) (mt hexcludes.mpr hname) (hplatform ▸ hp) hasked
  | failed he hname hp hasked hstart =>
    exact .failed (hsame ▸ he) (mt hexcludes.mpr hname) (hplatform ▸ hp) hasked hstart
  | started he hname hp hasked hstart =>
    exact .started (hsame ▸ he) (mt hexcludes.mpr hname) (hplatform ▸ hp) hasked hstart

/-- A trial depends on the settings and on what is known of its candidate. -/
theorem Tried.congr {q : Registry} {w : ω} {t : Trial ω η} (h : Tried q request w t)
    (hplatform : q.platform = r.platform) (hdisabled : q.disabled = r.disabled)
    (hsame : q.registrations[t.place]? = r.registrations[t.place]?) : Tried r request w t :=
  h.congr_name hplatform (by rw [Excludes, Excludes, hdisabled]) hsame

theorem Tried.exists_registration {w : ω} {t : Trial ω η} (h : Tried r request w t) :
    ∃ e, r.registrations[t.place]? = some e ∧ e.backend = t.backend := by
  cases h with
  | disabled he | foreign he | unavailable he | failed he | started he => exact ⟨_, he, rfl⟩

/-- **Candidates are tried until one starts.**  The walk is told from the first candidate on: those
in `passed` were passed over before, and `q` is what the registry `r` has become since. -/
theorem exists_walk (request : ExecRequest) {q : Registry} (hplatform : q.platform = r.platform)
    (hdisabled : q.disabled = r.disabled) (candidates : List Nat) (hnodup : candidates.Nodup)
    (hsame : ∀ i ∈ candidates, q.registrations[i]? = r.registrations[i]? ∧
      i < r.registrations.length)
    (passed : List (Trial ω η)) {attempts : List Attempt}
    (hpassed : passed.map Trial.attempt? = attempts.map some) (w : ω) :
    ∃ ts w' result, Walk r request w ts w' ∧
      Chosen (passed.map Trial.place ++ candidates) (passed ++ ts) result ∧
      Host.Yields (tryAll request candidates q attempts) w (ts.foldl learn q, result)
        (ts.flatMap Trial.calls) w' := by
  induction candidates generalizing q passed attempts w with
  | nil =>
    refine ⟨[], w, _, .nil w, ?_, .pure _ _⟩
    rw [List.append_nil, List.append_nil]
    exact .exhausted rfl hpassed
  | cons place candidates ih =>
    obtain ⟨hnotmem, hrestNodup⟩ := List.nodup_cons.mp hnodup
    obtain ⟨⟨heq, hlt⟩, hrestSame⟩ := List.forall_mem_cons.mp hsame
    have he := heq.trans (List.getElem?_eq_getElem hlt)
    obtain ⟨t, ht, rfl, hyields⟩ := exists_tried request he w
    have htried := ht.congr hplatform hdisabled heq
    obtain ⟨e, he', hbackend⟩ := ht.exists_registration
    obtain rfl := Option.some.inj (he.symm.trans he')
    cases houtcome : t.outcome with
    | ok handle =>
      refine ⟨[t], t.host, .ok ⟨t.backend, handle, attempts⟩, .cons htried (.nil _), ?_, ?_⟩
      · rw [← List.singleton_append, ← List.append_assoc]
        exact .running (by rw [List.map_append]; rfl) hpassed houtcome
      · rw [houtcome] at hyields
        rw [← hbackend]
        simp only [tryAll, he]
        exact hyields.bind (.pure _ _)
    | error outcome =>
      have hrecord : (passed ++ [t]).map Trial.attempt? =
          (attempts ++ [Attempt.mk t.backend.name outcome]).map some := by
        rw [List.map_append, List.map_append, hpassed, List.map_singleton, Trial.attempt?, houtcome]
        rfl
      have hother : ∀ i ∈ candidates, (q.learn t).registrations[i]? = r.registrations[i]? ∧
          i < r.registrations.length := by
        intro i hi
        have hne : t.place ≠ i := by
          rintro rfl
          exact hnotmem hi
        exact ⟨(getElem?_remember_of_ne hne _).trans (hrestSame i hi).1, (hrestSame i hi).2⟩
      obtain ⟨ts, w', result, hwalk, hchosen, hrest⟩ :=
        ih (q := q.learn t) hplatform hdisabled hrestNodup hother (passed ++ [t]) hrecord t.host
      refine ⟨t :: ts, w', result, .cons htried hwalk, ?_, ?_⟩
      · rw [List.map_append, List.append_assoc, List.append_assoc] at hchosen
        exact hchosen
      · rw [houtcome] at hyields
        rw [← hbackend] at hrest
        simp only [tryAll, he]
        exact hyields.bind hrest

/-- **The first backend that works is chosen.**  For every registry, whatever its host answers, the
candidates are tried in the order of their ranks, and of their registration within a rank, each
candidate at most once and none behind the first that starts the command.  That one is chosen, and
the record tells of each before it, in order, which check it failed first; if none starts the
command, the record tells this of every backend.  The host is asked to start the command exactly
once for the one that is chosen and for each that is recorded to have failed, and for no other. -/
theorem select_first_that_starts (r : Registry) (request : ExecRequest) (w : ω) :
    (r.ranking.Perm (List.range r.registrations.length) ∧ r.ranking.Pairwise r.Before) ∧
      ∃ (ts : List (Trial ω η)) (w' : ω) (result : Except Error (Running η)),
        Walk r request w ts w' ∧ Chosen r.ranking ts result ∧
        Host.starts (ts.flatMap Trial.calls) = (ts.filter Trial.wasStarted).map Trial.place ∧
        (Host.starts (ts.flatMap Trial.calls)).Nodup ∧
        Host.Yields (r.select request) w (ts.foldl learn r, result) (ts.flatMap Trial.calls) w' := by
  refine ⟨⟨r.perm_ranking, r.pairwise_ranking⟩, ?_⟩
  obtain ⟨ts, w', result, hwalk, hchosen, hyields⟩ :=
    exists_walk (r := r) request rfl rfl r.ranking r.nodup_ranking
      (fun i hi => ⟨rfl, mem_ranking_iff.mp hi⟩) [] (List.map_nil (f := some)).symm w
  refine ⟨ts, w', result, hwalk, hchosen, hwalk.starts_eq, ?_, hyields⟩
  rw [hwalk.starts_eq]
  have hplaces : ((ts.filter Trial.wasStarted).map Trial.place).Sublist r.ranking :=
    (List.filter_sublist.map Trial.place).trans hchosen.isPrefix.sublist
  exact hplaces.nodup r.nodup_ranking

end VirtualTerminal.Registry
