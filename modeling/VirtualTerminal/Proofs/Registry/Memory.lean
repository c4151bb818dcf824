import VirtualTerminal.Backend.Scripted
import VirtualTerminal.Proofs.Registry.Operations

/-!
# Registry — Memory

Asking a backend whether it can be used may take long, so a registry remembers the answer.  What it
remembers of a backend is the latest answer that the backend gave, unless all answers were forgotten
since then.

* `latest?`: the latest answer of a backend, told from the moments of a life alone.
* `Recalls`: the registry remembers just these answers.  Every operation keeps this
  (`Recalls.performed`).
* `Moment.Fits`: who is asked in a moment, and what becomes of the answer.  All moments of a life
  fit those before them (`Ran.unfolds`).

**A selection asks only what is not remembered, and goes by the latest answer**
(`asks_only_what_is_unknown`).
-/

namespace VirtualTerminal.Registry

variable {ω η : Type} {r q : Registry} {history before ms : List (Moment ω η)}

/-! ### Answers -/

/-- The answer of the candidate, if it was asked whether it can be used. -/
def Trial.answer? (t : Trial ω η) : Option Bool :=
  match t.calls with
  | .probe _ :: _ => t.available
  | _ => none

namespace Moment

/-- The backend that is asked whether it can be used, and its answer. -/
def answer? : Moment ω η → Option (Nat × Bool)
  | .reached _ t => t.answer?.map fun answer => (t.place, answer)
  | .rechecked _ _ place answer => some (place, answer)
  | .forgotten => none

/-- A selection asks the backend at a place. -/
def selects (place : Nat) : Moment ω η → Bool
  | .reached _ t => t.place == place && t.answer?.isSome
  | _ => false

/-- The latest answer of the backend at a place after a moment, from the one before it. -/
def update (place : Nat) (latest : Option Bool) : Moment ω η → Option Bool
  | .reached _ t => if t.place = place then t.answer?.or latest else latest
  | .rechecked _ _ asked answer => if asked = place then some answer else latest
  | .forgotten => none

end Moment

/-- The latest answer of the backend at a place, if there was one since all were forgotten. -/
def latest? (place : Nat) (history : List (Moment ω η)) : Option Bool :=
  history.foldl (Moment.update place) none

/-- One more moment may bring a newer answer. -/
theorem latest?_concat (place : Nat) (history : List (Moment ω η)) (m : Moment ω η) :
    latest? place (history ++ [m]) = m.update place (latest? place history) := by
  rw [latest?, List.foldl_append]
  rfl

/-- A latest answer stays one until all answers are forgotten. -/
theorem isSome_update {place : Nat} {latest : Option Bool} {m : Moment ω η}
    (hm : m ≠ .forgotten) (h : latest.isSome = true) : (m.update place latest).isSome = true := by
  cases m with
  | forgotten => exact absurd rfl hm
  | reached _ t =>
    rw [Moment.update]
    split
    · rw [Option.isSome_or, h, Bool.or_true]
    · exact h
  | rechecked =>
    rw [Moment.update]
    split
    · rfl
    · exact h

/-! ### What a registry remembers -/

/-- What is remembered of the backend at a place. -/
def remembered? (r : Registry) (place : Nat) : Option Bool :=
  r.registrations[place]?.bind Registration.available

/-- The registry remembers the latest answers, and no others. -/
def Recalls (r : Registry) (history : List (Moment ω η)) : Prop :=
  ∀ place, r.remembered? place = latest? place history

theorem remembered?_of_registrations (h : q.registrations = r.registrations) (place : Nat) :
    q.remembered? place = r.remembered? place := by
  rw [remembered?, remembered?, h]

/-- What is remembered of a backend is what was learned of it last. -/
theorem remembered?_remember {asked : Nat} (h : asked < r.registrations.length)
    (available : Option Bool) (place : Nat) :
    (r.remember asked available).remembered? place =
      if asked = place then available else r.remembered? place := by
  simp only [remembered?, remember, List.getElem?_modify]
  split
  · next heq =>
    subst heq
    rw [List.getElem?_eq_getElem h]
    rfl
  · rw [Option.map_eq_map, Option.map_id']

/-- After an invalidation nothing is remembered. -/
theorem remembered?_forget (r : Registry) (place : Nat) : r.forget.remembered? place = none := by
  rw [remembered?, forget, List.getElem?_map]
  cases r.registrations[place]? <;> rfl

theorem remembered?_register (r : Registry) (b : Backend) (place : Nat) :
    (r.register b).remembered? place = r.remembered? place := by
  rw [remembered?, remembered?, register, List.getElem?_append]
  split
  · rfl
  · next h =>
    rw [List.getElem?_eq_none (Nat.le_of_not_lt h), List.getElem?_singleton]
    split <;> rfl

theorem remembered?_ofBackends (platform : Platform) (backends : List Backend)
    (disabled : List String) (place : Nat) :
    { ofBackends platform backends with disabled := disabled }.remembered? place = none := by
  rw [remembered?, ofBackends, List.getElem?_map]
  cases backends[place]? <;> rfl

theorem remembered?_of_some {place : Nat} {e : Registration}
    (he : r.registrations[place]? = some e) : r.remembered? place = e.available := by
  rw [remembered?, he]
  rfl

/-- A trial leaves the candidate's answer behind, or what was remembered if it was not asked. -/
theorem Tried.available_eq [Host ω η] {request : ExecRequest} {w : ω} {t : Trial ω η}
    (h : Tried r request w t) : t.available = t.answer?.or (r.remembered? t.place) := by
  cases h with
  | disabled he | foreign he => exact (remembered?_of_some he).symm
  | unavailable he _ _ hasked | failed he _ _ hasked | started he _ _ hasked =>
    rw [remembered?_of_some he]
    cases hasked with
    | remembered h => exact h.symm
    | probed => rfl

/-! ### What a moment has to fit -/

/-- What becomes of a candidate that a selection on a registry reaches, after the moments before. -/
structure Judged (before : List (Moment ω η)) (r : Registry) (t : Trial ω η) : Prop where
  /-- The host is asked whether the candidate can be used, or nothing of the kind. -/
  probes : Host.probes t.calls = (t.answer?.map fun _ => t.place).toList
  /-- It is asked only if it is neither excluded nor for other platforms, and no answer is known. -/
  unknown : t.answer?.isSome = true → ¬ r.Excludes t.backend.name ∧
    r.platform ∈ t.backend.platforms ∧ latest? t.place before = none
  /-- The latest answer, its own included, decides whether it is asked to start the command. -/
  decided : ¬ r.Excludes t.backend.name → r.platform ∈ t.backend.platforms →
    ∃ available, latest? t.place (before ++ [.reached r t]) = some available ∧
      Host.starts t.calls = (if available then [t.place] else []) ∧
      (available = false → t.outcome = .error .unavailable)

/-- A moment fits the moments before it. -/
def Moment.Fits (before : List (Moment ω η)) : Moment ω η → Prop
  | .reached r t => Judged before r t
  | .rechecked r name place _ => r.find? name = some place
  | .forgotten => True

/-- Moments that follow others, each of which fits those before it. -/
inductive Unfolds : List (Moment ω η) → List (Moment ω η) → Prop
  | nil (before : List (Moment ω η)) : Unfolds before []
  | cons {before ms : List (Moment ω η)} {m : Moment ω η} (h : m.Fits before)
      (hs : Unfolds (before ++ [m]) ms) : Unfolds before (m :: ms)

/-- An answer in the last moment is the latest. -/
theorem latest?_reached (before : List (Moment ω η)) (r : Registry) (t : Trial ω η) :
    latest? t.place (before ++ [.reached r t]) = t.answer?.or (latest? t.place before) := by
  rw [latest?_concat, Moment.update, if_pos rfl]

/-- **A candidate**, reached by a selection that recalls its latest answer. -/
theorem Tried.judged [Host ω η] {request : ExecRequest} {w : ω} {t : Trial ω η}
    (h : Tried r request w t) (hrecall : r.remembered? t.place = latest? t.place before) :
    Judged before r t := by
  have hlatest : latest? t.place (before ++ [.reached r t]) = t.available := by
    rw [latest?_reached, ← hrecall, h.available_eq]
  have hasked : ∀ {e : Registration} {place available calls} {w' : ω},
      r.registrations[place]? = some e → Asked e place w available calls w' →
      Host.starts calls = [] ∧
      (calls = [] ∨ calls = [.probe place] ∧ r.remembered? place = none) := by
    intro e place available calls w' he hasked
    cases hasked with
    | remembered => exact ⟨rfl, .inl rfl⟩
    | probed h => exact ⟨rfl, .inr ⟨rfl, (remembered?_of_some he).trans h⟩⟩
  cases h with
  | disabled _ hname => exact ⟨rfl, nofun, fun h => absurd hname h⟩
  | foreign _ _ hplatform => exact ⟨rfl, nofun, fun _ h => absurd h hplatform⟩
  | unavailable he hname hplatform h =>
    obtain ⟨hstarts, rfl | ⟨rfl, hunknown⟩⟩ := hasked he h
    · exact ⟨rfl, nofun, fun _ _ => ⟨false, hlatest, hstarts, fun _ => rfl⟩⟩
    · exact ⟨rfl, fun _ => ⟨hname, hplatform, hrecall.symm.trans hunknown⟩,
        fun _ _ => ⟨false, hlatest, hstarts, fun _ => rfl⟩⟩
  | failed he hname hplatform h | started he hname hplatform h =>
    obtain ⟨hstarts, rfl | ⟨rfl, hunknown⟩⟩ := hasked he h
    · exact ⟨rfl, nofun, fun _ _ => ⟨true, hlatest, rfl, nofun⟩⟩
    · exact ⟨rfl, fun _ => ⟨hname, hplatform, hrecall.symm.trans hunknown⟩,
        fun _ _ => ⟨true, hlatest, rfl, nofun⟩⟩

theorem Unfolds.append (h : Unfolds before ms) {more : List (Moment ω η)}
    (hmore : Unfolds (before ++ ms) more) : Unfolds before (ms ++ more) := by
  induction h with
  | nil => rwa [List.append_nil] at hmore
  | cons h _ ih =>
    refine .cons h (ih ?_)
    rwa [List.append_assoc, List.singleton_append]

theorem Unfolds.split {more : List (Moment ω η)} (h : Unfolds before (ms ++ more)) :
    Unfolds before ms ∧ Unfolds (before ++ ms) more := by
  induction ms generalizing before with
  | nil => exact ⟨.nil before, by rwa [List.append_nil]⟩
  | cons m ms ih =>
    cases h with
    | cons h hs =>
      obtain ⟨hms, hmore⟩ := ih hs
      refine ⟨.cons h hms, ?_⟩
      rwa [List.append_assoc, List.singleton_append] at hmore

/-! ### What an operation does to the memory -/

/-- To learn from a trial keeps the memory in step with the history. -/
theorem Recalls.learn {t : Trial ω η} (h : q.Recalls history)
    (hplace : t.place < q.registrations.length)
    (havailable : t.available = t.answer?.or (q.remembered? t.place)) (r : Registry) :
    (q.learn t).Recalls (history ++ [.reached r t]) := by
  intro place
  rw [Registry.learn, remembered?_remember hplace, latest?_concat, Moment.update, havailable, h, h]
  split
  · next heq => rw [heq]
  · rfl

/-- **A selection** from a registry `r`, told from a candidate on: `q` is what the registry has
become at that candidate. -/
theorem Walk.unfolds [Host ω η] {request : ExecRequest} {w w' : ω} {ts : List (Trial ω η)}
    (h : Walk r request w ts w') (hnodup : (ts.map Trial.place).Nodup)
    (hsame : ∀ t ∈ ts, q.registrations[t.place]? = r.registrations[t.place]?)
    (hrecalls : q.Recalls history) :
    Unfolds history (ts.map (.reached r)) ∧
      (ts.foldl Registry.learn q).Recalls (history ++ ts.map (.reached r)) := by
  induction h generalizing q history with
  | nil =>
    rw [List.map_nil, List.append_nil]
    exact ⟨.nil history, hrecalls⟩
  | @cons w w' t ts ht hts ih =>
    obtain ⟨hnotmem, hrest⟩ := List.nodup_cons.mp hnodup
    have hsame_t := hsame t List.mem_cons_self
    have hremembered : r.remembered? t.place = q.remembered? t.place := by
      rw [remembered?, remembered?, hsame_t]
    obtain ⟨e, he, -⟩ := ht.exists_registration
    have hplace := (List.getElem?_eq_some_iff.mp (hsame_t.trans he)).1
    have hlearned := hrecalls.learn hplace (hremembered ▸ ht.available_eq) r
    obtain ⟨hunfolds, hall⟩ := ih hrest (q := q.learn t) (fun t' ht' => by
      have hne : t.place ≠ t'.place := fun heq =>
        hnotmem (heq ▸ List.mem_map_of_mem ht')
      exact (getElem?_remember_of_ne hne _).trans (hsame t' (List.mem_cons_of_mem _ ht'))) hlearned
    refine ⟨.cons (ht.judged (hremembered.trans (hrecalls _))) hunfolds, ?_⟩
    rwa [List.append_assoc, List.singleton_append] at hall

/-- **An operation** on a registry that recalls the latest answers: its moments fit, and it leaves
such a registry behind. -/
theorem Recalls.performed [Host ω η] {w : ω} {op : Operation} {r' : Registry}
    (hrecalls : r.Recalls history) (h : Performed r w op ms r') :
    Unfolds history ms ∧ r'.Recalls (history ++ ms) := by
  have hsame : r'.registrations = r.registrations → ms = [] →
      Unfolds history ms ∧ r'.Recalls (history ++ ms) := by
    rintro hsame rfl
    rw [List.append_nil]
    exact ⟨.nil history, fun place => (remembered?_of_registrations hsame place).trans (hrecalls _)⟩
  cases h with
  | selected hwalk hchosen =>
    have hnodup := hchosen.isPrefix.sublist.nodup r.nodup_ranking
    exact hwalk.unfolds hnodup (fun _ _ => rfl) hrecalls
  | @rechecked name place answer w' hfind =>
    have hplace : place < r.registrations.length := by
      have hlt := (List.findIdx?_eq_some_iff_getElem.mp hfind).1
      rwa [names, List.length_map] at hlt
    refine ⟨.cons hfind (.nil _), fun other => ?_⟩
    rw [remembered?_remember hplace, latest?_concat, Moment.update, hrecalls]
  | unknown | refused => exact hsame rfl rfl
  | forgotten =>
    refine ⟨.cons trivial (.nil _), fun place => ?_⟩
    rw [remembered?_forget, latest?_concat, Moment.update]
  | disabled name =>
    obtain ⟨names, heq⟩ := exists_disable_eq r name
    exact hsame (by rw [heq]) rfl
  | restricted hrestrict =>
    obtain ⟨names, rfl⟩ := exists_restrictTo_eq hrestrict
    exact hsame rfl rfl
  | registered b =>
    rw [List.append_nil]
    exact ⟨.nil history, fun place => (remembered?_register r b place).trans (hrecalls _)⟩

/-- **All moments of a life fit those before them.** -/
theorem Ran.unfolds [Host ω η] {ops : List (ω × Operation)} (h : Ran r ops ms)
    (hrecalls : r.Recalls history) : Unfolds history ms := by
  induction h generalizing history with
  | nil => exact .nil history
  | cons hperformed _ _ ih =>
    obtain ⟨hunfolds, hleft⟩ := hrecalls.performed hperformed
    exact hunfolds.append (ih hleft)

/-! ### Probes -/

/-- The place of the backend that is asked in a moment. -/
def Moment.asked? (m : Moment ω η) : Option Nat := m.answer?.map Prod.fst

/-- A moment that fits probes what it says, once. -/
theorem Moment.Fits.probes_eq {m : Moment ω η} (h : m.Fits before) :
    Host.probes m.calls = m.asked?.toList := by
  cases m with
  | reached _ t =>
    rw [Moment.calls, Judged.probes h, asked?, answer?, Option.map_map]
    rfl
  | rechecked | forgotten => rfl

/-- **The host is asked in these moments**, and in no others. -/
theorem Unfolds.probes_eq (h : Unfolds before ms) :
    Host.probes (ms.flatMap Moment.calls) = ms.filterMap Moment.asked? := by
  induction h with
  | nil => rfl
  | cons h _ ih =>
    rw [List.flatMap_cons, Host.probes_append, ih, h.probes_eq, List.filterMap_cons]
    cases Moment.asked? _ <;> rfl

theorem Moment.selects_iff {place : Nat} {m : Moment ω η} : m.selects place = true ↔
    ∃ r t, m = .reached r t ∧ t.place = place ∧ t.answer?.isSome = true := by
  cases m with
  | reached r t =>
    rw [selects, Bool.and_eq_true, beq_iff_eq]
    constructor
    · rintro ⟨hplace, hasked⟩
      exact ⟨r, t, rfl, hplace, hasked⟩
    · rintro ⟨_, _, heq, hplace, hasked⟩
      cases heq
      exact ⟨hplace, hasked⟩
  | rechecked | forgotten =>
    constructor
    · intro h
      cases h
    · rintro ⟨_, _, heq, -⟩
      cases heq

/-- While an answer is known, no selection asks. -/
theorem Unfolds.countP_selects_eq_zero {place : Nat} (h : Unfolds before ms)
    (hms : .forgotten ∉ ms) (hknown : (latest? place before).isSome = true) :
    ms.countP (Moment.selects place) = 0 := by
  induction h with
  | nil => rfl
  | @cons before ms m h _ ih =>
    obtain ⟨hm, hms⟩ := not_or.mp (mt List.mem_cons.mpr hms)
    have hnot : ¬ m.selects place = true := by
      intro hselects
      obtain ⟨r, t, rfl, rfl, hasked⟩ := Moment.selects_iff.mp hselects
      rw [(Judged.unknown h hasked).2.2] at hknown
      cases hknown
    rw [List.countP_cons_of_neg hnot]
    refine ih hms ?_
    rw [latest?_concat]
    exact isSome_update (Ne.symm hm) hknown

/-- **Until all is forgotten, selections ask a backend once at most.** -/
theorem Unfolds.countP_selects_le_one (h : Unfolds before ms) (hms : .forgotten ∉ ms)
    (place : Nat) : ms.countP (Moment.selects place) ≤ 1 := by
  induction h with
  | nil => exact Nat.zero_le 1
  | @cons before ms m h hs ih =>
    have hrest : .forgotten ∉ ms := fun hmem => hms (List.mem_cons_of_mem m hmem)
    by_cases hselects : m.selects place = true
    · obtain ⟨r, t, rfl, rfl, hasked⟩ := Moment.selects_iff.mp hselects
      have hknown : (latest? t.place (before ++ [.reached r t])).isSome = true := by
        rw [latest?_reached, Option.isSome_or, hasked, Bool.true_or]
      have hnone := hs.countP_selects_eq_zero hrest hknown
      rw [List.countP_cons_of_pos hselects]
      omega
    · rw [List.countP_cons_of_neg hselects]
      exact ih hrest

/-- **A selection asks only what is not remembered, and goes by the latest answer.**  Take a new
registry of any backends, with any names excluded, and any operations on it, each with any host, so
that backends may answer otherwise each time they are asked.  Then the host is asked whether a
backend can be used just in the moments of the history that say so, and:

* the backend is the first one with the name that a recheck gives, or a candidate that a selection
  reaches while it is not excluded, is for the platform, and has given no answer since it was
  added or all answers were forgotten;
* in a part of the history in which nothing is forgotten, selections ask a backend once at most;
* every candidate that a selection reaches and that is neither excluded nor for other platforms is
  treated as its latest answer says: it is asked to start the command, or recorded as unavailable
  and not asked. -/
theorem asks_only_what_is_unknown [Host ω η] (platform : Platform) (backends : List Backend)
    (disabled : List String) (ops : List (ω × Operation)) :
    ∃ history : List (Moment ω η),
      Ran { ofBackends platform backends with disabled := disabled } ops history ∧
      Host.probes (history.flatMap Moment.calls) = history.filterMap Moment.asked? ∧
      (∀ before m after, history = before ++ m :: after → ∀ place, m.asked? = some place →
        (∃ r name answer, m = .rechecked r name place answer ∧ r.find? name = some place) ∨
        ∃ r t, m = .reached r t ∧ t.place = place ∧ ¬ r.Excludes t.backend.name ∧
          r.platform ∈ t.backend.platforms ∧ latest? place before = none) ∧
      (∀ before part after, history = before ++ part ++ after → .forgotten ∉ part →
        ∀ place, part.countP (Moment.selects place) ≤ 1) ∧
      ∀ before r t after, history = before ++ .reached r t :: after →
        ¬ r.Excludes t.backend.name → r.platform ∈ t.backend.platforms →
        ∃ available, latest? t.place (before ++ [.reached r t]) = some available ∧
          Host.starts t.calls = (if available then [t.place] else []) ∧
          (available = false → t.outcome = .error .unavailable) := by
  obtain ⟨history, hran⟩ := exists_ran (η := η)
    { ofBackends platform backends with disabled := disabled } ops
  have hunfolds : Unfolds [] history :=
    hran.unfolds (remembered?_ofBackends platform backends disabled)
  have hfits : ∀ {before m after}, history = before ++ m :: after → m.Fits before := by
    rintro before m after rfl
    cases hunfolds.split.2 with
    | cons h => rwa [List.nil_append] at h
  refine ⟨history, hran, hunfolds.probes_eq, ?_, ?_, ?_⟩
  · intro before m after hsplit place hasked
    have hm := hfits hsplit
    cases m with
    | reached r t =>
      obtain ⟨answer, hanswer, rfl⟩ := Option.map_eq_some_iff.mp hasked
      obtain ⟨given, hgiven, rfl⟩ := Option.map_eq_some_iff.mp hanswer
      obtain ⟨hname, hplatform, hunknown⟩ := Judged.unknown hm (hgiven ▸ rfl)
      exact .inr ⟨r, t, rfl, rfl, hname, hplatform, hunknown⟩
    | rechecked r name _ answer =>
      obtain rfl := Option.some.inj hasked
      exact .inl ⟨r, name, answer, rfl, hm⟩
    | forgotten => cases hasked
  · rintro before part after rfl hpart place
    exact hunfolds.split.1.split.2.countP_selects_le_one hpart place
  · intro before r t after hsplit
    exact (hfits hsplit).decided

/-- Of two selections, the first one asks the only backend, and the second one, on another host,
goes by its answer. -/
theorem asks_only_what_is_unknown_twice :
    ∃ history : List (Moment Scripted Nat),
      Ran (ofBackends .linux [⟨"native", .nativePty, [.linux], .full⟩])
        [({ scripts := [{ backendName := "native" }] }, .select { command := "sh" }),
          ({ scripts := [{ backendName := "native", available := false }] },
            .select { command := "sh" })] history ∧
      history.countP (Moment.selects 0) = 1 := by
  obtain ⟨history, hran, -, -, honce, hdecided⟩ := asks_only_what_is_unknown (ω := Scripted) .linux
    [⟨"native", .nativePty, [.linux], .full⟩] []
    [({ scripts := [{ backendName := "native" }] }, .select { command := "sh" }),
      ({ scripts := [{ backendName := "native", available := false }] },
        .select { command := "sh" })]
  refine ⟨history, hran, ?_⟩
  cases hran with
  | cons hfirst _ hrest =>
    cases hfirst with
    | @selected _ ts w' result hwalk hchosen =>
      change Chosen [0] ts result at hchosen
      obtain ⟨t, more, rfl, hplace⟩ := hchosen.exists_cons
      cases hwalk with
      | cons htried _ =>
        obtain ⟨e, he, hbackend⟩ := htried.exists_registration
        rw [hplace] at he
        cases he
        obtain ⟨answer, hlatest, -⟩ := hdecided [] _ t _ rfl nofun (by rw [← hbackend]; decide)
        rw [latest?_reached, latest?, List.foldl_nil, Option.or_none] at hlatest
        have hasked : ∀ r, (Moment.reached r t).selects 0 = true := fun r =>
          Moment.selects_iff.mpr ⟨r, t, rfl, hplace, by rw [hlatest]; rfl⟩
        cases hrest with
        | cons hsecond _ hnone =>
          cases hsecond
          cases hnone
          have hle := honce [] _ [] (List.append_nil _).symm (by simp) 0
          exact Nat.le_antisymm hle (List.countP_pos_iff.mpr
            ⟨_, List.mem_append_left _ List.mem_cons_self, hasked _⟩)

end VirtualTerminal.Registry
