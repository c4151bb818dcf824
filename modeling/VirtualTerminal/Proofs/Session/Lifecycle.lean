import VirtualTerminal.Proofs.Session.Rendering

/-!
# Session — Lifecycle

A session starts, runs and ends once: its output is over, it could not be read, or the session is
stopped.  The first input that ends a session decides how (`Input.ending?`), whatever else races
with it, and what comes later changes nothing (`Standing.run_idle`).  It answers until it is stopped
(`gone_iff_run`).

The task can also be gone without an end.  That happens only where the emulator has no value for
what the inputs ask of it (`Asked.faulted_iff`).

**A session has one consistent end** (`run_lifecycle`).
-/

namespace VirtualTerminal

/-- The event tells how a session ended. -/
def Event.TellsEnding : Event → Prop
  | .exited _ | .failed _ => True
  | _ => False

namespace Session

variable {ω η : Type} [Host ω η] {is : List Input} {i : Input} {s s' : Session η}
  {es es' : List Event} {ss : List SessionStatus}

/-- What a session tells of its end; that it was stopped is not told. -/
def Ending.told (s : Session η) : Ending → List Event
  | .exited => [.exited s.exitCode]
  | .failed reason => [.failed reason]
  | .terminated => []

/-- The course of a session: the inputs it took, all it told, its stages since it began, and what it
is now. -/
inductive Course (is : List Input) (es : List Event) (ss : List SessionStatus) (s : Session η) :
    Prop where
  /-- It goes on, since no input ends a session. -/
  | going (n : Nat) (hss : ss = List.replicate (n + 1) .running) (hphase : s.phase = .reading)
      (hstatus : s.status = .running) (hclosed : s.events.closed = false)
      (hfirst : is.findSome? Input.ending? = none) (htold : ∀ e ∈ es, ¬ e.TellsEnding)
  /-- Its task is gone without an end. -/
  | faulted (n : Nat) (hss : ss = List.replicate (n + 1) .running) (hfault : s.Faulted)
      (hclosed : s.events.closed = false) (htold : ∀ e ∈ es, ¬ e.TellsEnding)
  /-- It ended as the first input says that ends a session. -/
  | ended (ending : Ending) (n m : Nat)
      (hss : ss = List.replicate (n + 1) .running ++ List.replicate (m + 1) ending.status)
      (hstatus : s.status = ending.status) (hclosed : s.events.closed = true)
      (hfirst : is.findSome? Input.ending? = some ending)
      (body : List Event) (htold : es = body ++ ending.told s)
      (hbody : ∀ e ∈ body, ¬ e.TellsEnding)

/-! ### The course so far -/

theorem not_tellsEnding_tidings (s : Session η) (o : Outcome) :
    ∀ e ∈ s.tidings o, ¬ e.TellsEnding := by
  intro e he
  rcases List.mem_append.mp he with he | he
  · obtain ⟨title, -, rfl⟩ := List.mem_map.mp he
    exact not_false
  · obtain rfl := List.mem_singleton.mp he
    exact not_false

theorem Ending.told_congr (ending : Ending) (h : s'.exitCode = s.exitCode) :
    ending.told s' = ending.told s := by
  cases ending with
  | exited => rw [told, told, h]
  | failed reason => rfl
  | terminated => rfl

/-- A turn that leaves the stage as it is. -/
theorem Course.goOn (hc : Course is es ss s) (hs' : Standing (is ++ [i]) s')
    (hgone : s.Faulted → s'.Faulted) (hstatus' : s'.status = s.status)
    (hcode : s'.exitCode = s.exitCode) (htold' : ∀ e ∈ es', ¬ e.TellsEnding)
    (hquiet : s.status.isFinished = true → es' = []) :
    Course (is ++ [i]) (es ++ es') (ss ++ [s'.status]) s' := by
  have hclosed' := hs'.closed_eq
  rw [hstatus'] at hclosed'
  cases hc with
  | going n hss hphase hstatus hclosed hfirst htold =>
    rw [hstatus] at hstatus' hclosed'
    have hss' : ss ++ [s'.status] = List.replicate (n + 1 + 1) .running := by
      rw [hss, hstatus', ← List.replicate_succ']
    have hnone := List.forall_mem_append.mpr ⟨htold, htold'⟩
    cases hs' with
    | reading hphase' _ _ hfirst' =>
      exact .going (n + 1) hss' hphase' hstatus' hclosed' hfirst' hnone
    | faulted hfault => exact .faulted (n + 1) hss' hfault hclosed' hnone
    | ended ending _ hover =>
      rw [hstatus'] at hover
      cases ending <;> cases hover
  | faulted n hss hfault hclosed htold =>
    have hfault' := hgone hfault
    rw [hfault.2] at hclosed'
    refine .faulted (n + 1) ?_ hfault' hclosed' (List.forall_mem_append.mpr ⟨htold, htold'⟩)
    rw [hss, hfault'.2, ← List.replicate_succ']
  | ended ending n m hss hstatus hclosed hfirst body htold hbody =>
    rw [hstatus] at hstatus' hclosed' hquiet
    refine .ended ending n (m + 1) ?_ hstatus' ?_ ?_ body ?_ hbody
    · rw [hss, hstatus', List.append_assoc, ← List.replicate_succ']
    · rw [hclosed', ending.isFinished_status]
    · rw [List.findSome?_append, hfirst, Option.some_or]
    · rw [hquiet ending.isFinished_status, List.append_nil, htold, ending.told_congr hcode]

/-- A turn that ends the session. -/
theorem Course.finish (hc : Course is es ss s) (hs : Standing is s) (hs' : Standing (is ++ [i]) s')
    (hphase : s.phase = .reading) (ending : Ending) (hi : i.ending? = some ending)
    (hstatus' : s'.status = ending.status) (before : List Event)
    (hbefore : ∀ e ∈ before, ¬ e.TellsEnding) :
    Course (is ++ [i]) (es ++ (before ++ ending.told s')) (ss ++ [s'.status]) s' := by
  have hrunning := hs.status_of_reading hphase
  have hclosed' : s'.events.closed = true := by
    rw [hs'.closed_eq, hstatus', ending.isFinished_status]
  cases hc with
  | going n hss _ hstatus hclosed hfirst htold =>
    refine .ended ending n 0 ?_ hstatus' hclosed' ?_ (es ++ before)
      (List.append_assoc ..).symm (List.forall_mem_append.mpr ⟨htold, hbefore⟩)
    · rw [hss, hstatus', List.replicate_one]
    · rw [List.findSome?_append, hfirst, Option.none_or, List.findSome?_singleton, hi]
  | faulted n hss hfault => exact absurd hfault (not_faulted hphase)
  | ended ending' n m hss hstatus =>
    rw [hrunning] at hstatus
    cases ending' <;> cases hstatus

/-- **A turn continues the course of a session.** -/
theorem Turn.course (h : Turn s i s' es') (hs : Standing is s) (hc : Course is es ss s) :
    Course (is ++ [i]) (es ++ es') (ss ++ [s'.status]) s' := by
  have hs' := h.standing hs
  have hquiet : s.phase = .reading → s.status.isFinished = true → es' = [] := by
    intro hphase hover
    rw [hs.status_of_reading hphase] at hover
    cases hover
  have hgone : s.Faulted → s'.Faulted := fun hfault => (h.faulted_of_faulted hfault).2
  cases h with
  | unread | unmoved | faulted | released => exact hc.goOn hs' hgone rfl rfl nofun fun _ => rfl
  | skipped hphase hbinary =>
    exact hc.goOn hs' hgone rfl rfl (List.forall_mem_singleton.mpr not_false) (hquiet hphase)
  | fed hphase hbinary hfeed now =>
    exact hc.goOn hs' hgone (status_shown ..) (exitCode_shown ..) (not_tellsEnding_tidings _ _)
      (hquiet hphase)
  | resized hphase hopen hresize now =>
    refine hc.goOn hs' hgone rfl rfl (List.forall_mem_singleton.mpr not_false) fun hover => ?_
    rw [hopen] at hover
    cases hover
  | exited hphase hfinish now code =>
    refine hc.finish hs hs' hphase .exited rfl rfl _ ?_
    split
    · exact nofun
    · exact not_tellsEnding_tidings _ _
  | @failed reason hphase => exact hc.finish hs hs' hphase (.failed reason) rfl rfl [] nofun
  | stopped hi hphase =>
    have hending : i.ending? = some .terminated := by rcases hi with rfl | rfl <;> rfl
    exact hc.finish hs hs' hphase .terminated hending rfl [] nofun

/-! ### Until when it answers -/

/-- A turn after which a session answers no more: it did not before, the input stops sessions, or
the emulator had no value. -/
theorem Turn.gone_iff (h : Turn s i s' es') (hs : Standing is s) :
    s'.phase = .gone ↔ s.phase = .gone ∨ i.ending? = some .terminated ∨ s'.Faulted := by
  have hkept : i.ending? ≠ some .terminated → s'.phase = s.phase →
      (s'.phase = .gone ↔ s.phase = .gone ∨ i.ending? = some .terminated ∨ s'.Faulted) := by
    intro hgoes hphase
    rw [← hphase]
    refine ⟨.inl, ?_⟩
    rintro (hgone | hstops | hfault)
    · exact hgone
    · exact absurd hstops hgoes
    · exact hfault.1
  cases h with
  | unread _ hi =>
    refine hkept ?_ rfl
    rcases hi with ⟨bytes, rfl⟩ | rfl | ⟨reason, rfl⟩ <;> exact nofun
  | unmoved hi =>
    refine hkept ?_ rfl
    rcases hi with ⟨d, rfl, -⟩ | rfl | ⟨data, rfl⟩ <;> exact nofun
  | skipped | resized => exact hkept nofun rfl
  | fed => exact hkept nofun (phase_shown ..)
  | faulted hphase => exact iff_of_true rfl (.inr (.inr ⟨rfl, hs.status_of_reading hphase⟩))
  | exited hphase | failed hphase =>
    rw [hphase]
    refine iff_of_false nofun ?_
    rintro (hgone | hstops | hfault)
    · cases hgone
    · cases hstops
    · cases hfault.1
  | stopped hi | released hi =>
    refine iff_of_true rfl (.inr (.inl ?_))
    rcases hi with rfl | rfl <;> rfl

/-- **A session answers until it is stopped**, unless the emulator had no value. -/
theorem gone_iff_run (id : SessionId) (request : ExecRequest) (settings : SessionSettings)
    (running : Running η) (is : List Input) (w : ω) :
    (run is (begun id request settings running) w).1.phase = .gone ↔
      (run is (begun id request settings running) w).1.Faulted ∨
        ∃ i ∈ is, i.ending? = some .terminated := by
  refine run_induction
    (motive := fun is _ _ s =>
      s.phase = .gone ↔ s.Faulted ∨ ∃ i ∈ is, i.ending? = some .terminated)
    id request settings running ?_ ?_ is w
  · exact iff_of_false nofun fun hgone => hgone.elim (fun h => nomatch h.1) nofun
  · intro is es ss s i s' es' hgone hs hturn
    have hkept : s.Faulted → s'.Faulted := fun hfault => (hturn.faulted_of_faulted hfault).2
    rw [hturn.gone_iff hs, hgone]
    simp only [List.mem_append, List.mem_singleton, or_and_right, exists_or, exists_eq_left]
    constructor
    · rintro ((hfault | hstop) | hi | hfault)
      · exact .inl (hkept hfault)
      · exact .inr (.inl hstop)
      · exact .inr (.inr hi)
      · exact .inl hfault
    · rintro (hfault | hstop | hi)
      · exact .inr (.inr hfault)
      · exact .inl (.inr hstop)
      · exact .inr (.inl hi)

/-- A session gives a view of itself unless its task is gone. -/
theorem exists_snapshot_iff (s : Session η) : (∃ v, s.snapshot = .ok v) ↔ s.phase ≠ .gone := by
  rw [snapshot]
  split
  · next hgone => exact iff_of_false nofun (not_not_intro hgone)
  · next hne => exact iff_of_true ⟨_, rfl⟩ hne

/-! ### After the end -/

theorem Standing.run_idle (hs : Standing is s) (hover : s.status.isFinished = true)
    (more : List Input) (w : ω) :
    log more s w = [] ∧ ∃ phase, (run more s w).1 = { s with phase := phase } := by
  induction more generalizing is s w with
  | nil => exact ⟨rfl, s.phase, rfl⟩
  | cons i more ih =>
    have hturn := turn_react s i w
    obtain ⟨htold, phase, hsame⟩ := hturn.idle_of_finished hs hover
    have hnext := hturn.standing hs
    obtain ⟨hlog, phase', hrun⟩ := ih (s := (s.react i w).1) hnext (by rw [hsame]; exact hover)
      (s.react i w).2
    refine ⟨?_, phase', ?_⟩
    · rw [log, htold, hlog]
      rfl
    · rw [run, hrun, hsame]

/-- **A session has one consistent end.**  Start a session of any command, and let whatever chunks,
requests and endings reach its task, in any order.  Then

* it starts, runs, and, from the first input on that ends a session, is in the last stage that this
  input says, unless its task is gone;
* its task is gone without an end exactly if the emulator had no value for what the inputs ask of it
  up to the first that ends a session;
* the event that tells of the end is the last of all, is told only then, and says the exit code that
  a view of the session reports or the reason why the output could not be read;
* its queue holds the newest of the events told and is closed exactly in a last stage;
* it gives views of itself until it is stopped, the last stage included;
* and whatever comes later, the session tells nothing more and does not change, but that it stops
  answering. -/
theorem run_lifecycle (id : SessionId) (request : ExecRequest) (settings : SessionSettings)
    (running : Running η) (is : List Input) (w : ω) :
    let s₀ := begun id request settings running
    let s := (run is s₀ w).1
    (started id request settings running).status = .starting ∧
      Course is (log is s₀ w) (statuses is s₀ w) s ∧
      (s.Faulted ↔
        (Emulator.ofDimensions request.dimensions).callAll? (calls settings.gate is) = none) ∧
      s.events.closed = s.status.isFinished ∧ s.events.timeless.Records (log is s₀ w) ∧
      ((∃ v, s.snapshot = .ok v) ↔ ¬ s.Faulted ∧ ∀ i ∈ is, i.ending? ≠ some .terminated) ∧
      (∀ v, s.snapshot = .ok v → v.status = s.status ∧ v.exitCode = s.exitCode) ∧
      ∀ more, s.status.isFinished = true → log (is ++ more) s₀ w = log is s₀ w ∧
        ∃ phase, (run (is ++ more) s₀ w).1 = { s with phase := phase } := by
  intro s₀ s
  obtain ⟨hs, hrecords⟩ := standing_run id request settings running is w
  have hasked := asked_run id request settings running is w
  refine ⟨rfl, ?_, hasked.faulted_iff, hs.closed_eq, hrecords, ?_, ?_, fun more hover => ?_⟩
  · refine run_induction (motive := fun is es ss s => Course is es ss s)
      id request settings running ?_ ?_ is w
    · exact .going 0 rfl rfl rfl rfl rfl nofun
    · intro is es ss s i s' es' hc hs hturn
      exact hturn.course hs hc
  · rw [exists_snapshot_iff, ne_eq, gone_iff_run id request settings running is w, not_or]
    exact and_congr_right fun _ => by simp only [not_exists, not_and, ne_eq]
  · intro v hv
    rw [snapshot] at hv
    split at hv
    · cases hv
    · obtain rfl := Except.ok.inj hv
      exact ⟨rfl, rfl⟩
  · obtain ⟨hlog, hrun⟩ := hs.run_idle hover more (run is s₀ w).2
    rw [log_append, hlog, List.append_nil, run_append]
    exact ⟨rfl, hrun⟩

/-- What reaches a session that is stopped before its output is over. -/
def stoppedInputs : List Input := [.chunk [0xc3], .shutdown, .streamEnd, .snapshot]

/-- Being stopped comes first: the end of the output that races with it is not told, and the session
gives no more views. -/
theorem run_lifecycle_stopped :
    ¬ (run stoppedInputs cutSession cutHost).1.Faulted ∧
      (run stoppedInputs cutSession cutHost).1.status = .terminated ∧
      (run stoppedInputs cutSession cutHost).1.events.closed = true ∧
      (∀ e ∈ log stoppedInputs cutSession cutHost, ¬ e.TellsEnding) ∧
      ¬ ∃ v, (run stoppedInputs cutSession cutHost).1.snapshot = .ok v := by
  obtain ⟨-, hcourse, hfaulted, -, -, hanswers, -, -⟩ := run_lifecycle ⟨0⟩
    { command := "cut", dimensions := ⟨1, 4⟩ } ⟨{}, 100, 4⟩ ⟨⟨"mock", .nativePty, [], .full⟩, 0, []⟩
    stoppedInputs cutHost
  have hvalue : ((Emulator.ofDimensions ⟨1, 4⟩).callAll? (calls {} stoppedInputs)).isSome = true := by
    decide +kernel
  have hfault : ¬ (run stoppedInputs cutSession cutHost).1.Faulted := fun h => by
    rw [hfaulted.mp h] at hvalue
    cases hvalue
  have hview : ¬ ∃ v, (run stoppedInputs cutSession cutHost).1.snapshot = .ok v := fun h =>
    (hanswers.mp h).2 .shutdown (by decide) rfl
  cases hcourse with
  | going _ _ _ _ _ hfirst => cases hfirst
  | faulted _ _ h => exact absurd h hfault
  | ended ending _ _ _ hstatus hclosed hfirst body htold hbody =>
    obtain rfl : Ending.terminated = ending := Option.some.inj hfirst
    rw [Ending.told, List.append_nil] at htold
    exact ⟨hfault, hstatus, hclosed, fun e he => hbody e (htold ▸ he), hview⟩

end Session

end VirtualTerminal
