import Mathlib.Data.List.Destutter
import VirtualTerminal.Backend.Scripted
import VirtualTerminal.Proofs.Session.Run

/-!
# Session — Interference

Two runs of a session that differ only in the views and the writing asked of it are compared in
lockstep.  What surrounds them may differ by what was written, and by what the clock says; so the
sessions are compared without times, and of the surroundings only the part is compared that decides
what the session learns of its command (`Host.Core`).

* `Alike.react`: taking the same input, alike runs stay alike and tell the same.
* `Alike.aside`: a run that takes a view or a write stays alike with one that takes nothing.

**Views and writes leave no trace, and refusals change nothing** (`run_withoutAsides`).
-/

namespace VirtualTerminal

/-- A part of what surrounds sessions that writing to a command leaves alone, and that decides what
asking for an exit code answers. -/
structure Host.Core (ω : Type) {η : Type} [Host ω η] (σ : Type) where
  /-- The part. -/
  of : ω → σ
  write (handle : η) (data : List UInt8) (w : ω) : of (Host.write handle data w).2 = of w
  resize {w w' : ω} (handle : η) (d : Dimensions) (h : of w = of w') :
    of (Host.resize handle d w).2 = of (Host.resize handle d w').2
  terminate {w w' : ω} (handle : η) (h : of w = of w') :
    of (Host.terminate handle w).2 = of (Host.terminate handle w').2
  now {w w' : ω} (h : of w = of w') :
    of (Host.now (ω := ω) (η := η) w).2 = of (Host.now (ω := ω) (η := η) w').2
  tryWait {w w' : ω} (handle : η) (h : of w = of w') :
    (Host.tryWait handle w).1 = (Host.tryWait handle w').1 ∧
      of (Host.tryWait handle w).2 = of (Host.tryWait handle w').2

namespace Scripted

/-- What is left of the scripts of the commands. -/
def scriptsLeft (h : Scripted) : List Script := h.commands.map ScriptedCommand.script

/-- Noting a request leaves the scripts. -/
theorem scriptsLeft_note (h : Scripted) (handle : Nat) (r : Request) :
    (h.note handle r).scriptsLeft = h.scriptsLeft := by
  refine List.ext_getElem? fun n => ?_
  simp only [scriptsLeft, note, List.getElem?_map, List.getElem?_modify]
  cases h.commands[n]? with
  | none => rfl
  | some c => by_cases hn : handle = n <;> simp [hn]

theorem scriptsLeft_ask (h : Scripted) (handle : Nat) (r : Request)
    (part : Script → Option Error) : (h.ask handle r part).2.scriptsLeft = h.scriptsLeft := by
  rw [ask]
  split
  · exact scriptsLeft_note h handle r
  · exact scriptsLeft_note h handle r

/-- What a script answers when it is asked for an exit code, and what is left of the scripts. -/
def pollLeft (scripts : List Script) (handle : Nat) :
    Except Error (Option Int) × List Script :=
  match scripts[handle]? with
  | none => (.ok none, scripts)
  | some script =>
    ((advance (.ok (some 0)) script.exits).1,
      scripts.set handle { script with exits := (advance (.ok (some 0)) script.exits).2 })

/-- Only the scripts decide about exit codes. -/
theorem poll_eq (h : Scripted) (handle : Nat) :
    ((h.poll handle).1, (h.poll handle).2.scriptsLeft) = pollLeft h.scriptsLeft handle := by
  have hscript : h.scriptsLeft[handle]? =
      ((h.note handle .tryWait).commands[handle]?).map ScriptedCommand.script := by
    rw [← scriptsLeft_note h handle .tryWait, scriptsLeft, List.getElem?_map]
  rw [poll, pollLeft, hscript]
  cases hcommand : (h.note handle .tryWait).commands[handle]? with
  | none => exact congrArg _ (scriptsLeft_note h handle .tryWait)
  | some c =>
    refine congrArg _ ?_
    rw [← scriptsLeft_note h handle .tryWait]
    exact List.map_set

/-- The scripts that are left are such a part. -/
def core : Host.Core Scripted (List Script) where
  of := scriptsLeft
  write handle data h := by
    rw [← scriptsLeft_ask h handle (.write data) Script.writeFault]
    show scriptsLeft (match h.ask handle (.write data) Script.writeFault with
      | (.error e, h) => (Except.error e, h)
      | (.ok (), h) => (Except.ok data.length, h)).2 = _
    split <;> next heq => rw [heq]
  resize handle d h := by
    exact (scriptsLeft_ask ..).trans (h.trans (scriptsLeft_ask ..).symm)
  terminate handle h := by
    exact (scriptsLeft_ask ..).trans (h.trans (scriptsLeft_ask ..).symm)
  now h := h
  tryWait {w w'} handle h := by
    have heq := (w.poll_eq handle).trans (h ▸ (w'.poll_eq handle).symm)
    exact Prod.mk.inj heq

end Scripted

namespace Session

variable {ω η σ : Type} [Host ω η]

/-! ### Sessions without times -/

/-- The session without the times in its queue. -/
def timeless (s : Session η) : Session η := { s with events := s.events.timeless }

/-- Sessions that are the same but for times differ in their queues at most. -/
theorem exists_of_timeless_eq {s t : Session η} (h : t.timeless = s.timeless) :
    ∃ q, t = { s with events := q } ∧ q.timeless = s.events.timeless := by
  cases s
  cases t
  simp only [timeless, Session.mk.injEq] at h
  obtain ⟨rfl, rfl, rfl, rfl, rfl, rfl, rfl, rfl, hevents, rfl, rfl, rfl, rfl⟩ := h
  exact ⟨_, rfl, hevents⟩

/-- Publishing an event publishes it without its time. -/
theorem timeless_publish (s : Session η) (e : Event) :
    (s.publish e).timeless = s.timeless.publish e.timeless := by
  simp only [timeless, publish, EventQueue.timeless_publish]

theorem timeless_absorb (s : Session η) (o : Outcome) :
    (s.absorb o).timeless = s.timeless.absorb o := by
  have htitles : (o.titles.map Event.title).map Event.timeless = o.titles.map Event.title := by
    rw [List.map_map]
    rfl
  simp only [absorb, foldl_retitle]
  split <;> simp only [timeless, EventQueue.timeless_foldl_publish, htitles]

/-- Without times, showing is showing at time 0. -/
theorem timeless_shown (s : Session η) (e : Emulator) (o : Outcome) (now : Float) :
    (s.shown e o now).timeless = s.timeless.shown e o 0 := by
  rw [shown, timeless_publish, timeless_absorb]
  -- the rendering is that of the session without times
  have hrendering := congrArg (fun t : Session η => t.rendering 0)
    (timeless_absorb { s with emulator := e } o)
  exact congrArg (fun r => Session.publish _ (.output r)) hrendering

theorem timeless_flushed (s : Session η) (e : Emulator) (o : Outcome) (now : Float) :
    (s.flushed e o now).timeless = s.timeless.flushed e o 0 := by
  rw [flushed, flushed]
  split
  · rfl
  · exact timeless_shown s e o now

/-! ### Alike runs -/

/-- Two sessions with what surrounds them, the same but for times and for what does not decide
anything. -/
structure Alike (V : Host.Core ω σ) (x y : Session η × ω) : Prop where
  session : x.1.timeless = y.1.timeless
  host : V.of x.2 = V.of y.2

section Alike
variable {V : Host.Core ω σ} {s t : Session η} {w u : ω}

/-- Polling for an exit code depends on nothing that is left out. -/
theorem pollExit_alike (handle : η) (n : Nat) (h : V.of w = V.of u) :
    (pollExit handle n w).1 = (pollExit handle n u).1 ∧
      V.of (pollExit handle n w).2 = V.of (pollExit handle n u).2 := by
  induction n generalizing w u with
  | zero => exact ⟨rfl, h⟩
  | succ n ih =>
    obtain ⟨hanswer, hhost⟩ := V.tryWait handle h
    rcases hw : Host.tryWait handle w with ⟨answer, w'⟩
    rcases hu : Host.tryWait handle u with ⟨answer', u'⟩
    rw [hw, hu] at hanswer hhost
    obtain rfl : answer = answer' := hanswer
    simp only [pollExit, bind, StateT.bind, hw, hu]
    rcases answer with e | _ | code
    · exact ⟨rfl, hhost⟩
    · exact ih hhost
    · exact ⟨rfl, hhost⟩

/-- Alike sessions take a chunk alike. -/
theorem Alike.receive (h : Alike V (s, w) (t, u)) (bytes : List UInt8) :
    Alike V (s.receive bytes w) (t.receive bytes u) := by
  obtain ⟨q, rfl, hq⟩ := exists_of_timeless_eq h.session.symm
  by_cases hphase : s.phase = .reading
  · cases hbinary : ContentGate.isBinary s.gate bytes with
    | true =>
      rw [receive_binary hphase hbinary,
        receive_binary (s := { s with events := q }) hphase hbinary]
      exact ⟨by rw [timeless_publish, timeless_publish, h.session], h.host⟩
    | false =>
      cases hfeed : s.emulator.feed? bytes with
      | none =>
        rw [receive_faulted hphase hbinary hfeed,
          receive_faulted (s := { s with events := q }) hphase hbinary hfeed]
        exact ⟨congrArg (fun r : Session η => { r with phase := .gone }) h.session, h.host⟩
      | some fed =>
        rw [receive_fed hphase hbinary hfeed,
          receive_fed (s := { s with events := q }) hphase hbinary hfeed]
        exact ⟨by rw [timeless_shown, timeless_shown, h.session], V.now h.host⟩
  · rw [receive_unread hphase, receive_unread (s := { s with events := q }) hphase]
    exact h

/-- The time of the rest is asked for alike. -/
theorem flushTime_alike (o : Outcome) (h : V.of w = V.of u) :
    V.of (flushTime (η := η) o w).2 = V.of (flushTime (η := η) o u).2 := by
  rw [flushTime, flushTime]
  split
  · exact h
  · exact V.now h

/-- Alike sessions come to the end of the output alike. -/
theorem Alike.endStream (h : Alike V (s, w) (t, u)) : Alike V (s.endStream w) (t.endStream u) := by
  obtain ⟨q, rfl, hq⟩ := exists_of_timeless_eq h.session.symm
  by_cases hphase : s.phase = .reading
  · cases hfinish : s.emulator.finish? with
    | none =>
      rw [endStream_faulted hphase hfinish,
        endStream_faulted (s := { s with events := q }) hphase hfinish]
      exact ⟨congrArg (fun r : Session η => { r with phase := .gone }) h.session, h.host⟩
    | some fed =>
      obtain ⟨hcode, hhost⟩ :=
        pollExit_alike s.handle exitPolls (flushTime_alike (η := η) fed.2 h.host)
      rw [endStream_eq hphase hfinish,
        endStream_eq (s := { s with events := q }) hphase hfinish]
      refine ⟨?_, hhost⟩
      rw [hcode]
      have hflushed : ((s.flushed fed.1 fed.2 (flushTime (η := η) fed.2 w).1).publish (.exited
            (pollExit s.handle exitPolls (flushTime (η := η) fed.2 u).2).1)).timeless =
          ((flushed { s with events := q } fed.1 fed.2 (flushTime (η := η) fed.2 u).1).publish
            (.exited (pollExit s.handle exitPolls (flushTime (η := η) fed.2 u).2).1)).timeless := by
        rw [timeless_publish, timeless_publish, timeless_flushed, timeless_flushed, h.session]
      exact congrArg (fun r : Session η => { r.conclude .exited with
        exitCode := (pollExit s.handle exitPolls (flushTime (η := η) fed.2 u).2).1
        phase := .answering }) hflushed
  · rw [endStream_unread hphase, endStream_unread (s := { s with events := q }) hphase]
    exact h

/-- Alike sessions take a failure of the stream alike. -/
theorem Alike.failStream (h : Alike V (s, w) (t, u)) (reason : String) :
    Alike V (s.failStream reason w) (t.failStream reason u) := by
  obtain ⟨q, rfl, hq⟩ := exists_of_timeless_eq h.session.symm
  by_cases hphase : s.phase = .reading
  · rw [failStream_eq hphase, failStream_eq (s := { s with events := q }) hphase]
    refine ⟨?_, V.terminate s.handle h.host⟩
    have hpublished : (s.publish (.failed reason)).timeless =
        (publish { s with events := q } (.failed reason)).timeless := by
      rw [timeless_publish, timeless_publish, h.session]
    exact congrArg (fun r : Session η => { r.conclude .failed with phase := .answering }) hpublished
  · rw [failStream_unread hphase, failStream_unread (s := { s with events := q }) hphase]
    exact h

theorem react_resize (s : Session η) (d : Dimensions) (w : ω) :
    s.react (.resize d) w = ((s.resize d w).1.1, (s.resize d w).2) := rfl

/-- Alike sessions are resized alike, or not at all. -/
theorem Alike.resize (h : Alike V (s, w) (t, u)) (d : Dimensions) :
    Alike V (s.react (.resize d) w) (t.react (.resize d) u) := by
  obtain ⟨q, rfl, hq⟩ := exists_of_timeless_eq h.session.symm
  by_cases hrefused : d.isEmpty ∨ s.phase = .gone ∨ s.status.isFinished
  · obtain ⟨e, heq⟩ := resize_refused (ω := ω) hrefused
    obtain ⟨e', heq'⟩ := resize_refused (ω := ω) (s := { s with events := q }) hrefused
    rw [react, react, heq, heq']
    exact h
  · obtain ⟨e, hresize, heq⟩ := resize_accepted (ω := ω) hrefused
    obtain ⟨e', hresize', heq'⟩ := resize_accepted (ω := ω) (s := { s with events := q }) hrefused
    obtain rfl : e = e' := Option.some.inj (hresize.symm.trans hresize')
    have hhost : V.of (s.resizeHost d w) = V.of (resizeHost { s with events := q } d u) := by
      rw [resizeHost, resizeHost]
      split
      · exact V.resize s.handle d h.host
      · exact h.host
    rw [react_resize, react_resize, heq, heq']
    refine ⟨?_, V.now hhost⟩
    rw [timeless_publish, timeless_publish]
    exact congrArg (fun r : Session η =>
      { r with emulator := e }.publish (.output ({ r with emulator := e }.rendering 0))) h.session

/-- Alike sessions are stopped alike. -/
theorem Alike.terminate (h : Alike V (s, w) (t, u)) :
    Alike V (s.terminate w) (t.terminate u) := by
  obtain ⟨q, rfl, hq⟩ := exists_of_timeless_eq h.session.symm
  by_cases hphase : s.phase = .reading
  · rw [terminate_reading hphase, terminate_reading (s := { s with events := q }) hphase]
    refine ⟨?_, V.terminate s.handle h.host⟩
    exact congrArg (fun r : Session η => { r.conclude .terminated with phase := .gone }) h.session
  · rw [terminate_unread hphase, terminate_unread (s := { s with events := q }) hphase]
    exact ⟨congrArg (fun r : Session η => { r with phase := .gone }) h.session, h.host⟩

end Alike

/-- A view or a write. -/
def Input.isAside : Input → Bool
  | .snapshot => true
  | .write _ => true
  | _ => false

section Alike
variable {V : Host.Core ω σ} {s t : Session η} {w u : ω} {i : Input}

/-- **A view or a write leaves a session as it is**, and all that decides anything. -/
theorem react_aside (V : Host.Core ω σ) (hi : i.isAside = true) (s : Session η) (w : ω) :
    (s.react i w).1 = s ∧ V.of (s.react i w).2 = V.of w := by
  cases i with
  | snapshot => exact ⟨rfl, rfl⟩
  | write data =>
    refine ⟨rfl, ?_⟩
    show V.of (s.write data w).2 = V.of w
    rw [write]
    split
    · rfl
    · exact V.write s.handle data w
  | _ => cases hi

/-- A view or a write tells nothing. -/
theorem told_aside (hi : i.isAside = true) (s s' : Session η) : s.told i s' = [] := by
  cases i with
  | snapshot | write => rfl
  | _ => cases hi

/-- A view or a write in one of two alike runs leaves them alike. -/
theorem Alike.aside (h : Alike V (s, w) (t, u)) (hi : i.isAside = true) :
    Alike V ((s.react i w).1, (s.react i w).2) (t, u) := by
  obtain ⟨hsession, hhost⟩ := react_aside V hi s w
  exact ⟨(congrArg timeless hsession).trans h.session, hhost.trans h.host⟩

/-- **Taking the same input, alike runs stay alike.** -/
theorem Alike.react (h : Alike V (s, w) (t, u)) (hi : i.isAside = false) :
    Alike V ((s.react i w).1, (s.react i w).2) ((t.react i u).1, (t.react i u).2) := by
  cases i with
  | chunk bytes => exact h.receive bytes
  | streamEnd => exact h.endStream
  | streamError reason => exact h.failStream reason
  | resize d => exact h.resize d
  | snapshot | write => cases hi
  | shutdown => exact h.terminate
  | abandon => exact h.terminate

/-- What is told does not depend on times. -/
theorem told_timeless (s s' : Session η) (i : Input) :
    s.timeless.told i s'.timeless = s.told i s' := by
  cases i <;> rfl

/-- They tell the same. -/
theorem Alike.told (h : Alike V (s, w) (t, u)) (hi : i.isAside = false) :
    s.told i (s.react i w).1 = t.told i (t.react i u).1 := by
  rw [← told_timeless s, ← told_timeless t, h.session, (h.react hi).session]

/-- Alike sessions are in the same stage. -/
theorem Alike.status (h : Alike V (s, w) (t, u)) : s.status = t.status := by
  show s.timeless.status = t.timeless.status
  rw [h.session]

/-! ### Whole runs -/

/-- The first stage is the one that the session is in. -/
theorem statuses_eq_cons (is : List Input) (s : Session η) (w : ω) :
    ∃ rest, statuses is s w = s.status :: rest := by
  cases is with
  | nil => exact ⟨[], rfl⟩
  | cons i is => exact ⟨_, rfl⟩

/-- A stage in front of stages that are passed in the same order. -/
theorem destutter_cons_congr {first second : SessionStatus} {rest rest' : List SessionStatus}
    (h : (second :: rest).destutter (· ≠ ·) = (second :: rest').destutter (· ≠ ·)) :
    (first :: second :: rest).destutter (· ≠ ·) =
      (first :: second :: rest').destutter (· ≠ ·) := by
  rw [List.destutter_cons_cons, List.destutter_cons_cons]
  split
  · exact congrArg (first :: ·) h
  · next hsame =>
    obtain rfl := not_not.mp hsame
    exact h

/-- The inputs without views and writes. -/
def withoutAsides (is : List Input) : List Input := is.filter fun i => !i.isAside

/-- **Without views and writes a run stays alike**, tells the same and goes through the same
stages. -/
theorem Alike.run (h : Alike V (s, w) (t, u)) (is : List Input) :
    Alike V (run is s w) (run (withoutAsides is) t u) ∧
      log is s w = log (withoutAsides is) t u ∧
      (statuses is s w).destutter (· ≠ ·) =
        (statuses (withoutAsides is) t u).destutter (· ≠ ·) := by
  induction is generalizing s t w u with
  | nil =>
    refine ⟨h, rfl, ?_⟩
    rw [withoutAsides, List.filter_nil, statuses, statuses, h.status]
  | cons i is ih =>
    cases hi : i.isAside with
    | true =>
      obtain ⟨hrun, hlog, hstatuses⟩ := ih (h.aside hi)
      obtain ⟨hsame, -⟩ := react_aside V hi s w
      have hwithout : withoutAsides (i :: is) = withoutAsides is :=
        List.filter_cons_of_neg (by rw [hi]; exact Bool.false_ne_true)
      rw [hwithout, log, told_aside hi, List.nil_append]
      refine ⟨hrun, hlog, ?_⟩
      obtain ⟨rest, hrest⟩ := statuses_eq_cons is (s.react i w).1 (s.react i w).2
      rw [← hstatuses, statuses, hrest, hsame, List.destutter_cons_cons,
        if_neg (not_not_intro rfl), List.destutter_cons']
    | false =>
      have hnext := h.react hi
      obtain ⟨hrun, hlog, hstatuses⟩ := ih hnext
      have hwithout : withoutAsides (i :: is) = i :: withoutAsides is :=
        List.filter_cons_of_pos (by rw [hi]; rfl)
      rw [hwithout, log, log, h.told hi, hlog]
      refine ⟨hrun, rfl, ?_⟩
      obtain ⟨rest, hrest⟩ := statuses_eq_cons is (s.react i w).1 (s.react i w).2
      obtain ⟨rest', hrest'⟩ :=
        statuses_eq_cons (withoutAsides is) (t.react i u).1 (t.react i u).2
      have hstatus : (s.react i w).1.status = (t.react i u).1.status := hnext.status
      rw [hrest, hrest', hstatus] at hstatuses
      rw [statuses, statuses, hrest, hrest', h.status, hstatus]
      exact destutter_cons_congr hstatuses

end Alike

/-- **Views and writes leave no trace, and refusals change nothing.**  Let writing to commands
decide nothing about their exit codes, as with scripted ones.  Take any session, and whatever chunks,
requests and endings reach its task, in any order.  Without the views and writes among them

* the session tells the same, goes through the same stages, and is the same in the end, its screen,
  its text and its title included, but for times in its queue.

In every state of a session

* a change to an empty size, and any change of size and any write after the end, is refused; then
  the session does not change, tells nothing, and nothing is asked of its command. -/
theorem run_withoutAsides (V : Host.Core ω σ) (s : Session η) (w : ω) (is : List Input) :
    (log (withoutAsides is) s w = log is s w ∧
      (statuses (withoutAsides is) s w).destutter (· ≠ ·) =
        (statuses is s w).destutter (· ≠ ·) ∧
      (run (withoutAsides is) s w).1.timeless = (run is s w).1.timeless) ∧
    (∀ d : Dimensions, d.isEmpty = true →
      s.resize d = (pure (s, .error (.resizeOutOfBounds d)) : StateM ω _)) ∧
    (s.status.isFinished = true →
      (∀ d, ∃ e, s.resize d = (pure (s, .error e) : StateM ω _)) ∧
        ∀ data, s.write data = (pure (.error .sessionTerminated) : StateM ω _)) := by
  have hsame : Alike V (s, w) (s, w) := ⟨rfl, rfl⟩
  obtain ⟨hrun, hlog, hstatuses⟩ := hsame.run is
  refine ⟨⟨hlog.symm, hstatuses.symm, hrun.session.symm⟩, fun d hempty => ?_, fun hover => ?_⟩
  · rw [resize, Dimensions.validate, if_pos hempty]
  · exact ⟨fun d => resize_refused (.inr (.inr hover)), fun data => if_pos (.inr hover)⟩

/-- A host whose only command says at the second question that its exit code is three. -/
def greetingHost : Scripted :=
  { commands := [⟨{ backendName := "mock", exits := [.ok none, .ok (some 3)] }, []⟩] }

/-- The session of this command. -/
def greetingSession : Session Nat :=
  begun ⟨0⟩ { command := "greet", dimensions := ⟨1, 4⟩ } ⟨{}, 100, 4⟩
    ⟨⟨"mock", .nativePty, [], .full⟩, 0, []⟩

/-- It greets and ends, and meanwhile it is viewed, written to and resized. -/
def greetingInputs : List Input :=
  [.write [0x0a], .chunk [0x68, 0x69], .snapshot, .resize ⟨0, 4⟩, .resize ⟨1, 8⟩, .streamEnd,
    .snapshot, .resize ⟨1, 4⟩, .write [0x0a]]

/-- The run with views and writes differs in what was asked of the command, but not in what was
told. -/
theorem run_withoutAsides_greeting :
    log (withoutAsides greetingInputs) greetingSession greetingHost =
        log greetingInputs greetingSession greetingHost ∧
      (log greetingInputs greetingSession greetingHost).map Event.kind =
        ["terminal_output", "terminal_output", "exited"] ∧
      (statuses (withoutAsides greetingInputs) greetingSession greetingHost).destutter (· ≠ ·) =
        [.running, .exited] ∧
      (run (withoutAsides greetingInputs) greetingSession greetingHost).2.log 0 =
        some [.resize ⟨1, 8⟩, .tryWait, .tryWait] ∧
      (run greetingInputs greetingSession greetingHost).2.log 0 =
        some [.write [0x0a], .resize ⟨1, 8⟩, .tryWait, .tryWait] := by
  obtain ⟨⟨hlog, hstatuses, -⟩, -⟩ :=
    run_withoutAsides Scripted.core greetingSession greetingHost greetingInputs
  refine ⟨hlog, ?_, ?_, ?_, ?_⟩
  · decide +kernel
  · rw [hstatuses]
    decide +kernel
  · decide +kernel
  · decide +kernel

end Session

end VirtualTerminal
