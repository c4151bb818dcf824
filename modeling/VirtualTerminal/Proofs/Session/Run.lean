import VirtualTerminal.Session

/-!
# Session — Run

A session's task takes what reaches it one input at a time: chunks of output, the end or the failure
of the stream, requests, and that nobody is left who could ask (`Session.react`).  Which input comes
next is up to others, so the runs of a session are the sequences of inputs, any sequence (`run`).

* `turn_react`: what a session does with an input, one case for each thing that it can do
  (`Turn`).  What is kept by every turn is kept by a run (`run_induction`).
* `told`: the events that a turn publishes, without their times.  `standing_run`: the queue of a
  session holds the newest of all events told, and knows how many they were.
-/

namespace VirtualTerminal

/-! ### Events without times -/

/-- The event without its time. -/
def Event.timeless : Event → Event
  | .output r => .output { r with timestamp := 0 }
  | e => e

namespace EventQueue

variable {α : Type}

/-- The queue was given these events, and holds the newest of them. -/
structure Records (q : EventQueue α) (es : List α) : Prop where
  published : q.published = es.length
  kept : q.kept.toList = es.drop (es.length - q.slots)

@[simp] theorem closed_publish (q : EventQueue α) (e : α) : (q.publish e).closed = q.closed := by
  rw [publish]
  split <;> rfl

@[simp] theorem closed_foldl_publish (es : List α) (q : EventQueue α) :
    (es.foldl publish q).closed = q.closed := by
  induction es generalizing q with
  | nil => rfl
  | cons e es ih => rw [List.foldl_cons, ih, closed_publish]

/-- An open queue records what is published, and drops the oldest event if it has no slot left. -/
theorem Records.publish {q : EventQueue α} {es : List α} (h : q.Records es)
    (hopen : q.closed = false) (e : α) : (q.publish e).Records (es ++ [e]) := by
  have hsize : q.kept.size = es.length - (es.length - q.slots) := by
    rw [← Array.length_toList, h.kept, List.length_drop]
  rw [EventQueue.publish, hopen, if_neg Bool.false_ne_true]
  refine ⟨?_, ?_⟩
  · rw [List.length_append, ← h.published]
    rfl
  · simp only [Array.size_push, List.length_append, List.length_singleton]
    split
    · -- the oldest event kept makes room
      have hlength : es.length + 1 - q.slots = es.length - q.slots + 1 := by omega
      have hrest : (q.kept.push e).toList = (es ++ [e]).drop (es.length - q.slots) := by
        rw [Array.toList_push, h.kept, List.drop_append_of_le_length (Nat.sub_le _ _)]
      rw [Array.toList_extract, List.extract_eq_take_drop, hrest, List.drop_drop, hlength]
      refine List.take_of_length_le ?_
      rw [List.length_drop, List.length_append, List.length_singleton]
      omega
    · have hall : es.length + 1 - q.slots = 0 ∧ es.length - q.slots = 0 := by omega
      rw [Array.toList_push, h.kept, hall.1, hall.2]
      rfl

/-- So it does for events one after another. -/
theorem Records.foldl_publish {q : EventQueue α} {all : List α} (h : q.Records all)
    (hopen : q.closed = false) (es : List α) :
    (es.foldl EventQueue.publish q).Records (all ++ es) := by
  induction es generalizing q all with
  | nil => rwa [List.append_nil]
  | cons e es ih =>
    have hrest := ih (h.publish hopen e) ((q.closed_publish e).trans hopen)
    rwa [List.append_assoc] at hrest

/-- Closing a queue that is closed, or opening one that is open. -/
theorem with_closed_eq {q : EventQueue α} {closed : Bool} (h : q.closed = closed) :
    { q with closed := closed } = q := by
  subst h
  rfl

/-- The queue without the times of its events. -/
def timeless (q : EventQueue Event) : EventQueue Event :=
  { q with kept := q.kept.map Event.timeless }

/-- Without the times of its events a queue keeps as many. -/
theorem timeless_publish (q : EventQueue Event) (e : Event) :
    (q.publish e).timeless = q.timeless.publish e.timeless := by
  simp only [publish, timeless, Array.size_push, Array.size_map]
  split
  · rfl
  · split
    · simp
    · simp

theorem timeless_foldl_publish (es : List Event) (q : EventQueue Event) :
    (es.foldl publish q).timeless = (es.map Event.timeless).foldl publish q.timeless := by
  induction es generalizing q with
  | nil => rfl
  | cons e es ih => rw [List.foldl_cons, ih, timeless_publish]; rfl

end EventQueue

namespace Session

variable {ω η : Type} [Host ω η]

/-! ### Inputs -/

/-- What can reach the task of a session. -/
inductive Input where
  /-- A chunk of output. -/
  | chunk (bytes : List UInt8)
  /-- The output is over. -/
  | streamEnd
  /-- The output could not be read, for this reason. -/
  | streamError (reason : String)
  | resize (d : Dimensions)
  | snapshot
  | write (data : List UInt8)
  | shutdown
  /-- Nobody is left who could ask for anything. -/
  | abandon
deriving DecidableEq, Repr

/-- The session after it took an input. -/
def react (s : Session η) : Input → StateM ω (Session η)
  | .chunk bytes => s.receive bytes
  | .streamEnd => s.endStream
  | .streamError reason => s.failStream reason
  | .resize d => do return (← s.resize d).1
  | .snapshot => return s
  | .write data => do
    let _ ← s.write (ω := ω) data
    return s
  | .shutdown => s.terminate
  | .abandon => s.terminate

/-- The session after a sequence of inputs, and what surrounds it then. -/
def run : List Input → Session η → ω → Session η × ω
  | [], s, w => (s, w)
  | i :: is, s, w => run is (s.react i w).1 (s.react i w).2

/-- The stages of the session, before the first input and after each. -/
def statuses : List Input → Session η → ω → List SessionStatus
  | [], s, _ => [s.status]
  | i :: is, s, w => s.status :: statuses is (s.react i w).1 (s.react i w).2

/-! ### What is told -/

/-- What is told of an outcome that leads to this session: the titles, and then the screen. -/
def tidings (s : Session η) (o : Outcome) : List Event :=
  o.titles.map .title ++ [.output (s.rendering 0)]

/-- What a session tells when it takes an input and becomes `s'`; times are left out. -/
def told (s : Session η) (i : Input) (s' : Session η) : List Event :=
  match i with
  | .chunk bytes =>
    if s.phase ≠ .reading then []
    else if ContentGate.isBinary s.gate bytes then [.binaryChunk bytes.length]
    else
      match s.emulator.feed? bytes with
      | none => []
      | some (_, o) => s'.tidings o
  | .streamEnd =>
    if s.phase ≠ .reading then []
    else
      match s.emulator.finish? with
      | none => []
      | some (_, o) => (if o.isEmpty then [] else s'.tidings o) ++ [.exited s'.exitCode]
  | .streamError reason => if s.phase ≠ .reading then [] else [.failed reason]
  | .resize d =>
    if d.isEmpty ∨ s.phase = .gone ∨ s.status.isFinished then [] else [.output (s'.rendering 0)]
  | .snapshot => []
  | .write _ => []
  | .shutdown => []
  | .abandon => []

/-- All that a session tells in the course of a sequence of inputs. -/
def log : List Input → Session η → ω → List Event
  | [], _, _ => []
  | i :: is, s, w => s.told i (s.react i w).1 ++ log is (s.react i w).1 (s.react i w).2

/-! ### Turns -/

/-- A session that shows what its emulator made of some bytes. -/
def shown (s : Session η) (e : Emulator) (o : Outcome) (now : Float) : Session η :=
  let s := { s with emulator := e }.absorb o
  s.publish (.output (s.rendering now))

/-- A session at the end of the output: what the decoder held back is shown if it comes to
anything. -/
def flushed (s : Session η) (e : Emulator) (o : Outcome) (now : Float) : Session η :=
  if o.isEmpty then { s with emulator := e } else s.shown e o now

/-- What a session can do with an input, what becomes of it, and what it tells. -/
inductive Turn (s : Session η) : Input → Session η → List Event → Prop where
  /-- The stream is not read any more. -/
  | unread {i : Input} (hphase : s.phase ≠ .reading)
      (hi : (∃ bytes, i = .chunk bytes) ∨ i = .streamEnd ∨ ∃ reason, i = .streamError reason) :
      Turn s i s []
  /-- A request that is refused, or changes nothing. -/
  | unmoved {i : Input}
      (hi : (∃ d, i = .resize d ∧ (d.isEmpty ∨ s.phase = .gone ∨ s.status.isFinished)) ∨
        i = .snapshot ∨ ∃ data, i = .write data) :
      Turn s i s []
  /-- Binary data is not shown. -/
  | skipped {bytes : List UInt8} (hphase : s.phase = .reading)
      (hbinary : ContentGate.isBinary s.gate bytes = true) :
      Turn s (.chunk bytes) (s.publish (.binaryChunk bytes.length)) [.binaryChunk bytes.length]
  /-- Other output is shown. -/
  | fed {bytes : List UInt8} {e : Emulator} {o : Outcome} (hphase : s.phase = .reading)
      (hbinary : ContentGate.isBinary s.gate bytes = false)
      (hfeed : s.emulator.feed? bytes = some (e, o)) (now : Float) :
      Turn s (.chunk bytes) (s.shown e o now) ((s.shown e o now).tidings o)
  /-- The emulator has no value for a chunk or for the end of the output. -/
  | faulted {i : Input} (hphase : s.phase = .reading)
      (hi : (∃ bytes, i = .chunk bytes ∧ ContentGate.isBinary s.gate bytes = false ∧
          s.emulator.feed? bytes = none) ∨
        i = .streamEnd ∧ s.emulator.finish? = none) :
      Turn s i { s with phase := .gone } []
  | resized {d : Dimensions} {e : Emulator} (hphase : s.phase ≠ .gone)
      (hstatus : s.status.isFinished = false) (hresize : s.emulator.resize? d = some e)
      (now : Float) :
      Turn s (.resize d)
        ({ s with emulator := e }.publish (.output ({ s with emulator := e }.rendering now)))
        [.output ({ s with emulator := e }.rendering 0)]
  | exited {e : Emulator} {o : Outcome} (hphase : s.phase = .reading)
      (hfinish : s.emulator.finish? = some (e, o)) (now : Float) (code : Option Int) :
      Turn s .streamEnd
        { ((s.flushed e o now).publish (.exited code)).conclude .exited with
          exitCode := code, phase := .answering }
        ((if o.isEmpty then [] else (s.shown e o now).tidings o) ++ [.exited code])
  | failed {reason : String} (hphase : s.phase = .reading) :
      Turn s (.streamError reason)
        { (s.publish (.failed reason)).conclude .failed with phase := .answering } [.failed reason]
  /-- A session that still reads is stopped. -/
  | stopped {i : Input} (hi : i = .shutdown ∨ i = .abandon) (hphase : s.phase = .reading) :
      Turn s i { s.conclude .terminated with phase := .gone } []
  /-- One that has ended answers no more. -/
  | released {i : Input} (hi : i = .shutdown ∨ i = .abandon) (hphase : s.phase ≠ .reading) :
      Turn s i { s with phase := .gone } []

section Shown
variable {s : Session η}

/-- Titles are told one by one, and change nothing but the queue. -/
theorem foldl_retitle (s : Session η) (titles : List String) :
    titles.foldl retitle s =
      { s with
        events := (titles.map Event.title).foldl EventQueue.publish s.events
        title := titles.foldl (fun _ title => some title) s.title } := by
  induction titles generalizing s with
  | nil => rfl
  | cons title titles ih => rw [List.foldl_cons, ih]; rfl

/-- All that showing changes. -/
theorem shown_eq (s : Session η) (e : Emulator) (o : Outcome) (now : Float) :
    s.shown e o now =
      { s with
        emulator := e
        output := if o.transcript.isEmpty then s.output else (s.output.append o.transcript).1
        title := o.titles.foldl (fun _ title => some title) s.title
        events :=
          (o.titles.map Event.title ++ [Event.output ((s.shown e o now).rendering now)]).foldl
            EventQueue.publish s.events } := by
  simp only [shown, absorb, foldl_retitle, List.foldl_append]
  split <;> rfl

/-! ### Function by function -/

section Chunk
variable {bytes : List UInt8}

theorem receive_unread (hphase : s.phase ≠ .reading) (w : ω) : s.receive bytes w = (s, w) := by
  rw [receive, if_pos hphase]
  rfl

/-- Of a binary chunk only its length is told. -/
theorem receive_binary (hphase : s.phase = .reading)
    (hbinary : ContentGate.isBinary s.gate bytes = true) (w : ω) :
    s.receive bytes w = (s.publish (.binaryChunk bytes.length), w) := by
  rw [receive, if_neg (not_not_intro hphase), if_pos hbinary]
  rfl

/-- A chunk that the emulator has no value for ends the task in the middle. -/
theorem receive_faulted (hphase : s.phase = .reading)
    (hbinary : ContentGate.isBinary s.gate bytes = false)
    (hfeed : s.emulator.feed? bytes = none) (w : ω) :
    s.receive bytes w = ({ s with phase := .gone }, w) := by
  rw [receive, if_neg (not_not_intro hphase), hbinary, if_neg Bool.false_ne_true, hfeed]
  rfl

/-- Any other chunk is fed to the emulator, and what comes of it is shown. -/
theorem receive_fed {e : Emulator} {o : Outcome} (hphase : s.phase = .reading)
    (hbinary : ContentGate.isBinary s.gate bytes = false)
    (hfeed : s.emulator.feed? bytes = some (e, o)) (w : ω) :
    s.receive bytes w = (s.shown e o (Host.now w).1, (Host.now w).2) := by
  rw [receive, if_neg (not_not_intro hphase), hbinary, if_neg Bool.false_ne_true, hfeed]
  rfl

/-- What a session does with a chunk is a turn. -/
theorem turn_receive (s : Session η) (bytes : List UInt8) (w : ω) :
    Turn s (.chunk bytes) (s.receive bytes w).1 (s.told (.chunk bytes) (s.receive bytes w).1) := by
  by_cases hphase : s.phase = .reading
  · rw [told, if_neg (not_not_intro hphase)]
    cases hbinary : ContentGate.isBinary s.gate bytes with
    | true =>
      rw [receive_binary hphase hbinary]
      exact .skipped hphase hbinary
    | false =>
      rw [if_neg Bool.false_ne_true]
      cases hfeed : s.emulator.feed? bytes with
      | none =>
        rw [receive_faulted hphase hbinary hfeed]
        exact .faulted hphase (.inl ⟨bytes, rfl, hbinary, hfeed⟩)
      | some fed =>
        rw [receive_fed hphase hbinary hfeed]
        exact .fed hphase hbinary hfeed _
  · rw [receive_unread hphase, told, if_pos hphase]
    exact .unread hphase (.inl ⟨bytes, rfl⟩)

end Chunk

theorem endStream_unread (hphase : s.phase ≠ .reading) (w : ω) : s.endStream w = (s, w) := by
  rw [endStream, if_pos hphase]
  rfl

/-- Where the emulator has no value at the end of the output, the task ends in the middle. -/
theorem endStream_faulted (hphase : s.phase = .reading) (hfinish : s.emulator.finish? = none)
    (w : ω) : s.endStream w = ({ s with phase := .gone }, w) := by
  rw [endStream, if_neg (not_not_intro hphase), hfinish]
  rfl

/-- When a flush is shown, if it is, and what surrounds the session then. -/
def flushTime (o : Outcome) (w : ω) : Float × ω := if o.isEmpty then (0, w) else Host.now w

/-- At the end of the output the rest is shown, the exit is told, and no more is read. -/
theorem endStream_eq {e : Emulator} {o : Outcome} (hphase : s.phase = .reading)
    (hfinish : s.emulator.finish? = some (e, o)) (w : ω) :
    s.endStream w =
      ({ ((s.flushed e o (flushTime o w).1).publish (.exited
            (pollExit s.handle exitPolls (flushTime o w).2).1)).conclude .exited with
          exitCode := (pollExit s.handle exitPolls (flushTime o w).2).1, phase := .answering },
        (pollExit s.handle exitPolls (flushTime o w).2).2) := by
  have hpoll : pollExit (s.shown e o (Host.now w).1).handle exitPolls (Host.now w).2 =
      pollExit s.handle exitPolls (Host.now w).2 := by rw [shown_eq]
  rw [endStream, if_neg (not_not_intro hphase), hfinish]
  cases hempty : o.isEmpty with
  | true =>
    simp only [flushed, flushTime, hempty, if_true]
    rfl
  | false =>
    simp only [flushed, flushTime, hempty, Bool.false_eq_true, if_false]
    rw [← hpoll]
    rfl

/-- A session that has exited tells what it did before. -/
theorem tidings_exited (s : Session η) (o : Outcome) (code : Option Int) :
    tidings { (s.publish (.exited code)).conclude .exited with
      exitCode := code, phase := .answering } o = s.tidings o := rfl

/-- What a session does at the end of the output is a turn. -/
theorem turn_endStream (s : Session η) (w : ω) :
    Turn s .streamEnd (s.endStream w).1 (s.told .streamEnd (s.endStream w).1) := by
  by_cases hphase : s.phase = .reading
  · rw [told, if_neg (not_not_intro hphase)]
    cases hfinish : s.emulator.finish? with
    | none =>
      rw [endStream_faulted hphase hfinish]
      exact .faulted hphase (.inr ⟨rfl, hfinish⟩)
    | some fed =>
      have htidings : ∀ now, (if fed.2.isEmpty then []
            else (s.flushed fed.1 fed.2 now).tidings fed.2) =
          if fed.2.isEmpty then [] else (s.shown fed.1 fed.2 now).tidings fed.2 := by
        intro now
        cases hempty : fed.2.isEmpty with
        | true => rfl
        | false => simp only [flushed, hempty, Bool.false_eq_true, if_false]
      rw [endStream_eq hphase hfinish w]
      simp only [tidings_exited, htidings]
      exact .exited hphase hfinish _ _
  · rw [endStream_unread hphase, told, if_pos hphase]
    exact .unread hphase (.inr (.inl rfl))

theorem failStream_unread (hphase : s.phase ≠ .reading) (reason : String) (w : ω) :
    s.failStream reason w = (s, w) := by
  rw [failStream, if_pos hphase]
  rfl

/-- A failure of the stream is told with its reason. -/
theorem failStream_eq (hphase : s.phase = .reading) (reason : String) (w : ω) :
    s.failStream reason w =
      ({ (s.publish (.failed reason)).conclude .failed with phase := .answering },
        (Host.terminate s.handle w).2) := by
  rw [failStream, if_neg (not_not_intro hphase)]
  rfl

/-- What a session does with a failure is a turn. -/
theorem turn_failStream (s : Session η) (reason : String) (w : ω) :
    Turn s (.streamError reason) (s.failStream reason w).1
      (s.told (.streamError reason) (s.failStream reason w).1) := by
  by_cases hphase : s.phase = .reading
  · rw [failStream_eq hphase, told, if_neg (not_not_intro hphase)]
    exact .failed hphase
  · rw [failStream_unread hphase, told, if_pos hphase]
    exact .unread hphase (.inr (.inr ⟨reason, rfl⟩))

/-- **A change of size that is refused changes nothing**: one to an empty size, and any after the
end. -/
theorem resize_refused {d : Dimensions}
    (h : d.isEmpty ∨ s.phase = .gone ∨ s.status.isFinished) :
    ∃ e, s.resize d = (pure (s, .error e) : StateM ω _) := by
  rw [resize, Dimensions.validate]
  cases hempty : d.isEmpty with
  | true => exact ⟨.resizeOutOfBounds d, rfl⟩
  | false =>
    rw [hempty] at h
    have hover : s.phase = .gone ∨ s.status.isFinished = true := h.resolve_left Bool.false_ne_true
    exact ⟨.sessionTerminated, if_pos hover⟩

/-- What surrounds a session once its command knows of a new size, if it can. -/
def resizeHost (s : Session η) (d : Dimensions) (w : ω) : ω :=
  if s.backend.capabilities.resize then (Host.resize s.handle d w).2 else w

/-- **Any other change of size is shown.** -/
theorem resize_accepted {d : Dimensions}
    (h : ¬ (d.isEmpty ∨ s.phase = .gone ∨ s.status.isFinished)) :
    ∃ e, s.emulator.resize? d = some e ∧ ∀ w : ω, s.resize d w =
      (({ s with emulator := e }.publish (.output
          ({ s with emulator := e }.rendering (Host.now (s.resizeHost d w)).1)), .ok ()),
        (Host.now (s.resizeHost d w)).2) := by
  obtain ⟨hempty, hover⟩ := not_or.mp h
  obtain ⟨e, hresize⟩ : ∃ e, s.emulator.resize? d = some e := by
    rw [Emulator.resize?, Screen.resize?, if_neg hempty]
    split <;> exact ⟨_, rfl⟩
  refine ⟨e, hresize, fun w => ?_⟩
  simp only [resize, Dimensions.validate, if_neg hempty, if_neg hover, hresize, resizeHost]
  cases s.backend.capabilities.resize <;> rfl

/-- A resize is a turn, whatever becomes of it. -/
theorem turn_resize (s : Session η) (d : Dimensions) (w : ω) :
    Turn s (.resize d) (s.resize d w).1.1 (s.told (.resize d) (s.resize d w).1.1) := by
  rw [told]
  by_cases hrefused : d.isEmpty ∨ s.phase = .gone ∨ s.status.isFinished
  · obtain ⟨e, heq⟩ := resize_refused (ω := ω) hrefused
    rw [if_pos hrefused, heq]
    exact .unmoved (.inl ⟨d, rfl, hrefused⟩)
  · obtain ⟨e, hresize, heq⟩ := resize_accepted (ω := ω) hrefused
    obtain ⟨-, hphase, hstatus⟩ := not_or.mp hrefused |>.imp_right not_or.mp
    rw [if_neg hrefused, heq]
    exact .resized hphase (Bool.not_eq_true _ ▸ hstatus) hresize _

/-- A session that still reads has its command stopped. -/
theorem terminate_reading (hphase : s.phase = .reading) (w : ω) :
    s.terminate w =
      ({ s.conclude .terminated with phase := .gone }, (Host.terminate s.handle w).2) := by
  rw [terminate, hphase]
  rfl

/-- A session that reads no more only lets go of its task. -/
theorem terminate_unread (hphase : s.phase ≠ .reading) (w : ω) :
    s.terminate w = ({ s with phase := .gone }, w) := by
  rw [terminate]
  cases h : s.phase with
  | reading => exact absurd h hphase
  | answering => rfl
  | gone =>
    have hsame : { s with phase := .gone } = s := by rw [← h]
    rw [hsame]
    rfl

/-- A request to stop, or that nobody is left who could ask, is a turn. -/
theorem turn_terminate {i : Input} (hi : i = .shutdown ∨ i = .abandon) (s : Session η) (w : ω) :
    Turn s i (s.terminate w).1 [] := by
  by_cases hphase : s.phase = .reading
  · rw [terminate_reading hphase]
    exact .stopped hi hphase
  · rw [terminate_unread hphase]
    exact .released hi hphase

/-- **What a session does with an input** is one of these turns. -/
theorem turn_react (s : Session η) (i : Input) (w : ω) :
    Turn s i (s.react i w).1 (s.told i (s.react i w).1) := by
  cases i with
  | chunk bytes => exact turn_receive s bytes w
  | streamEnd => exact turn_endStream s w
  | streamError reason => exact turn_failStream s reason w
  | resize d => exact turn_resize s d w
  | snapshot => exact .unmoved (.inr (.inl rfl))
  | write data => exact .unmoved (.inr (.inr ⟨data, rfl⟩))
  | shutdown => exact turn_terminate (.inl rfl) s w
  | abandon => exact turn_terminate (.inr rfl) s w

section Fields
variable (s : Session η) (e : Emulator) (o : Outcome) (now : Float)

@[simp] theorem phase_shown : (s.shown e o now).phase = s.phase := by rw [shown_eq]

@[simp] theorem status_shown : (s.shown e o now).status = s.status := by rw [shown_eq]

@[simp] theorem exitCode_shown : (s.shown e o now).exitCode = s.exitCode := by rw [shown_eq]

@[simp] theorem emulator_shown : (s.shown e o now).emulator = e := by rw [shown_eq]

@[simp] theorem emulator_flushed : (s.flushed e o now).emulator = e := by
  rw [flushed]
  split
  · rfl
  · exact emulator_shown ..

@[simp] theorem gate_flushed : (s.flushed e o now).gate = s.gate := by
  rw [flushed]
  split
  · rfl
  · rw [shown_eq]

@[simp] theorem closed_shown : (s.shown e o now).events.closed = s.events.closed := by
  rw [shown_eq]
  exact EventQueue.closed_foldl_publish _ _

end Fields

/-- Showing tells the tidings, and nothing besides. -/
theorem events_shown (s : Session η) (e : Emulator) (o : Outcome) (now : Float) :
    (s.shown e o now).events.timeless =
      ((s.shown e o now).tidings o).foldl EventQueue.publish s.events.timeless := by
  have htimes : (o.titles.map Event.title ++
      [Event.output ((s.shown e o now).rendering now)]).map Event.timeless =
        (s.shown e o now).tidings o := by
    rw [List.map_append, List.map_map, tidings]
    rfl
  rw [← htimes, ← EventQueue.timeless_foldl_publish]
  exact congrArg (fun t => t.events.timeless) (s.shown_eq e o now)

/-- So does showing the rest, if there is one. -/
theorem events_flushed (s : Session η) (e : Emulator) (o : Outcome) (now : Float) :
    (s.flushed e o now).events.timeless =
      (if o.isEmpty then [] else (s.shown e o now).tidings o).foldl EventQueue.publish
        s.events.timeless := by
  rw [flushed]
  split
  · rfl
  · exact events_shown s e o now

/-- What ends a session is told last. -/
theorem events_conclude (s : Session η) (e : Event) (status : SessionStatus) :
    ((s.publish e).conclude status).events.timeless =
      { s.events.timeless.publish e.timeless with closed := true } := by
  rw [← EventQueue.timeless_publish]
  rfl

end Shown

/-! ### How a session can end -/

/-- How a session can end. -/
inductive Ending where
  /-- The output was over. -/
  | exited
  /-- The output could not be read. -/
  | failed (reason : String)
  /-- It was stopped. -/
  | terminated
deriving DecidableEq, Repr

/-- The last stage. -/
def Ending.status : Ending → SessionStatus
  | .exited => .exited
  | .failed _ => .failed
  | .terminated => .terminated

theorem Ending.isFinished_status (e : Ending) : e.status.isFinished = true := by cases e <;> rfl

/-- How a session ends that reads when it takes this input. -/
def Input.ending? : Input → Option Ending
  | .streamEnd => some .exited
  | .streamError reason => some (.failed reason)
  | .shutdown => some .terminated
  | .abandon => some .terminated
  | _ => none

/-- The task is gone although the session did not end: the emulator had no value. -/
def Faulted (s : Session η) : Prop := s.phase = .gone ∧ s.status = .running

instance (s : Session η) : Decidable s.Faulted := inferInstanceAs (Decidable (_ ∧ _))

/-- Where a session stands after these inputs. -/
inductive Standing (is : List Input) (s : Session η) : Prop where
  | reading (hphase : s.phase = .reading) (hstatus : s.status = .running)
      (hclosed : s.events.closed = false) (hfirst : is.findSome? Input.ending? = none)
  | faulted (h : s.Faulted) (hclosed : s.events.closed = false)
  | ended (ending : Ending) (hphase : s.phase ≠ .reading) (hstatus : s.status = ending.status)
      (hclosed : s.events.closed = true) (hfirst : is.findSome? Input.ending? = some ending)

section Standing
variable {is : List Input} {i : Input} {s s' : Session η} {es : List Event}

/-- The queue is closed exactly when the session has ended. -/
theorem Standing.closed_eq (h : Standing is s) : s.events.closed = s.status.isFinished := by
  cases h with
  | reading hphase hstatus hclosed hfirst => rw [hclosed, hstatus]; rfl
  | faulted h hclosed => rw [hclosed, h.2]; rfl
  | ended ending hphase hstatus hclosed hfirst => rw [hclosed, hstatus, Ending.isFinished_status]

/-- Taking an input, a session stands somewhere again. -/
theorem Turn.standing (h : Turn s i s' es) (hs : Standing is s) : Standing (is ++ [i]) s' := by
  have hconcat : (is ++ [i]).findSome? Input.ending? =
      (is.findSome? Input.ending?).or i.ending? := by
    rw [List.findSome?_append]
    cases i <;> rfl
  cases hs with
  | reading hphase hstatus hclosed hfirst =>
    rw [hfirst, Option.none_or] at hconcat
    cases h with
    | unread hne hi => exact absurd hphase hne
    | unmoved hi =>
      refine .reading hphase hstatus hclosed (hconcat.trans ?_)
      rcases hi with ⟨d, rfl, -⟩ | rfl | ⟨data, rfl⟩ <;> rfl
    | skipped _ hbinary =>
      exact .reading hphase hstatus ((EventQueue.closed_publish _ _).trans hclosed) hconcat
    | fed _ hbinary hfeed now =>
      refine .reading ?_ ?_ ?_ hconcat
      · rw [phase_shown, hphase]
      · rw [status_shown, hstatus]
      · rw [closed_shown, hclosed]
    | faulted _ hi => exact .faulted ⟨rfl, hstatus⟩ hclosed
    | resized _ hopen hresize now =>
      exact .reading hphase hstatus ((EventQueue.closed_publish _ _).trans hclosed) hconcat
    | exited _ hfinish now code => exact .ended .exited nofun rfl rfl hconcat
    | failed => exact .ended (.failed _) nofun rfl rfl hconcat
    | stopped hi _ =>
      refine .ended .terminated nofun rfl rfl (hconcat.trans ?_)
      rcases hi with rfl | rfl <;> rfl
    | released hi hne => exact absurd hphase hne
  | faulted hfault hclosed =>
    have hgone : s.phase ≠ .reading := by rw [hfault.1]; exact nofun
    cases h with
    | unread | unmoved => exact .faulted hfault hclosed
    | resized hne => exact absurd hfault.1 hne
    | released => exact .faulted ⟨rfl, hfault.2⟩ hclosed
    | _ => contradiction
  | ended ending hphase hstatus hclosed hfirst =>
    rw [hfirst, Option.some_or] at hconcat
    cases h with
    | unread | unmoved => exact .ended ending hphase hstatus hclosed hconcat
    | resized _ hopen =>
      rw [hstatus, Ending.isFinished_status] at hopen
      cases hopen
    | released => exact .ended ending nofun hstatus hclosed hconcat
    | _ => contradiction

/-- A session that reads is running. -/
theorem Standing.status_of_reading (hs : Standing is s) (hphase : s.phase = .reading) :
    s.status = .running := by
  cases hs with
  | reading _ hstatus => exact hstatus
  | faulted hfault => exact hfault.2
  | ended _ hne => exact absurd hphase hne

/-- Where something is told the queue is open. -/
theorem Turn.open_of_told (h : Turn s i s' es) (hs : Standing is s) (hes : es ≠ []) :
    s.events.closed = false := by
  have hreading : s.phase = .reading → s.events.closed = false := fun hphase => by
    rw [hs.closed_eq, hs.status_of_reading hphase]
    rfl
  cases h with
  | unread | unmoved | faulted | stopped | released => exact absurd rfl hes
  | skipped hphase | fed hphase | exited hphase | failed hphase => exact hreading hphase
  | resized _ hopen => rw [hs.closed_eq, hopen]

/-- What a turn tells is what it publishes, but for times. -/
theorem Turn.events (h : Turn s i s' es) :
    s'.events.timeless =
      { es.foldl EventQueue.publish s.events.timeless with closed := s'.events.closed } := by
  cases h with
  | unread | unmoved | faulted | stopped | released => rfl
  | skipped _ _ =>
    rw [EventQueue.with_closed_eq]
    · exact EventQueue.timeless_publish _ _
    · rw [publish, EventQueue.closed_publish]
      exact EventQueue.closed_foldl_publish _ _
  | fed _ _ _ now =>
    rw [EventQueue.with_closed_eq]
    · exact events_shown s _ _ now
    · rw [closed_shown]
      exact EventQueue.closed_foldl_publish _ _
  | resized _ _ _ now =>
    rw [EventQueue.with_closed_eq]
    · exact EventQueue.timeless_publish _ _
    · rw [publish, EventQueue.closed_publish]
      exact EventQueue.closed_foldl_publish _ _
  | @exited e o _ _ now code =>
    rw [List.foldl_append, ← events_flushed]
    exact events_conclude _ _ .exited
  | failed _ => exact events_conclude _ _ .failed

/-- The queue goes on recording. -/
theorem Turn.records {all : List Event} (h : Turn s i s' es) (hs : Standing is s)
    (hq : s.events.timeless.Records all) : s'.events.timeless.Records (all ++ es) := by
  have hrecords : (es.foldl EventQueue.publish s.events.timeless).Records (all ++ es) := by
    by_cases hes : es = []
    · rw [hes, List.append_nil]
      exact hq
    · exact hq.foldl_publish (h.open_of_told hs hes) es
  rw [h.events]
  exact ⟨hrecords.published, hrecords.kept⟩

/-- A session that has ended only stops answering. -/
theorem Turn.idle_of_finished (h : Turn s i s' es) (hs : Standing is s)
    (hover : s.status.isFinished = true) :
    es = [] ∧ ∃ phase, s' = { s with phase := phase } := by
  have hne : s.phase ≠ .reading := fun hphase => by
    rw [hs.status_of_reading hphase] at hover
    cases hover
  cases h with
  | unread | unmoved => exact ⟨rfl, s.phase, rfl⟩
  | released => exact ⟨rfl, .gone, rfl⟩
  | resized _ hopen =>
    rw [hover] at hopen
    cases hopen
  | _ => contradiction

/-- A task that is gone without an end does nothing more. -/
theorem Turn.faulted_of_faulted (h : Turn s i s' es) (hs : s.Faulted) : es = [] ∧ s'.Faulted := by
  have hne : s.phase ≠ .reading := by
    rw [hs.1]
    exact nofun
  cases h with
  | unread | unmoved => exact ⟨rfl, hs⟩
  | resized hgone => exact absurd hs.1 hgone
  | released => exact ⟨rfl, rfl, hs.2⟩
  | _ => contradiction

/-- The gate is never changed. -/
theorem Turn.gate_eq (h : Turn s i s' es) : s'.gate = s.gate := by
  cases h with
  | fed => rw [shown_eq]
  | @exited e o _ _ now code => exact gate_flushed s e o now
  | _ => rfl

end Standing

/-! ### Runs -/

/-- A session of a command that was started, with a receiver of all its events. -/
def started (id : SessionId) (request : ExecRequest) (settings : SessionSettings)
    (running : Running η) : Session η :=
  (ofRunning id request settings running).subscribe.1

/-- A session that is spawned is of this form, and its size is none that is refused. -/
theorem exists_started_of_spawn {registry registry' : Registry} {settings : SessionSettings}
    {request : ExecRequest} {s : Session η} {r : Receiver} {w w' : ω}
    (h : spawn registry settings request w = ((registry', .ok (s, r)), w')) :
    request.dimensions.isEmpty = false ∧
      ∃ id running, s = started id request settings running := by
  rw [spawn] at h
  cases hvalid : request.dimensions.validate with
  | error e =>
    rw [hvalid] at h
    cases h
  | ok =>
    rw [hvalid] at h
    rcases hselect : registry.select (ω := ω) (η := η) request w with ⟨⟨registry₁, e | running⟩, w₁⟩
    · simp only [bind, StateT.bind, hselect] at h
      cases h
    · simp only [bind, StateT.bind, hselect] at h
      rcases hreader : Host.takeReader running.handle w₁ with ⟨e | _, w₂⟩
      · simp only [hreader] at h
        cases h
      · simp only [hreader] at h
        obtain ⟨⟨-, hs⟩, -⟩ := Prod.mk.inj h |>.imp_left Prod.mk.inj
        refine ⟨?_, (Host.freshId w₂).1, running, ?_⟩
        · rw [Dimensions.validate] at hvalid
          split at hvalid
          · cases hvalid
          · exact Bool.not_eq_true _ ▸ ‹¬ _›
        · exact (Prod.mk.inj (Except.ok.inj hs)).1.symm

section Run
variable (id : SessionId) (request : ExecRequest) (settings : SessionSettings)
  (running : Running η)

/-- What its task begins with. -/
def begun : Session η := (started id request settings running).begin

/-- A session that has begun reads, and has told nothing. -/
theorem standing_begun : Standing [] (begun id request settings running) :=
  .reading rfl rfl rfl rfl

theorem records_begun : (begun id request settings running).events.timeless.Records [] :=
  ⟨rfl, List.drop_nil.symm ▸ congrArg Array.toList Array.map_empty⟩

/-- **What every turn keeps, a run keeps.** -/
theorem run_induction
    {motive : List Input → List Event → List SessionStatus → Session η → Prop}
    (start : motive [] [] [.running] (begun id request settings running))
    (turn : ∀ {is es ss s i s' es'}, motive is es ss s → Standing is s → Turn s i s' es' →
      motive (is ++ [i]) (es ++ es') (ss ++ [s'.status]) s')
    (is : List Input) (w : ω) :
    motive is (log is (begun id request settings running) w)
      (statuses is (begun id request settings running) w)
      (run is (begun id request settings running) w).1 := by
  -- from every session on the way, with what lies behind it
  have rest : ∀ before es ss s, motive before es (ss ++ [s.status]) s → Standing before s →
      motive (before ++ is) (es ++ log is s w) (ss ++ statuses is s w) (run is s w).1 := by
    induction is generalizing w with
    | nil =>
      intro before es ss s hmotive _
      rw [List.append_nil, log, List.append_nil]
      exact hmotive
    | cons i is ih =>
      intro before es ss s hmotive hs
      have hturn := turn_react s i w
      have hnext := ih (s.react i w).2 _ _ _ _ (turn hmotive hs hturn) (hturn.standing hs)
      simp only [List.append_assoc, List.singleton_append] at hnext
      exact hnext
  exact rest [] [] [] _ start (standing_begun id request settings running)

/-- A session always stands somewhere, and its queue has recorded what was told. -/
theorem standing_run (is : List Input) (w : ω) :
    Standing is (run is (begun id request settings running) w).1 ∧
      (run is (begun id request settings running) w).1.events.timeless.Records
        (log is (begun id request settings running) w) := by
  refine run_induction (motive := fun is es _ s => Standing is s ∧ s.events.timeless.Records es)
    id request settings running ?_ ?_ is w
  · exact ⟨standing_begun id request settings running, records_begun id request settings running⟩
  · rintro is es ss s i s' es' ⟨-, hrecords⟩ hs hturn
    exact ⟨hturn.standing hs, hturn.records hs hrecords⟩

end Run

/-- Inputs one after the other: the second ones are taken where the first ones lead. -/
theorem run_append (is more : List Input) (s : Session η) (w : ω) :
    run (is ++ more) s w = run more (run is s w).1 (run is s w).2 := by
  induction is generalizing s w with
  | nil => rfl
  | cons i is ih => exact ih _ _

theorem log_append (is more : List Input) (s : Session η) (w : ω) :
    log (is ++ more) s w = log is s w ++ log more (run is s w).1 (run is s w).2 := by
  induction is generalizing s w with
  | nil => rfl
  | cons i is ih => rw [List.cons_append, log, ih, log, run, List.append_assoc]

end Session

end VirtualTerminal
