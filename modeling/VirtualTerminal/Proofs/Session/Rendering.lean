import VirtualTerminal.Backend.Scripted
import VirtualTerminal.Proofs.Reset
import VirtualTerminal.Proofs.Session.Run

/-!
# Session — Rendering

Whatever changes the screen of a session is told at once by a rendering of the screen.  The one
place where nothing is told is the end of the output, if flushing the decoder has no outcome; then
it has not changed the screen either (`Emulator.screen_of_silent_finish`).

What the emulator of a session is asked for is read off the inputs (`Session.calls`): the chunks
that pass the gate, in turn with changes of size, until an input ends the session, and a flush if
this is the end of the output.

**The last rendering is the screen, and the screen is what passed the gate** (`run_rendering`).
-/

namespace VirtualTerminal

/-! ### The end of the output -/

namespace Outcome

/-- What is printed is in the transcript. -/
theorem isEmpty_ofInstructions_print (c : Char) (is : List Instruction) :
    (ofInstructions (.print c :: is)).isEmpty = false := by
  have hsplit : ofInstructions (.print c :: is) =
      (ofInstructions [.print c]).append (ofInstructions is) :=
    ofInstructions_append [.print c] is
  have htranscript : (ofInstructions (.print c :: is)).transcript.isEmpty = false := by
    rw [hsplit, Bool.eq_false_iff, ne_eq, String.isEmpty_iff]
    intro hempty
    have hlist : (String.push "" c).toList ++ (ofInstructions is).transcript.toList = [] := by
      rw [← String.toList_append]
      exact congrArg String.toList hempty
    rw [String.toList_push] at hlist
    cases hlist
  rw [isEmpty, htranscript, Bool.false_and, Bool.false_and]

end Outcome

namespace Emulator

/-- Decoder and interpreter are between two calls as they can be there. -/
structure Sound (e : Emulator) : Prop where
  settled : e.interpreter.Settled
  holds : e.decoder.Holds

theorem sound_ofDimensions (d : Dimensions) : (ofDimensions d).Sound :=
  ⟨Escape.Interpreter.settled_fresh, Decoder.holds_fresh⟩

/-- A call keeps decoder and interpreter sound. -/
theorem Sound.call {e e' : Emulator} (h : e.Sound) {c : Call} (hc : e.call? c = some e') :
    e'.Sound := by
  have hop : e.operate? (.call c) = some e' := hc
  refine ⟨settled_of_operate? h.settled hop, ?_⟩
  rw [operate?_eq] at hop
  obtain ⟨s, -, rfl⟩ := Option.map_eq_some_iff.mp hop
  rw [Reader.operate_reader]
  exact h.holds.operate _

/-- **A flush without an outcome leaves the screen alone.** -/
theorem screen_of_silent_finish {e e' : Emulator} {o : Outcome} (h : e.Sound)
    (hfinish : e.finish? = some (e', o)) (hsilent : o.isEmpty = true) : e'.screen = e.screen := by
  rw [finish?_eq, Reader.perform?] at hfinish
  obtain ⟨s, hs, heq⟩ := Option.map_eq_some_iff.mp hfinish
  obtain ⟨rfl, rfl⟩ := Prod.mk.inj heq
  cases his : e.reader.finish.2 with
  | nil =>
    rw [his] at hs
    exact (Option.some.inj hs).symm
  | cons i is =>
    have hi : i ∈ e.reader.finish.2 := by
      rw [his]
      exact List.mem_cons_self
    obtain ⟨b, rfl⟩ := Reader.exists_print_of_mem_read_held (r := e.reader) h.settled h.holds hi
    rw [his, Outcome.isEmpty_ofInstructions_print] at hsilent
    cases hsilent

theorem isEmpty_of_resize? {e e' : Emulator} {d : Dimensions} (h : e.resize? d = some e') :
    d.isEmpty = false := by
  rw [resize?, Screen.resize?] at h
  cases hempty : d.isEmpty with
  | false => rfl
  | true =>
    rw [hempty] at h
    cases h

/-! ### Calls in a row -/

/-- Carries out calls one after another. -/
def callAll? : List Call → Emulator → Option Emulator
  | [], e => some e
  | c :: cs, e => (e.call? c).bind (callAll? cs)

/-- Calls in two parts are made one part after the other. -/
theorem callAll?_append (cs cs' : List Call) (e : Emulator) :
    e.callAll? (cs ++ cs') = (e.callAll? cs).bind (callAll? cs') := by
  induction cs generalizing e with
  | nil => rfl
  | cons c cs ih =>
    rw [List.cons_append, callAll?, callAll?, Option.bind_assoc]
    exact congrArg _ (funext ih)

@[simp] theorem callAll?_singleton (c : Call) (e : Emulator) : e.callAll? [c] = e.call? c := by
  rw [callAll?]
  cases e.call? c <;> rfl

section Outcome
variable {e e' : Emulator} {o : Outcome}

theorem call?_of_feed? {bytes : List UInt8} (h : e.feed? bytes = some (e', o)) :
    e.call? (.feed bytes) = some e' := by
  rw [call?, h]
  rfl

theorem call?_of_finish? (h : e.finish? = some (e', o)) : e.call? .finish = some e' := by
  rw [call?, h]
  rfl

theorem call?_of_resize? {d : Dimensions} (h : e.resize? d = some e') :
    e.call? (.resize d) = some e' := by
  rw [call?, h]
  rfl

end Outcome

/-- Two chunks at once. -/
theorem call?_feed_append (e : Emulator) (a b : List UInt8) :
    e.call? (.feed (a ++ b)) = (e.call? (.feed a)).bind fun e' => e'.call? (.feed b) := by
  rw [call?, feed?_append, call?]
  cases e.feed? a with
  | none => rfl
  | some fed => cases h : fed.1.feed? b <;> simp [call?, h]

end Emulator

namespace Call

/-- Chunks that follow each other are put together. -/
def merged : List Call → List Call
  | [] => []
  | .feed a :: cs =>
    match merged cs with
    | .feed b :: cs' => .feed (a ++ b) :: cs'
    | cs' => .feed a :: cs'
  | c :: cs => c :: merged cs

/-- It does not matter whether they are. -/
theorem callAll?_merged (cs : List Call) (e : Emulator) :
    e.callAll? (merged cs) = e.callAll? cs := by
  induction cs generalizing e with
  | nil => rfl
  | cons c cs ih =>
    have hrest : Emulator.callAll? (merged cs) = Emulator.callAll? cs := funext ih
    rw [Emulator.callAll?, ← hrest]
    cases c with
    | feed a =>
      rw [merged]
      split
      · next b cs' hcs =>
        rw [hcs, Emulator.callAll?, Emulator.call?_feed_append, Option.bind_assoc]
        rfl
      · rfl
    | finish => rfl
    | resize d => rfl

end Call

/-! ### What is told of the screen -/

namespace Event

/-- The rendering that is told. -/
def rendering? : Event → Option TerminalOutput
  | .output r => some r
  | _ => none

/-- Binary data is told. -/
def isBinary : Event → Bool
  | .binary _ _ => true
  | _ => false

end Event

namespace Session

variable {ω η : Type} [Host ω η] {is : List Input} {i : Input} {s s' : Session η}
  {es es' : List Event} {g : GateSettings} {d : Dimensions}

/-- The last rendering that was told. -/
def latest (es : List Event) : Option TerminalOutput := (es.filterMap Event.rendering?).getLast?

/-- The last rendering told, but for its time, is that of the screen; as long as there is none, the
screen is blank and of its first size. -/
def UpToDate (d : Dimensions) (es : List Event) (s : Session η) : Prop :=
  match latest es with
  | some r => r = s.rendering 0
  | none => s.emulator.screen = .blank d ∧ s.output.truncated = false

theorem latest_append_of_silent (h : es'.filterMap Event.rendering? = []) :
    latest (es ++ es') = latest es := by
  rw [latest, List.filterMap_append, h, List.append_nil, latest]

/-- A rendering that was just told. -/
theorem upToDate_output (d : Dimensions) (es : List Event) (s : Session η) :
    UpToDate d (es ++ [.output (s.rendering 0)]) s := by
  have hlatest : latest (es ++ [.output (s.rendering 0)]) = some (s.rendering 0) := by
    rw [latest, List.filterMap_append]
    exact List.getLast?_concat
  rw [UpToDate, hlatest]

/-- The tidings of an outcome end with a rendering of the screen as it is. -/
theorem upToDate_tidings (d : Dimensions) (es : List Event) (s : Session η) (o : Outcome) :
    UpToDate d (es ++ s.tidings o) s := by
  rw [tidings, ← List.append_assoc]
  exact upToDate_output d _ s

/-- What tells of no rendering, and changes nothing that one would show. -/
theorem UpToDate.silent (h : UpToDate d es s) (hsilent : es'.filterMap Event.rendering? = [])
    (hscreen : s'.emulator.screen = s.emulator.screen) (houtput : s'.output = s.output)
    (hbackend : s'.backend = s.backend) : UpToDate d (es ++ es') s' := by
  have hrendering : s'.rendering 0 = s.rendering 0 := by
    rw [rendering, hscreen, houtput, hbackend]
    rfl
  rw [UpToDate, latest_append_of_silent hsilent, hrendering, hscreen, houtput]
  exact h

/-! ### What the emulator is asked for -/

/-- What an input asks of the emulator of a session that reads: a chunk that the gate rejects asks
for nothing. -/
def Input.call? (g : GateSettings) : Input → Option Call
  | .chunk bytes => if ContentGate.isBinary g bytes then none else some (.feed bytes)
  | .streamEnd => some .finish
  | .resize d => if d.isEmpty then none else some (.resize d)
  | _ => none

/-- The chunk that the gate rejects. -/
def Input.rejected? (g : GateSettings) : Input → Option (List UInt8)
  | .chunk bytes => if ContentGate.isBinary g bytes then some bytes else none
  | _ => none

/-- The inputs up to the first that ends a session. -/
def taken : List Input → List Input
  | [] => []
  | i :: is => i :: if i.ending?.isSome then [] else taken is

/-- What the emulator of a session is asked for. -/
def calls (g : GateSettings) (is : List Input) : List Call := (taken is).filterMap (Input.call? g)

/-- The chunks that the gate rejects. -/
def rejected (g : GateSettings) (is : List Input) : List (List UInt8) :=
  (taken is).filterMap (Input.rejected? g)

/-- Inputs count until the first that ends the session. -/
theorem taken_concat (is : List Input) (i : Input) :
    taken (is ++ [i]) = taken is ++ if is.findSome? Input.ending? = none then [i] else [] := by
  induction is with
  | nil =>
    show taken [i] = [i]
    rw [taken, taken, ite_self]
  | cons i' is ih =>
    rw [List.cons_append, taken, taken, List.findSome?_cons, ih]
    cases i'.ending? <;> rfl

section Calls
variable (h : is.findSome? Input.ending? = none)
include h

/-- While nothing has ended, one more input makes its own call, if it makes one. -/
theorem calls_concat : calls g (is ++ [i]) = calls g is ++ (i.call? g).toList := by
  rw [calls, taken_concat, if_pos h, List.filterMap_append, calls]
  cases hcall : i.call? g <;> simp [hcall]

theorem rejected_concat : rejected g (is ++ [i]) = rejected g is ++ (i.rejected? g).toList := by
  rw [rejected, taken_concat, if_pos h, List.filterMap_append, rejected]
  cases hrejected : i.rejected? g <;> simp [hrejected]

end Calls

/-- After the end nothing is taken. -/
theorem taken_concat_of_ended {ending : Ending} (h : is.findSome? Input.ending? = some ending) :
    taken (is ++ [i]) = taken is := by
  rw [taken_concat, h, if_neg nofun, List.append_nil]

/-! ### Turn by turn -/

/-- What the emulator is between two inputs, and what was told of it. -/
structure Shown (d : Dimensions) (es : List Event) (s : Session η) : Prop where
  sound : s.emulator.Sound
  upToDate : UpToDate d es s

/-- The flush at the end of the output is told, unless it changes nothing. -/
theorem Shown.flushed {e : Emulator} {o : Outcome} (hs : Shown d es s)
    (hfinish : s.emulator.finish? = some (e, o)) (now : Float) :
    Shown d (es ++ if o.isEmpty then [] else (s.shown e o now).tidings o)
      (s.flushed e o now) := by
  have hsound : e.Sound := hs.sound.call (Emulator.call?_of_finish? hfinish)
  rw [Session.flushed]
  cases hempty : o.isEmpty with
  | true =>
    have hscreen := Emulator.screen_of_silent_finish hs.sound hfinish hempty
    exact ⟨hsound, hs.upToDate.silent rfl hscreen rfl rfl⟩
  | false =>
    rw [if_neg Bool.false_ne_true, if_neg Bool.false_ne_true]
    refine ⟨?_, upToDate_tidings d es _ o⟩
    rwa [emulator_shown]

/-- The exit changes nothing that is shown. -/
theorem Shown.exited (hs : Shown d es s) (code : Option Int) :
    Shown d (es ++ [.exited code])
      { (s.publish (.exited code)).conclude .exited with exitCode := code, phase := .answering } :=
  ⟨hs.sound, hs.upToDate.silent rfl rfl rfl rfl⟩

/-- **A session tells of the screen whenever it changes.** -/
theorem Turn.shown (h : Turn s i s' es') (hs : Shown d es s) : Shown d (es ++ es') s' := by
  cases h with
  | unread | unmoved | faulted | stopped | released | skipped | failed =>
    exact ⟨hs.sound, hs.upToDate.silent rfl rfl rfl rfl⟩
  | @fed bytes e o _ _ hfeed now =>
    refine ⟨?_, upToDate_tidings d es _ _⟩
    rw [emulator_shown]
    exact hs.sound.call (Emulator.call?_of_feed? hfeed)
  | @resized d e _ _ hresize now =>
    exact ⟨hs.sound.call (Emulator.call?_of_resize? hresize), upToDate_output _ es _⟩
  | @exited e o _ hfinish now code =>
    rw [← List.append_assoc]
    exact (hs.flushed hfinish now).exited code

theorem not_faulted (hphase : s.phase = .reading) : ¬ s.Faulted := by
  intro h
  rw [h.1] at hphase
  cases hphase

/-- A session that has ended was not given up in the middle. -/
theorem not_faulted_of_finished (hover : s.status.isFinished = true) : ¬ s.Faulted := by
  intro h
  rw [h.2] at hover
  cases hover

/-- **What a session that reads asks of its emulator.** -/
theorem Turn.call (h : Turn s i s' es') (hs : Standing is s) (hphase : s.phase = .reading) :
    s.emulator.callAll? (i.call? s.gate).toList =
      if s'.Faulted then none else some s'.emulator := by
  cases h with
  | unread hne => exact absurd hphase hne
  | unmoved hi =>
    have hcall : i.call? s.gate = none := by
      rcases hi with ⟨d, rfl, hempty | hgone | hover⟩ | rfl | ⟨data, rfl⟩
      · exact if_pos hempty
      · rw [hphase] at hgone
        cases hgone
      · rw [hs.status_of_reading hphase] at hover
        cases hover
      · rfl
      · rfl
    rw [hcall, if_neg (not_faulted hphase)]
    rfl
  | @skipped bytes _ hbinary =>
    have hreading : ¬ (s.publish (.binaryChunk bytes.length)).Faulted := not_faulted hphase
    rw [Input.call?, if_pos hbinary, if_neg hreading]
    rfl
  | @fed bytes e o _ hbinary hfeed now =>
    have hreading : ¬ (s.shown e o now).Faulted := not_faulted (by rw [phase_shown, hphase])
    rw [Input.call?, hbinary, if_neg Bool.false_ne_true, if_neg hreading, emulator_shown,
      Option.toList_some, Emulator.callAll?_singleton, Emulator.call?_of_feed? hfeed]
  | faulted _ hi =>
    rw [if_pos ⟨rfl, hs.status_of_reading hphase⟩]
    rcases hi with ⟨bytes, rfl, hbinary, hfeed⟩ | ⟨rfl, hfinish⟩
    · rw [Input.call?, hbinary, if_neg Bool.false_ne_true, Option.toList_some,
        Emulator.callAll?_singleton, Emulator.call?, hfeed]
      rfl
    · rw [Input.call?, Option.toList_some, Emulator.callAll?_singleton, Emulator.call?, hfinish]
      rfl
  | @resized d e _ hopen hresize now =>
    have hreading : ¬ ({ s with emulator := e }.publish (.output
        ({ s with emulator := e }.rendering now))).Faulted := not_faulted hphase
    rw [Input.call?, Emulator.isEmpty_of_resize? hresize, if_neg Bool.false_ne_true,
      if_neg hreading, Option.toList_some, Emulator.callAll?_singleton]
    exact Emulator.call?_of_resize? hresize
  | @exited e o _ hfinish now code =>
    rw [if_neg (not_faulted_of_finished (by rfl)), Input.call?, Option.toList_some,
      Emulator.callAll?_singleton, Emulator.call?_of_finish? hfinish]
    exact congrArg some (emulator_flushed s e o now).symm
  | failed =>
    rw [if_neg (not_faulted_of_finished (by rfl))]
    rfl
  | stopped hi =>
    rw [if_neg (not_faulted_of_finished (by rfl))]
    rcases hi with rfl | rfl <;> rfl
  | released _ hne => exact absurd hphase hne

/-- The events that tell of rejected chunks. -/
def rejections (chunks : List (List UInt8)) : List Event :=
  chunks.map fun bytes => .binaryChunk bytes.length

theorem filter_isBinary_tidings (s : Session η) (o : Outcome) :
    (s.tidings o).filter Event.isBinary = [] := by
  rw [List.filter_eq_nil_iff]
  intro e he
  rcases List.mem_append.mp he with he | he
  · obtain ⟨title, -, rfl⟩ := List.mem_map.mp he
    exact Bool.false_ne_true
  · obtain rfl := List.mem_singleton.mp he
    exact Bool.false_ne_true

/-- **Binary data is told once for each chunk that a session rejects**, while it reads. -/
theorem Turn.rejections (h : Turn s i s' es') (hphase : s.phase = .reading) :
    es'.filter Event.isBinary = Session.rejections (i.rejected? s.gate).toList := by
  cases h with
  | unread hne => exact absurd hphase hne
  | unmoved hi => rcases hi with ⟨d, rfl, -⟩ | rfl | ⟨data, rfl⟩ <;> rfl
  | skipped _ hbinary =>
    rw [Input.rejected?, if_pos hbinary]
    rfl
  | fed _ hbinary =>
    rw [Input.rejected?, hbinary, filter_isBinary_tidings]
    rfl
  | faulted _ hi =>
    rcases hi with ⟨bytes, rfl, hbinary, -⟩ | ⟨rfl, -⟩
    · rw [Input.rejected?, hbinary]
      rfl
    · rfl
  | resized => rfl
  | exited =>
    rw [List.filter_append]
    split
    · rfl
    · rw [filter_isBinary_tidings]
      rfl
  | failed => rfl
  | stopped hi => rcases hi with rfl | rfl <;> rfl
  | released _ hne => exact absurd hphase hne

/-- What was asked of the emulator, and which chunks were told to be binary. -/
structure Asked (g : GateSettings) (d : Dimensions) (is : List Input) (es : List Event)
    (s : Session η) : Prop where
  gate : s.gate = g
  asked : (Emulator.ofDimensions d).callAll? (calls g is) =
    if s.Faulted then none else some s.emulator
  told : es.filter Event.isBinary <+: Session.rejections (rejected g is)
  told_eq : ¬ s.Faulted → es.filter Event.isBinary = Session.rejections (rejected g is)

/-- **One turn** keeps what the emulator was asked, and what was told, in step with the inputs. -/
theorem Turn.asked (h : Turn s i s' es') (hs : Standing is s) (ha : Asked g d is es s) :
    Asked g d (is ++ [i]) (es ++ es') s' := by
  obtain ⟨rfl, hasked, htold, htold_eq⟩ := ha
  cases hs with
  | reading hphase hstatus hclosed hfirst =>
    have hcall := h.call (.reading hphase hstatus hclosed hfirst) hphase
    have hrejections := h.rejections hphase
    rw [if_neg (not_faulted hphase)] at hasked
    have heq : (es ++ es').filter Event.isBinary =
        Session.rejections (Session.rejected s.gate (is ++ [i])) := by
      rw [List.filter_append, htold_eq (not_faulted hphase), hrejections, rejected_concat hfirst]
      exact List.map_append.symm
    refine ⟨h.gate_eq, ?_, heq ▸ List.prefix_rfl, fun _ => heq⟩
    rw [calls_concat hfirst, Emulator.callAll?_append, hasked]
    exact hcall
  | faulted hfault hclosed =>
    obtain ⟨rfl, hfault'⟩ := h.faulted_of_faulted hfault
    obtain ⟨more, hmore⟩ : ∃ more, taken (is ++ [i]) = taken is ++ more := ⟨_, taken_concat is i⟩
    rw [if_pos hfault] at hasked
    refine ⟨h.gate_eq, ?_, ?_, fun hnot => absurd hfault' hnot⟩
    · rw [if_pos hfault', calls, hmore, List.filterMap_append, Emulator.callAll?_append, ← calls,
        hasked, Option.bind_none]
    · rw [List.append_nil, rejected, hmore, List.filterMap_append]
      exact htold.trans ((List.prefix_append _ _).map _)
  | ended ending hphase hstatus hclosed hfirst =>
    have hover : s.status.isFinished = true := by rw [hstatus, ending.isFinished_status]
    obtain ⟨rfl, phase, rfl⟩ :=
      h.idle_of_finished (.ended ending hphase hstatus hclosed hfirst) hover
    have htaken := taken_concat_of_ended (i := i) hfirst
    have hopen : ¬ s.Faulted := not_faulted_of_finished hover
    have hopen' : ¬ { s with phase := phase }.Faulted := not_faulted_of_finished hover
    rw [if_neg hopen] at hasked
    refine ⟨rfl, ?_, ?_, fun _ => ?_⟩
    · rw [if_neg hopen', calls, htaken]
      exact hasked
    · rw [List.append_nil, rejected, htaken]
      exact htold
    · rw [List.append_nil, rejected, htaken]
      exact htold_eq hopen

/-! ### Runs -/

/-- **What a run asked of the emulator** is what its inputs say. -/
theorem asked_run (id : SessionId) (request : ExecRequest) (settings : SessionSettings)
    (running : Running η) (is : List Input) (w : ω) :
    Asked settings.gate request.dimensions is (log is (begun id request settings running) w)
      (run is (begun id request settings running) w).1 := by
  refine run_induction (motive := fun is es _ s => Asked settings.gate request.dimensions is es s)
    id request settings running ?_ ?_ is w
  · exact ⟨rfl, rfl, List.nil_prefix, fun _ => rfl⟩
  · intro is es ss s i s' es' hasked hs hturn
    exact hturn.asked hs hasked

/-- **A task is gone without an end** exactly if the emulator had no value for what it was asked. -/
theorem Asked.faulted_iff (h : Asked g d is es s) :
    s.Faulted ↔ (Emulator.ofDimensions d).callAll? (calls g is) = none := by
  rw [h.asked]
  by_cases hfault : s.Faulted
  · rw [if_pos hfault]
    exact iff_of_true hfault rfl
  · rw [if_neg hfault]
    exact iff_of_false hfault nofun

/-- **The last rendering is the screen, and the screen is what passed the gate.**  Start a session
of any command, and let whatever chunks, requests and endings reach its task, in any order.  Then

* its queue holds the newest of the events told;
* the last rendering that was told has the tokens, the text and the size of the screen and says
  whether text was dropped; or none was told, and the screen is blank and of its first size;
* the emulator is what becomes of a fresh one that is asked for changes of size and, in between, is
  fed at once what passed the gate, until an input ends the session, and that is flushed if this is
  the end of the output; unless it has no value for that, and then the task is gone;
* binary data was told once for each chunk that the gate rejected, in order;
* and such a chunk changes nothing but the queue. -/
theorem run_rendering (id : SessionId) (request : ExecRequest) (settings : SessionSettings)
    (running : Running η) (is : List Input) (w : ω) :
    let s₀ := begun id request settings running
    let s := (run is s₀ w).1
    s.events.timeless.Records (log is s₀ w) ∧ UpToDate request.dimensions (log is s₀ w) s ∧
      (Emulator.ofDimensions request.dimensions).callAll? (Call.merged (calls settings.gate is)) =
        (if s.Faulted then none else some s.emulator) ∧
      (log is s₀ w).filter Event.isBinary <+: rejections (rejected settings.gate is) ∧
      (¬ s.Faulted →
        (log is s₀ w).filter Event.isBinary = rejections (rejected settings.gate is)) ∧
      ∀ bytes, s.phase = .reading → ContentGate.isBinary settings.gate bytes = true →
        s.react (.chunk bytes) = (pure (s.publish (.binaryChunk bytes.length)) : StateM ω _) ∧
          s.told (.chunk bytes) (s.publish (.binaryChunk bytes.length)) =
            [.binaryChunk bytes.length] := by
  intro s₀ s
  have hshown : Shown request.dimensions (log is s₀ w) s := by
    refine run_induction (motive := fun _ es _ s => Shown request.dimensions es s)
      id request settings running ?_ ?_ is w
    · exact ⟨Emulator.sound_ofDimensions _, rfl, rfl⟩
    · intro is es ss s i s' es' hshown hs hturn
      exact hturn.shown hshown
  have hasked : Asked settings.gate request.dimensions is (log is s₀ w) s :=
    asked_run id request settings running is w
  refine ⟨(standing_run id request settings running is w).2, hshown.upToDate, ?_, hasked.told,
    hasked.told_eq, fun bytes hphase hbinary => ?_⟩
  · rw [Call.callAll?_merged]
    exact hasked.asked
  · rw [← hasked.gate] at hbinary
    rw [react, receive, told, if_neg (not_not_intro hphase), if_neg (not_not_intro hphase),
      if_pos hbinary, if_pos hbinary]
    exact ⟨rfl, rfl⟩

/-- A host whose only command exits at once. -/
def cutHost : Scripted := { commands := [⟨{ backendName := "mock" }, []⟩] }

/-- The session of this command. -/
def cutSession : Session Nat :=
  begun ⟨0⟩ { command := "cut", dimensions := ⟨1, 4⟩ } ⟨{}, 100, 4⟩
    ⟨⟨"mock", .nativePty, [], .full⟩, 0, []⟩

/-- Its output ends inside a character. -/
def cutInputs : List Input := [.chunk [0xc3], .streamEnd]

/-- Feeding what passed the gate leaves the screen blank; it is the flush that shows the byte. -/
theorem screen_run_cutInputs :
    ContentGate.isBinary cutSession.gate [0xc3] = false ∧
      ((Emulator.ofDimensions ⟨1, 4⟩).callAll? [.feed [0xc3]]).map Emulator.screen ≠
        some (run cutInputs cutSession cutHost).1.emulator.screen ∧
      ((Emulator.ofDimensions ⟨1, 4⟩).callAll? [.feed [0xc3]]).map Emulator.screen =
        some (.blank ⟨1, 4⟩) ∧
      (run cutInputs cutSession cutHost).1.emulator.screen.content = "Ã" := by
  refine ⟨?_, ?_, ?_, ?_⟩ <;> decide +kernel

end Session

end VirtualTerminal
