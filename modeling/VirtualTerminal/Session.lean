import VirtualTerminal.Backend.Registry
import VirtualTerminal.Config
import VirtualTerminal.Emulator
import VirtualTerminal.Event
import VirtualTerminal.EventQueue
import VirtualTerminal.OutputBuffer

/-!
# Session — a running command and its screen

A session owns a command, the emulator that renders its output, the text it printed and the queue of
its events.  Chunks of output and requests reach it one at a time, so a request never sees half a
chunk.  It reads until the stream ends, fails, or it is told to stop; after the end of the stream it
still answers requests until it is told to stop or nobody can ask any more.
-/

namespace VirtualTerminal

/-- What a session needs to know of the configuration. -/
structure SessionSettings where
  gate : GateSettings
  maxOutputSize : Nat
  eventQueueCapacity : Nat
deriving Inhabited

/-- The settings of sessions under a configuration. -/
def Config.sessionSettings (c : Config) : SessionSettings :=
  ⟨c.gate, c.output.maxSize, c.output.eventQueueCapacity⟩

/-- What a session's task does. -/
inductive SessionPhase where
  /-- It reads output and answers requests. -/
  | reading
  /-- The stream ended; it only answers requests. -/
  | answering
  /-- It is over. -/
  | gone
deriving DecidableEq, Repr, Inhabited

/-- A view of a session at one moment. -/
structure Snapshot where
  tokens : List (List Token)
  content : String
  truncated : Bool
  /-- The text remembered. -/
  output : String
  dims : Dimensions
  cursor : Position
  visible : Bool
  status : SessionStatus
  /-- The window title set last. -/
  title : Option String
  exitCode : Option Int
deriving Inhabited

/-- A running command and its screen. -/
structure Session (η : Type) where
  id : SessionId
  /-- The command line. -/
  command : String
  backend : Backend
  /-- The backends passed over before this one. -/
  attempts : List Attempt
  handle : η
  gate : GateSettings
  emulator : Emulator
  output : OutputBuffer
  events : EventQueue Event
  status : SessionStatus
  title : Option String
  exitCode : Option Int
  phase : SessionPhase

namespace Session

variable {ω η : Type} [Host ω η]

/-! ### Starting -/

/-- A session of a command that has been started. -/
def ofRunning (id : SessionId) (request : ExecRequest) (settings : SessionSettings)
    (running : Running η) : Session η :=
  { id := id
    command := request.display
    backend := running.backend
    attempts := running.attempts
    handle := running.handle
    gate := settings.gate
    emulator := .ofDimensions request.dimensions
    output := .ofMaxSize settings.maxOutputSize
    events := .ofCapacity settings.eventQueueCapacity
    status := .starting
    title := none
    exitCode := none
    phase := .reading }

/-- Starts a command on the best backend that works, with a receiver of all its events.  A command
whose output cannot be read is stopped again. -/
def spawn (registry : Registry) (settings : SessionSettings) (request : ExecRequest) :
    StateM ω (Registry × Except Error (Session η × Receiver)) := do
  match request.dimensions.validate with
  | .error e => return (registry, .error e)
  | .ok () =>
    match ← registry.select (ω := ω) (η := η) request with
    | (registry, .error e) => return (registry, .error e)
    | (registry, .ok running) =>
      match ← Host.takeReader running.handle with
      | .error e =>
        let _ ← Host.terminate running.handle
        return (registry, .error e)
      | .ok () =>
        let id ← Host.freshId
        let s := ofRunning id request settings running
        let (events, receiver) := s.events.subscribe
        return (registry, .ok ({ s with events := events }, receiver))

/-- The session's task begins. -/
def begin (s : Session η) : Session η :=
  if s.status = .starting then { s with status := .running } else s

/-! ### Telling -/

/-- Publishes an event. -/
def publish (s : Session η) (e : Event) : Session η := { s with events := s.events.publish e }

/-- The rendering of the screen at a time. -/
def rendering (s : Session η) (now : Float) : TerminalOutput :=
  { tokens := s.emulator.screen.tokens
    content := s.emulator.screen.content
    truncated := s.output.truncated
    size := s.emulator.screen.dims
    backendName := s.backend.name
    timestamp := now }

/-- Publishes a rendering of the screen. -/
def publishRendering (s : Session η) : StateM ω (Session η) := do
  let now ← Host.now
  return s.publish (.output (s.rendering now))

/-- Tells a new title and keeps it. -/
def retitle (s : Session η) (title : String) : Session η :=
  { s.publish (.title title) with title := some title }

/-- Tells the titles of an outcome and remembers its text. -/
def absorb (s : Session η) (o : Outcome) : Session η :=
  let s := o.titles.foldl retitle s
  if o.transcript.isEmpty then s else { s with output := (s.output.append o.transcript).1 }

/-- Reaches a final stage: its event, if it has one, is the last of the queue. -/
def conclude (s : Session η) (status : SessionStatus) : Session η :=
  { s with status := status, events := s.events.close }

/-! ### The stream -/

/-- A chunk of output.  Binary data is told and not shown.  A fault of the emulator ends the
session's task on the spot. -/
def receive (s : Session η) (chunk : List UInt8) : StateM ω (Session η) :=
  if s.phase ≠ .reading then return s
  else if ContentGate.isBinary s.gate chunk then return s.publish (.binaryChunk chunk.length)
  else
    match s.emulator.feed? chunk with
    | none => return { s with phase := .gone }
    | some (emulator, o) => publishRendering ({ s with emulator := emulator }.absorb o)

/-- The most times the exit code is asked for after the end of the stream. -/
def exitPolls : Nat := 50

/-- Asks for the exit code until there is one, or asking fails. -/
def pollExit (handle : η) : Nat → StateM ω (Option Int)
  | 0 => return none
  | n + 1 => do
    match ← Host.tryWait handle with
    | .ok (some code) => return some code
    | .ok none => pollExit handle n
    | .error _ => return none

/-- The end of the output.  Bytes still held back by the decoder are shown first. -/
def endStream (s : Session η) : StateM ω (Session η) :=
  if s.phase ≠ .reading then return s
  else
    match s.emulator.finish? with
    | none => return { s with phase := .gone }
    | some (emulator, o) => do
      let s := { s with emulator := emulator }
      let s ← if o.isEmpty then pure s else publishRendering (s.absorb o)
      let code ← pollExit s.handle exitPolls
      return { (s.publish (.exited code)).conclude .exited with
        exitCode := code, phase := .answering }

/-- A failure to read the output. -/
def failStream (s : Session η) (reason : String) : StateM ω (Session η) :=
  if s.phase ≠ .reading then return s
  else do
    let s := s.publish (.failed reason)
    let _ ← Host.terminate s.handle
    return { s.conclude .failed with phase := .answering }

/-! ### Requests -/

/-- Adds a receiver of the events told from now on. -/
def subscribe (s : Session η) : Session η × Receiver :=
  let (events, receiver) := s.events.subscribe
  ({ s with events := events }, receiver)

/-- Changes the size of the screen and, where the backend can, of the command's terminal. -/
def resize (s : Session η) (d : Dimensions) : StateM ω (Session η × Except Error Unit) := do
  match d.validate with
  | .error e => return (s, .error e)
  | .ok () =>
    if s.phase = .gone ∨ s.status.isFinished then return (s, .error .sessionTerminated)
    else
      match s.emulator.resize? d with
      | none => return (s, .error (.resizeOutOfBounds d))
      | some emulator =>
        if s.backend.capabilities.resize then
          let _ ← Host.resize s.handle d
        let s ← publishRendering { s with emulator := emulator }
        return (s, .ok ())

/-- A view of the session. -/
def view (s : Session η) : Snapshot :=
  { tokens := s.emulator.screen.tokens
    content := s.emulator.screen.content
    truncated := s.output.truncated
    output := s.output.contents
    dims := s.emulator.screen.dims
    cursor := s.emulator.screen.cursor
    visible := s.emulator.screen.visible
    status := s.status
    title := s.title
    exitCode := s.exitCode }

/-- A view of the session, while it answers. -/
def snapshot (s : Session η) : Except Error Snapshot :=
  if s.phase = .gone then .error .sessionTerminated else .ok s.view

/-- Writes to the command. -/
def write (s : Session η) (data : List UInt8) : StateM ω (Except Error Nat) :=
  if s.phase = .gone ∨ s.status.isFinished then return .error .sessionTerminated
  else Host.write s.handle data

/-- Stops the session.  One that has ended already only stops answering. -/
def terminate (s : Session η) : StateM ω (Session η) := do
  match s.phase with
  | .gone => return s
  | .answering => return { s with phase := .gone }
  | .reading =>
    let _ ← Host.terminate s.handle
    return { s.conclude .terminated with phase := .gone }

/-- The stage that waiting for the end of the session gives; a task that ended without a final stage
counts as stopped. -/
def finalStatus (s : Session η) : SessionStatus :=
  if s.status.isFinished then s.status else .terminated

end Session

end VirtualTerminal
