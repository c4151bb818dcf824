import VirtualTerminal.Backend.Reading
import VirtualTerminal.Manager

/-!
# Following — a session together with what it tells

A session of a local command, whose output is handed to the session as it comes, and whose events
are taken as they are told.
-/

namespace VirtualTerminal

/-- A session, and the events that its first receiver has taken. -/
structure Following where
  session : Session Nat
  receiver : Receiver
  events : List Event := []

namespace Following

/-- Takes the events that are there. -/
def takeEvents (f : Following) : Following :=
  let (r, events) := f.session.events.takeAll f.receiver
  { f with receiver := r, events := f.events ++ events }

/-- The session after a request. -/
def put (f : Following) (s : Session Nat) : Following := { f with session := s }.takeEvents

/-- Hands at most so many chunks to the session. -/
def pumpChunks : Nat → Following → StateM LocalHost Following
  | 0, f => return f
  | fuel + 1, f => do
    if f.session.phase ≠ .reading then return f
    else
      match ← fun h : LocalHost => h.on f.session.handle none LocalCommand.readChunk with
      | none => return f
      | some (.ok none) => return f.put (← f.session.endStream)
      | some (.ok (some chunk)) => pumpChunks fuel (f.put (← f.session.receive chunk))
      | some (.error reason) => return f.put (← f.session.failStream reason)

/-- Hands everything that the command has written to the session. -/
def pump (f : Following) : StateM LocalHost Following := do
  let h ← get
  let backlog := (h.commands[f.session.handle]?).elim 0 LocalCommand.backlog
  pumpChunks (backlog + 2) f

/-- Lets time pass, at most so often, until a test succeeds, the session's task is over, or the
command does not go on by itself. -/
def waitFor (done : Following → Bool) : Nat → Following → StateM LocalHost Following
  | 0, f => return f
  | fuel + 1, f => do
    let f ← f.pump
    let h ← get
    let asleep := h.commands[f.session.handle]?.any fun c => c.process.isAsleep
    if done f || f.session.phase ≠ .reading || !asleep then return f
    else
      let () ← fun h : LocalHost => h.on f.session.handle () fun c => ((), c.elapse)
      waitFor done fuel f

/-- Waits until the session's task is over, or the command does not go on by itself. -/
def complete (f : Following) : StateM LocalHost Following :=
  f.waitFor (fun _ => false) Reading.patience

/-- The text that the session remembers holds another. -/
def shows (f : Following) (text : String) : Bool :=
  (placeOf? text.toList f.session.output.contents.toList).isSome

/-- Waits until the session remembers a text, or the command does not go on by itself. -/
def await (f : Following) (text : String) : StateM LocalHost Following :=
  f.waitFor (fun f => f.shows text) Reading.patience

/-- Writes blocks of input to the command until one is refused. -/
def forward : List (List UInt8) → Following → StateM LocalHost Following
  | [], f => return f
  | block :: rest, f => do
    match ← f.session.write block with
    | .error _ => return f
    | .ok _ => forward rest (← f.pump)

/-- A session that has just been started. -/
def ofSpawned (s : Session Nat) (r : Receiver) : StateM LocalHost Following :=
  pump { session := s.begin, receiver := r }

end Following

end VirtualTerminal
