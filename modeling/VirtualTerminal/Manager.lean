import VirtualTerminal.Session

/-!
# Manager — the table of sessions

A manager starts sessions under one configuration and tracks a bounded number of them.  A session
leaves the table when it is closed, or when the sessions are listed after it has ended.  Sessions
that left the table still answer whoever holds them.
-/

namespace VirtualTerminal

/-- The sessions started under a configuration. -/
structure Manager (η : Type) where
  config : Config
  registry : Registry
  /-- Every session that was started. -/
  sessions : List (Session η) := []
  /-- The table: the names of the sessions that count. -/
  tracked : List SessionId := []

/-- What a listing tells of a session. -/
structure SessionInfo where
  id : SessionId
  command : String
  backendName : String
  status : SessionStatus
deriving DecidableEq, Repr, Inhabited

/-- What a listing tells of a session. -/
def Session.info {η : Type} (s : Session η) : SessionInfo :=
  ⟨s.id, s.command, s.backend.name, s.status⟩

namespace Manager

variable {ω η : Type} [Host ω η]

/-- A manager without sessions, whose registry leaves out the backends that the configuration
excludes. -/
def ofConfig (config : Config) (platform : Platform) (backends : List Backend) : Manager η :=
  { config := config
    registry := { Registry.ofBackends platform backends with disabled := config.disabledBackends } }

/-- A request for a command with the configured defaults. -/
def request (m : Manager η) (command : String) : ExecRequest :=
  (({ command := command : ExecRequest }.withDimensions m.config.terminal.dimensions).withTerm
    m.config.terminal.term).withChunkSize m.config.output.readChunkSize

/-- The session with this name, whether the table still has it or not. -/
def session? (m : Manager η) (id : SessionId) : Option (Session η) :=
  m.sessions.find? fun s => s.id == id

/-- Replaces the session of the same name. -/
def update (m : Manager η) (s : Session η) : Manager η :=
  { m with sessions := m.sessions.map fun t => if t.id = s.id then s else t }

/-- The number of sessions in the table. -/
def count (m : Manager η) : Nat := m.tracked.length

/-- Starts a session, if the table has room. -/
def spawn (m : Manager η) (request : ExecRequest) :
    StateM ω (Manager η × Except Error (Session η × Receiver)) := do
  if m.config.server.maxSessions ≤ m.count then
    return (m, .error (.sessionLimitReached m.config.server.maxSessions))
  else
    match ← Session.spawn (ω := ω) (η := η) m.registry m.config.sessionSettings request with
    | (registry, .error e) => return ({ m with registry := registry }, .error e)
    | (registry, .ok (s, receiver)) =>
      return ({ m with
        registry := registry, sessions := m.sessions ++ [s], tracked := m.tracked ++ [s.id] },
        .ok (s, receiver))

/-- Starts a session of a command with arguments, of a given size or of the configured one. -/
def create (m : Manager η) (command : String) (args : List String)
    (dimensions : Option Dimensions) :
    StateM ω (Manager η × Except Error (Session η × Receiver)) :=
  let request := (m.request command).withArgs args
  m.spawn (match dimensions with
    | some d => request.withDimensions d
    | none => request)

/-- The session in the table with this name. -/
def getSession (m : Manager η) (id : SessionId) : Except Error (Session η) :=
  if m.tracked.contains id then
    match m.session? id with
    | some s => .ok s
    | none => .error (.sessionNotFound id)
  else .error (.sessionNotFound id)

/-- The session with this name has reached a final stage. -/
def isFinished (m : Manager η) (id : SessionId) : Bool :=
  (m.session? id).all fun s => s.status.isFinished

/-- Takes the sessions that have ended out of the table and lists the others. -/
def list (m : Manager η) : Manager η × List SessionInfo :=
  let tracked := m.tracked.filter fun id => !m.isFinished id
  ({ m with tracked := tracked }, (tracked.filterMap m.session?).map Session.info)

/-- Changes the size of a session in the table. -/
def resizeSession (m : Manager η) (id : SessionId) (d : Dimensions) :
    StateM ω (Manager η × Except Error Unit) := do
  match m.getSession id with
  | .error e => return (m, .error e)
  | .ok s =>
    let (s, result) ← s.resize d
    return (m.update s, result)

/-- Stops a session in the table and takes it out. -/
def closeSession (m : Manager η) (id : SessionId) :
    StateM ω (Manager η × Except Error Unit) := do
  match m.getSession id with
  | .error e => return (m, .error e)
  | .ok s =>
    let s ← s.terminate
    let m := m.update s
    return ({ m with tracked := m.tracked.filter fun other => other != id }, .ok ())

/-- Stops these sessions one after another. -/
def closeEach : List SessionId → Manager η → StateM ω (Manager η)
  | [], m => return m
  | id :: rest, m => do
    let (m, _) ← m.closeSession id
    closeEach rest m

/-- Stops all sessions in the table. -/
def closeAll (m : Manager η) : StateM ω (Manager η) := closeEach m.tracked m

end Manager

end VirtualTerminal
