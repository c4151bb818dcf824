import VirtualTerminal.Backend.Basic

/-!
# Backend — Registry

Choosing the backend that runs a command.  Candidates are tried by the rank of their kind, and in
the order of registration within a rank; the first that starts the command wins, and every candidate
passed over on the way is recorded.  The answer to whether a backend can be used is remembered until
it is asked again or forgotten.
-/

namespace VirtualTerminal

/-- Names are compared ignoring the case of ASCII letters. -/
def sameName (a b : String) : Bool := a.toList.map Char.toLower == b.toList.map Char.toLower

/-- A backend and what is remembered of its availability. -/
structure Registration where
  backend : Backend
  available : Option Bool := none
deriving DecidableEq, Repr, Inhabited

/-- The backends of a platform. -/
structure Registry where
  platform : Platform
  registrations : List Registration := []
  /-- The names of the backends that are not to be used. -/
  disabled : List String := []
deriving DecidableEq, Repr, Inhabited

/-- A command that a backend has started. -/
structure Running (η : Type) where
  backend : Backend
  handle : η
  /-- The candidates passed over. -/
  attempts : List Attempt

namespace Registry

variable {ω η : Type}

/-- A registry of backends about which nothing is known yet. -/
def ofBackends (platform : Platform) (backends : List Backend) : Registry :=
  { platform := platform, registrations := backends.map fun b => ⟨b, none⟩ }

/-- Adds a backend behind the others. -/
def register (r : Registry) (b : Backend) : Registry :=
  { r with registrations := r.registrations ++ [⟨b, none⟩] }

/-- The names of the backends, in the order of registration. -/
def names (r : Registry) : List String := r.registrations.map fun e => e.backend.name

/-- The name is excluded. -/
def isDisabled (r : Registry) (name : String) : Bool := r.disabled.any (sameName name)

/-- Excludes a name. -/
def disable (r : Registry) (name : String) : Registry :=
  if r.isDisabled name then r else { r with disabled := r.disabled ++ [name] }

/-- Excludes every backend of another name; the name has to be that of a backend. -/
def restrictTo (r : Registry) (name : String) : Except Error Registry :=
  if r.names.any (sameName name) then
    .ok ((r.names.filter fun other => !sameName name other).foldl disable r)
  else .error (.config (.unknownBackend name))

/-- The place of the first backend with this name. -/
def find? (r : Registry) (name : String) : Option Nat := r.names.findIdx? (sameName name)

/-- Remembers whether the backend at a place can be used. -/
def remember (r : Registry) (place : Nat) (available : Option Bool) : Registry :=
  { r with registrations := r.registrations.modify place fun e => { e with available := available } }

/-- Forgets whether backends can be used. -/
def forget (r : Registry) : Registry :=
  { r with registrations := r.registrations.map fun e => { e with available := none } }

/-- The places of the backends in the order in which they are tried. -/
def ranking (r : Registry) : List Nat :=
  let tiers := r.registrations.map fun e => e.backend.kind.tier
  [0, 1, 2].flatMap fun tier => (List.range tiers.length).filter fun i => tiers[i]? == some tier

/-- Asks whether the backend at a place can be used. -/
def probe [Host ω η] (r : Registry) (place : Nat) : StateM ω (Registry × Bool) := do
  let available ← Host.probe place
  return (r.remember place (some available), available)

/-- Asks again whether the first backend with this name can be used. -/
def recheck [Host ω η] (r : Registry) (name : String) : StateM ω (Registry × Option Bool) := do
  match r.find? name with
  | none => return (r, none)
  | some place =>
    let (r, available) ← r.probe place
    return (r, some available)

/-- Whether the backend at a place can be used, from memory if it was asked before. -/
def isAvailable [Host ω η] (r : Registry) (place : Nat) : StateM ω (Registry × Bool) :=
  match (r.registrations[place]?).bind Registration.available with
  | some available => return (r, available)
  | none => r.probe place

/-- Tries the backend at a place. -/
def tryBackend [Host ω η] (r : Registry) (place : Nat) (b : Backend) (request : ExecRequest) :
    StateM ω (Registry × Except AttemptOutcome η) := do
  if r.isDisabled b.name then return (r, .error .disabled)
  else if !b.platforms.contains r.platform then return (r, .error .unavailable)
  else
    let (r, available) ← r.isAvailable place
    if !available then return (r, .error .unavailable)
    else
      match ← Host.start place request with
      | .ok handle => return (r, .ok handle)
      | .error e => return (r, .error (.failed e.message))

/-- Tries the backends at these places one after another. -/
def tryAll [Host ω η] (request : ExecRequest) :
    List Nat → Registry → List Attempt → StateM ω (Registry × Except Error (Running η))
  | [], r, attempts => return (r, .error (.backendsExhausted attempts))
  | place :: rest, r, attempts =>
    match r.registrations[place]? with
    | none => tryAll request rest r attempts
    | some e => do
      match ← r.tryBackend place e.backend request with
      | (r, .ok handle) => return (r, .ok ⟨e.backend, handle, attempts⟩)
      | (r, .error outcome) => tryAll request rest r (attempts ++ [⟨e.backend.name, outcome⟩])

/-- Starts the command on the best backend that works. -/
def select [Host ω η] (r : Registry) (request : ExecRequest) :
    StateM ω (Registry × Except Error (Running η)) :=
  tryAll request r.ranking r []

end Registry

end VirtualTerminal
