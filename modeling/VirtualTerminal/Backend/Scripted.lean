import VirtualTerminal.Backend.Basic

/-!
# Backend — scripted commands

A host whose commands do nothing but follow a script: what each request answers is fixed in advance,
and every request is logged.  It shows what a session asks of its command, and in which order.
-/

namespace VirtualTerminal

/-- What the commands of a backend do. -/
structure Script where
  /-- The name of the backend. -/
  backendName : String
  available : Bool := true
  /-- Starting fails. -/
  startFault : Option Error := none
  /-- Taking the reader fails. -/
  readerFault : Option Error := none
  /-- Every write fails. -/
  writeFault : Option Error := none
  /-- Every change of size fails. -/
  resizeFault : Option Error := none
  /-- Every attempt to stop the command fails. -/
  terminateFault : Option Error := none
  /-- What asking for the exit code answers, one item a time; the last one stays. -/
  exits : List (Except Error (Option Int)) := []

/-- A request to a command. -/
inductive Request where
  | start (backend : String) (request : ExecRequest)
  | write (data : List UInt8)
  | resize (size : Dimensions)
  | tryWait
  | terminate
deriving DecidableEq, Repr, Inhabited

/-- A command that follows a script. -/
structure ScriptedCommand where
  script : Script
  /-- The requests so far, in order. -/
  log : List Request

/-- A host of scripted commands. -/
structure Scripted where
  /-- The scripts of the backends, in the order of registration. -/
  scripts : List Script := []
  /-- The backends that were probed, by their place, in order. -/
  probed : List Nat := []
  /-- The commands started, in order. -/
  commands : List ScriptedCommand := []
  /-- The session names given out. -/
  issued : Nat := 0

namespace Scripted

/-- How often the backend at a place was probed. -/
def probes (h : Scripted) (place : Nat) : Nat := h.probed.count place

/-- Lets the backends of a name be usable or not. -/
def setAvailable (h : Scripted) (name : String) (available : Bool) : Scripted :=
  { h with scripts := h.scripts.map fun s =>
      if s.backendName = name then { s with available := available } else s }

/-- The requests to a command. -/
def log (h : Scripted) (handle : Nat) : Option (List Request) :=
  h.commands[handle]?.map ScriptedCommand.log

/-- Logs a request to a command. -/
def note (h : Scripted) (handle : Nat) (r : Request) : Scripted :=
  { h with commands := h.commands.modify handle fun c => { c with log := c.log ++ [r] } }

/-- The part of a command's script that decides about a request. -/
def fault? (h : Scripted) (handle : Nat) (part : Script → Option Error) : Option Error :=
  h.commands[handle]?.bind fun c => part c.script

/-- The next item of a list whose last item stays, and the list afterwards. -/
def advance {α : Type} (default : α) : List α → α × List α
  | [] => (default, [])
  | [a] => (a, [a])
  | a :: rest => (a, rest)

/-- Starts the command of a backend that has a script. -/
def start (h : Scripted) (place : Nat) (request : ExecRequest) : Except Error Nat × Scripted :=
  match h.scripts[place]? with
  | none => (.error (.pty "no script"), h)
  | some script =>
    match script.startFault with
    | some e => (.error e, h)
    | none =>
      (.ok h.commands.length,
        { h with commands := h.commands ++ [⟨script, [.start script.backendName request]⟩] })

/-- A request that answers nothing: it is logged, and its part of the script may let it fail. -/
def ask (h : Scripted) (handle : Nat) (r : Request) (part : Script → Option Error) :
    Except Error Unit × Scripted :=
  match h.fault? handle part with
  | some e => (.error e, h.note handle r)
  | none => (.ok (), h.note handle r)

/-- Asks for the exit code of a command. -/
def poll (h : Scripted) (handle : Nat) : Except Error (Option Int) × Scripted :=
  let h := h.note handle .tryWait
  match h.commands[handle]? with
  | none => (.ok none, h)
  | some c =>
    let (answer, exits) := advance (.ok (some 0)) c.script.exits
    let c := { c with script := { c.script with exits := exits } }
    (answer, { h with commands := h.commands.set handle c })

/-- The next session name: a version 4 name that counts up. -/
def issue (h : Scripted) : SessionId × Scripted :=
  (.ofRandom (BitVec.ofNat 128 (h.issued + 1)), { h with issued := h.issued + 1 })

instance : Host Scripted Nat where
  probe place h :=
    ((h.scripts[place]?).any Script.available, { h with probed := h.probed ++ [place] })
  start place request h := h.start place request
  takeReader handle h :=
    match h.fault? handle Script.readerFault with
    | some e => (.error e, h)
    | none => (.ok (), h)
  write handle data h :=
    match h.ask handle (.write data) Script.writeFault with
    | (.error e, h) => (.error e, h)
    | (.ok (), h) => (.ok data.length, h)
  resize handle size h := h.ask handle (.resize size) Script.resizeFault
  tryWait handle h := h.poll handle
  terminate handle h := h.ask handle .terminate Script.terminateFault
  now h := (0.0, h)
  freshId h := h.issue

end Scripted

end VirtualTerminal
