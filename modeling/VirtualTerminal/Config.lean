import VirtualTerminal.ContentGate
import VirtualTerminal.Error

/-!
# Config — settings

The settings of the program, their defaults, and what a usable configuration has to satisfy: every
count and size is positive, and every threshold is a share above zero.
-/

namespace VirtualTerminal

/-- Settings of the process. -/
structure ServerSettings where
  /-- The most sessions at a time. -/
  maxSessions : Nat := 10
  logLevel : String := "info"
deriving DecidableEq, Repr, Inhabited

/-- Settings of terminals. -/
structure TerminalSettings where
  cols : Nat := 80
  rows : Nat := 24
  /-- The terminal's type, as commands are told. -/
  term : String := "xterm-256color"
deriving DecidableEq, Repr, Inhabited

/-- The size of new terminals. -/
def TerminalSettings.dimensions (t : TerminalSettings) : Dimensions := ⟨t.rows, t.cols⟩

/-- Settings of what sessions keep. -/
structure OutputSettings where
  /-- The most bytes of text a session remembers. -/
  maxSize : Nat := 1048576
  /-- The events kept for a slow subscriber. -/
  eventQueueCapacity : Nat := 64
  /-- The most bytes of one read. -/
  readChunkSize : Nat := 4096
deriving DecidableEq, Repr, Inhabited

/-- All settings. -/
structure Config where
  server : ServerSettings := {}
  terminal : TerminalSettings := {}
  gate : GateSettings := {}
  output : OutputSettings := {}
  /-- The names of the backends that are not to be used. -/
  disabledBackends : List String := []
deriving Inhabited

namespace Config

/-- The defaults. -/
def standard : Config := {}

/-- A share above zero. -/
def isThreshold (x : Float) : Bool := 0.0 < x && x ≤ 1.0

/-- The first fault of a configuration. -/
def fault? (c : Config) : Option ConfigFault :=
  if c.server.maxSessions = 0 then some .noSessions
  else if c.terminal.dimensions.isEmpty then some .emptyTerminal
  else if c.gate.sampleSize = 0 then some .emptySample
  else if !isThreshold c.gate.nullThreshold then some .nullThreshold
  else if !isThreshold c.gate.controlThreshold then some .controlThreshold
  else if c.output.maxSize = 0 then some .noOutput
  else if c.output.eventQueueCapacity = 0 then some .noQueue
  else if c.output.readChunkSize = 0 then some .emptyChunk
  else none

/-- The configuration, if it has no fault. -/
def validated (c : Config) : Except Error Config :=
  match c.fault? with
  | some fault => .error (.config fault)
  | none => .ok c

end Config

end VirtualTerminal
