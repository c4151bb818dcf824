import VirtualTerminal.Codec.Style
import VirtualTerminal.Config

/-!
# Codec — Config

Configurations as JSON values.  Every setting may be left out, and so may every section.
-/

namespace VirtualTerminal

/-- The process settings that a JSON value writes. -/
def ServerSettings.ofJson? (j : Json) : Option ServerSettings := do
  let ms ← j.record? ["max_sessions", "log_level"]
  let maxSessions ← ms.default? "max_sessions" Json.size? 10
  let logLevel ← ms.default? "log_level" Json.string? "info"
  return { maxSessions, logLevel }

/-- The terminal settings that a JSON value writes. -/
def TerminalSettings.ofJson? (j : Json) : Option TerminalSettings := do
  let ms ← j.record? ["default_cols", "default_rows", "term"]
  let cols ← ms.default? "default_cols" Json.word? 80
  let rows ← ms.default? "default_rows" Json.word? 24
  let term ← ms.default? "term" Json.string? "xterm-256color"
  return { cols, rows, term }

/-- The gate settings that a JSON value writes. -/
def GateSettings.ofJson? (j : Json) : Option GateSettings := do
  let ms ← j.record? ["sample_size", "null_threshold", "control_threshold"]
  let sampleSize ← ms.default? "sample_size" Json.size? 1024
  let nullThreshold ← ms.default? "null_threshold" Json.float? 0.3
  let controlThreshold ← ms.default? "control_threshold" Json.float? 0.1
  return { sampleSize, nullThreshold, controlThreshold }

/-- The output settings that a JSON value writes. -/
def OutputSettings.ofJson? (j : Json) : Option OutputSettings := do
  let ms ← j.record? ["max_size", "event_queue_capacity", "read_chunk_size"]
  let maxSize ← ms.default? "max_size" Json.size? 1048576
  let eventQueueCapacity ← ms.default? "event_queue_capacity" Json.size? 64
  let readChunkSize ← ms.default? "read_chunk_size" Json.size? 4096
  return { maxSize, eventQueueCapacity, readChunkSize }

/-- The names of excluded backends that a JSON value writes. -/
def disabledOfJson? (j : Json) : Option (List String) := do
  let ms ← j.record? ["disabled"]
  ms.default? "disabled" (fun j => j.array?.bind fun items => items.mapM Json.string?) []

/-- The configuration that a JSON value writes. -/
def Config.ofJson? (j : Json) : Option Config := do
  let ms ← j.record? ["server", "terminal", "gate", "output", "backends"]
  let server ← ms.default? "server" ServerSettings.ofJson? {}
  let terminal ← ms.default? "terminal" TerminalSettings.ofJson? {}
  let gate ← ms.default? "gate" GateSettings.ofJson? {}
  let output ← ms.default? "output" OutputSettings.ofJson? {}
  let disabledBackends ← ms.default? "backends" disabledOfJson? []
  return { server, terminal, gate, output, disabledBackends }

end VirtualTerminal
