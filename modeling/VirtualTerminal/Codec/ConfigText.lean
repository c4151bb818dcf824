import VirtualTerminal.Codec.Style
import VirtualTerminal.Config
import VirtualTerminal.Decimal.Nearest
import VirtualTerminal.Yaml.Node

/-!
# Codec — configuration files

Configurations as YAML texts.  A plain scalar is read as what the setting wants, so `yes` is a text
where a text is wanted; numbers are only read from plain scalars.  Nothing at all stands for a
section or list without any content.  Unknown settings are ignored, and a setting must not be given
twice.
-/

namespace VirtualTerminal.Yaml

/-- A text after a first character, if it begins with that. -/
def behind? (c : Char) (cs : List Char) : Option (List Char) :=
  match cs with
  | d :: rest => if c = d then some rest else none
  | [] => none

/-- The natural number that a plain scalar writes.  It may have a plus sign, and a base after a
zero; a decimal number must not begin with a zero. -/
def natural? (cs : List Char) : Option Nat :=
  let cs := (behind? '+' cs).getD cs
  match cs with
  | '0' :: 'x' :: ds => Digit.read? 16 ds
  | '0' :: 'o' :: ds => Digit.read? 8 ds
  | '0' :: 'b' :: ds => Digit.read? 2 ds
  | '0' :: _ :: _ => none
  | ds => Digit.read? 10 ds

/-- The double that a plain scalar writes. -/
def double? (cs : List Char) : Option Float :=
  let infinities := [".inf", ".Inf", ".INF"].map String.toList
  match cs with
  | '+' :: '+' :: _ => none
  | '+' :: '-' :: _ => none
  | _ =>
    let unsigned := (behind? '+' cs).getD cs
    if infinities.contains unsigned then some (1.0 / 0.0)
    else if ((behind? '-' cs).map infinities.contains).getD false then some (-1.0 / 0.0)
    else if [".nan", ".NaN", ".NAN"].map String.toList |>.contains cs then some (0.0 / 0.0)
    else (Decimal.Numeral.read? unsigned).bind Decimal.Numeral.nearest?

namespace Node

/-- The text of a scalar, whatever its style. -/
def text? : Node → Option String
  | .scalar text _ _ => some text
  | _ => none

/-- The text of a scalar that may write a number: a plain one, or a literal block with the tag of
the number's kind. -/
def numeral? (tag : String) : Node → Option (List Char)
  | .scalar text .plain _ => some text.toList
  | .scalar text .literal (some t) => if t == tag then some text.toList else none
  | _ => none

/-- The natural number below a bound that a value writes. -/
def natBelow? (bound : Nat) (v : Node) : Option Nat := do
  let n ← (v.numeral? "tag:yaml.org,2002:int").bind natural?
  if n < bound then return n else none

/-- The double that a value writes. -/
def float? (v : Node) : Option Float := (v.numeral? "tag:yaml.org,2002:float").bind double?

/-- The texts in a sequence. -/
def texts? : Node → Option (List String)
  | .sequence items => items.mapM text?
  | .scalar "" .plain _ => some []
  | _ => none

/-- The settings of a section. -/
abbrev Settings := List (String × Node)

/-- The settings in a mapping, of which the known ones are given once. -/
def settings? (known : List String) : Node → Option Settings
  | .mapping pairs => do
    let settings ← pairs.mapM fun p => (text? p.1).map fun name => (name, p.2)
    if known.all fun name => (settings.map Prod.fst).count name ≤ 1 then return settings else none
  | .scalar "" .plain _ => some []
  | _ => none

/-- The value of a setting, or its default. -/
def Settings.read? {α : Type} (s : Settings) (name : String) (read : Node → Option α)
    (default : α) : Option α :=
  match s.find? fun p => p.1 == name with
  | none => some default
  | some p => read p.2

end Node

end VirtualTerminal.Yaml

namespace VirtualTerminal

open Yaml (Node)

/-- The process settings that a YAML value writes. -/
def ServerSettings.ofYaml? (v : Node) : Option ServerSettings := do
  let s ← v.settings? ["max_sessions", "log_level"]
  let maxSessions ← s.read? "max_sessions" (Node.natBelow? UInt64.size) 10
  let logLevel ← s.read? "log_level" Node.text? "info"
  return { maxSessions, logLevel }

/-- The terminal settings that a YAML value writes. -/
def TerminalSettings.ofYaml? (v : Node) : Option TerminalSettings := do
  let s ← v.settings? ["default_cols", "default_rows", "term"]
  let cols ← s.read? "default_cols" (Node.natBelow? 65536) 80
  let rows ← s.read? "default_rows" (Node.natBelow? 65536) 24
  let term ← s.read? "term" Node.text? "xterm-256color"
  return { cols, rows, term }

/-- The gate settings that a YAML value writes. -/
def GateSettings.ofYaml? (v : Node) : Option GateSettings := do
  let s ← v.settings? ["sample_size", "null_threshold", "control_threshold"]
  let sampleSize ← s.read? "sample_size" (Node.natBelow? UInt64.size) 1024
  let nullThreshold ← s.read? "null_threshold" Node.float? 0.3
  let controlThreshold ← s.read? "control_threshold" Node.float? 0.1
  return { sampleSize, nullThreshold, controlThreshold }

/-- The output settings that a YAML value writes. -/
def OutputSettings.ofYaml? (v : Node) : Option OutputSettings := do
  let s ← v.settings? ["max_size", "event_queue_capacity", "read_chunk_size"]
  let maxSize ← s.read? "max_size" (Node.natBelow? UInt64.size) 1048576
  let eventQueueCapacity ← s.read? "event_queue_capacity" (Node.natBelow? UInt64.size) 64
  let readChunkSize ← s.read? "read_chunk_size" (Node.natBelow? UInt64.size) 4096
  return { maxSize, eventQueueCapacity, readChunkSize }

/-- The names of excluded backends that a YAML value writes. -/
def disabledOfYaml? (v : Node) : Option (List String) := do
  let s ← v.settings? ["disabled"]
  s.read? "disabled" Node.texts? []

/-- The configuration that a YAML value writes. -/
def Config.ofYaml? (v : Node) : Option Config := do
  let s ← v.settings? ["server", "terminal", "gate", "output", "backends"]
  let server ← s.read? "server" ServerSettings.ofYaml? {}
  let terminal ← s.read? "terminal" TerminalSettings.ofYaml? {}
  let gate ← s.read? "gate" GateSettings.ofYaml? {}
  let output ← s.read? "output" OutputSettings.ofYaml? {}
  let disabledBackends ← s.read? "backends" disabledOfYaml? []
  return { server, terminal, gate, output, disabledBackends }

/-- The configuration in a YAML text, which has to be without fault. -/
def Config.ofText (text : String) : Except Error Config :=
  match (Node.ofText? text).bind Config.ofYaml? with
  | none => .error (.config (.unreadable "the text is no configuration"))
  | some c => c.validated

end VirtualTerminal
