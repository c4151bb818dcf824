import VirtualTerminal.Geometry
import VirtualTerminal.Token

/-!
# Event — what a session tells its subscribers

Every change of the screen is told as a complete rendering, so a later event makes up for a lost
one.  A session ends with an event that says how, unless it was stopped on request.
-/

namespace VirtualTerminal

/-- A complete rendering of the screen. -/
structure TerminalOutput where
  /-- The tokens of each row. -/
  tokens : List (List Token)
  /-- The text of the screen. -/
  content : String
  /-- Some of the session's text was ever dropped. -/
  truncated : Bool
  /-- The size of the screen. -/
  size : Dimensions
  /-- The backend that runs the command. -/
  backendName : String
  /-- Seconds since 1970. -/
  timestamp : Float
deriving Inhabited

/-- What a session tells. -/
inductive Event where
  | output (rendering : TerminalOutput)
  /-- A chunk was taken for binary data and not shown. -/
  | binary (message : String) (size : Nat)
  | title (text : String)
  /-- The process ended, with its exit code if that is known. -/
  | exited (code : Option Int)
  /-- Reading the output failed. -/
  | failed (reason : String)
deriving Inhabited

namespace Event

/-- The event for a chunk of this size that is not shown. -/
def binaryChunk (size : Nat) : Event :=
  .binary s!"Binary content detected ({size} bytes), rendering skipped" size

/-- The name of the event's kind. -/
def kind : Event → String
  | .output _ => "terminal_output"
  | .binary _ _ => "binary_content"
  | .title _ => "title_changed"
  | .exited _ => "exited"
  | .failed _ => "failed"

end Event

end VirtualTerminal
