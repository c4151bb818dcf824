import VirtualTerminal.Codec.Event
import VirtualTerminal.EventQueue

/-!
# Streaming — events as lines of text

A stream writes every event that reaches a receiver as one line, until the queue is closed, and tells
how the session ended: by the last event that says so.  A stream without such an event was cut off.
-/

namespace VirtualTerminal

/-- How a stream of events ended. -/
inductive StreamEnd where
  /-- The process ended, with its exit code if that is known. -/
  | exited (code : Option Int)
  /-- Reading the output failed. -/
  | failed (reason : String)
  /-- No event told of an end. -/
  | terminated
deriving DecidableEq, Repr, Inhabited

/-- The end that an event tells of. -/
def Event.ending? : Event → Option StreamEnd
  | .exited code => some (.exited code)
  | .failed reason => some (.failed reason)
  | _ => none

namespace StreamEnd

/-- The exit code to report.  A failure counts as 1, and so does an unknown exit code; a stream that
was cut off counts as interrupted. -/
def exitCode : StreamEnd → Int
  | .exited (some code) => code
  | .exited none => 1
  | .failed _ => 1
  | .terminated => 130

/-- The end that a list of events tells of. -/
def ofEvents (events : List Event) : StreamEnd :=
  (events.filterMap Event.ending?).getLast?.getD .terminated

end StreamEnd

/-- What streaming to the end of a queue writes and tells. -/
structure Streamed where
  text : String
  ending : StreamEnd
  /-- The receiver afterwards. -/
  receiver : Receiver
deriving Inhabited

/-- The lines of events, each with its line feed. -/
def Event.lines (events : List Event) : String := String.join (events.map fun e => e.line ++ "\n")

/-- Streams everything that a closed queue still holds for a receiver. -/
def EventQueue.stream (q : EventQueue Event) (r : Receiver) : Streamed :=
  let (r, events) := q.takeAll r
  { text := Event.lines events, ending := .ofEvents events, receiver := r }

end VirtualTerminal
