/-!
# Shell — signals

The signals that a command can get, with their names and numbers.
-/

namespace VirtualTerminal.Shell

/-- A signal. -/
inductive Signal where
  /-- The terminal is gone. -/
  | hangUp
  /-- The interrupt key. -/
  | interrupt
  /-- The quit key. -/
  | quit
  | abort
  | kill
  | user1
  | segmentation
  | user2
  | pipe
  | alarm
  | terminate
  /-- The terminal's size changed. -/
  | resized
deriving DecidableEq, Repr, Inhabited

namespace Signal

/-- Every signal. -/
def all : List Signal :=
  [.hangUp, .interrupt, .quit, .abort, .kill, .user1, .segmentation, .user2, .pipe, .alarm,
   .terminate, .resized]

/-- The number of a signal. -/
def number : Signal → Nat
  | .hangUp => 1
  | .interrupt => 2
  | .quit => 3
  | .abort => 6
  | .kill => 9
  | .user1 => 10
  | .segmentation => 11
  | .user2 => 12
  | .pipe => 13
  | .alarm => 14
  | .terminate => 15
  | .resized => 28

/-- The name of a signal. -/
def name : Signal → String
  | .hangUp => "HUP"
  | .interrupt => "INT"
  | .quit => "QUIT"
  | .abort => "ABRT"
  | .kill => "KILL"
  | .user1 => "USR1"
  | .segmentation => "SEGV"
  | .user2 => "USR2"
  | .pipe => "PIPE"
  | .alarm => "ALRM"
  | .terminate => "TERM"
  | .resized => "WINCH"

/-- What a shell says about a command that died of the signal, if anything. -/
def obituary? : Signal → Option String
  | .hangUp => some "Hangup"
  | .interrupt => none
  | .quit => some "Quit"
  | .abort => some "Aborted"
  | .kill => some "Killed"
  | .user1 => some "User defined signal 1"
  | .segmentation => some "Segmentation fault"
  | .user2 => some "User defined signal 2"
  | .pipe => none
  | .alarm => some "Alarm clock"
  | .terminate => some "Terminated"
  | .resized => none

/-- The signal with this name, which may begin with `SIG`, or with this number. -/
def ofText? (text : String) : Option Signal :=
  all.find? fun s => text == s.name || text == "SIG" ++ s.name || text == toString s.number

/-- A command that does nothing about the signal dies of it. -/
def isFatal : Signal → Bool
  | .resized => false
  | _ => true

end Signal

/-- How a command ended. -/
inductive Ending where
  | exited (code : Nat)
  | killed (signal : Signal)
deriving DecidableEq, Repr, Inhabited

end VirtualTerminal.Shell
