/-!
# ContentGate — telling text from binary data

A chunk counts as binary when too large a share of its first bytes are NUL, or are control
characters other than tab, line feed and carriage return.  A chunk shorter than the sample is never
binary.
-/

namespace VirtualTerminal

/-- The size of the sample and the shares it may hold. -/
structure GateSettings where
  sampleSize : Nat := 1024
  nullThreshold : Float := 0.3
  controlThreshold : Float := 0.1
deriving Inhabited

namespace ContentGate

/-- Control characters and DEL, without tab, line feed and carriage return. -/
def isCounted (b : UInt8) : Bool :=
  (b < 0x20 && b != 0x09 && b != 0x0a && b != 0x0d) || b == 0x7f

/-- The share of a count in a total. -/
def share (count total : Nat) : Float := Float.ofNat count / Float.ofNat total

/-- The sample holds too many NULs or too many control characters. -/
def exceeds (g : GateSettings) (sample : List UInt8) : Bool :=
  g.nullThreshold < share (sample.count 0) sample.length ||
    g.controlThreshold < share (sample.countP isCounted) sample.length

/-- The chunk looks like binary data. -/
def isBinary (g : GateSettings) (chunk : List UInt8) : Bool :=
  if g.sampleSize = 0 ∨ chunk.length < g.sampleSize then false
  else exceeds g (chunk.take g.sampleSize)

end ContentGate

end VirtualTerminal
