import VirtualTerminal.Text.Digit

/-!
# SessionId — names of sessions

A session is named by a number of 128 bits.  It is written as 32 hexadecimal digits in five groups
joined by hyphens, and also read without hyphens, in braces, or behind `urn:uuid:`.
-/

namespace VirtualTerminal

/-- The name of a session. -/
structure SessionId where
  value : BitVec 128
deriving DecidableEq, Repr, Inhabited

namespace SessionId

/-- The digits, without hyphens. -/
def digits (id : SessionId) : List Char := Digit.hexDigits 32 id.value.toNat

/-- The digits in groups of 8, 4, 4, 4 and 12. -/
def text (id : SessionId) : String :=
  let ds := id.digits
  String.ofList (ds.take 8 ++ '-' :: ((ds.drop 8).take 4 ++ '-' :: ((ds.drop 12).take 4 ++
    '-' :: ((ds.drop 16).take 4 ++ '-' :: ds.drop 20))))

/-- The name that 32 digits write. -/
def ofDigits? (cs : List Char) : Option SessionId := do
  let ds ← cs.mapM Digit.hex?
  if ds.length = 32 then return ⟨BitVec.ofNat 128 (Digit.number 16 ds)⟩
  else none

/-- The name that digits in five groups write. -/
def ofGroups? (cs : List Char) : Option SessionId :=
  let hyphens := [8, 13, 18, 23]
  if cs.length = 36 ∧ hyphens.all (fun i => cs[i]? == some '-') then
    ofDigits? ((cs.zipIdx.filter fun c => !hyphens.contains c.2).map Prod.fst)
  else none

/-- The name that a text writes, in any of its four forms. -/
def ofText? (text : String) : Option SessionId :=
  let cs := text.toList
  match cs.length with
  | 32 => ofDigits? cs
  | 36 => ofGroups? cs
  | 38 =>
    if cs.head? == some '\x7b' && cs.getLast? == some '\x7d' then ofGroups? (cs.drop 1).dropLast
    else none
  | 45 => if cs.take 9 == "urn:uuid:".toList then ofGroups? (cs.drop 9) else none
  | _ => none

/-- A name made of random bits: version 4, in the variant of RFC 4122. -/
def ofRandom (bits : BitVec 128) : SessionId :=
  let version := BitVec.ofNat 128 (0xf <<< 76)
  let variant := BitVec.ofNat 128 (0x3 <<< 62)
  ⟨(bits &&& ~~~(version ||| variant)) ||| BitVec.ofNat 128 ((0x4 <<< 76) + (0x2 <<< 62))⟩

end SessionId

/-- The stages of a session's life. -/
inductive SessionStatus where
  /-- A backend was selected; the task does not run yet. -/
  | starting
  | running
  /-- The process ended on its own. -/
  | exited
  /-- Reading its output failed. -/
  | failed
  /-- It was stopped on request. -/
  | terminated
deriving DecidableEq, Repr, Inhabited

namespace SessionStatus

/-- Every stage, in order. -/
def all : List SessionStatus := [.starting, .running, .exited, .failed, .terminated]

/-- The name of a stage. -/
def name : SessionStatus → String
  | .starting => "starting"
  | .running => "running"
  | .exited => "exited"
  | .failed => "failed"
  | .terminated => "terminated"

/-- The stage is final. -/
def isFinished : SessionStatus → Bool
  | .starting => false
  | .running => false
  | _ => true

end SessionStatus

end VirtualTerminal
