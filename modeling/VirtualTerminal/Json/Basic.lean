import VirtualTerminal.Json.Number

/-!
# Json — values

JSON values.  The members of an object are kept in their order; putting a member whose name is
present replaces its value.
-/

namespace VirtualTerminal

/-- A JSON value. -/
inductive Json where
  | null
  | bool (b : Bool)
  | int (n : Int)
  | float (x : Float)
  | string (s : String)
  | array (items : List Json)
  | object (members : List (String × Json))
deriving Inhabited

namespace Json

/-- The members of an object. -/
abbrev Members := List (String × Json)

namespace Members

/-- The value of the first member with this name. -/
def get? (ms : Members) (name : String) : Option Json :=
  (ms.find? fun m => m.1 == name).map Prod.snd

/-- The members with other names. -/
def erase (ms : Members) (name : String) : Members := ms.filter fun m => m.1 != name

/-- Replaces the value of the members with this name, or appends one. -/
def put (ms : Members) (name : String) (value : Json) : Members :=
  if ms.any fun m => m.1 == name then
    ms.map fun m => if m.1 == name then (name, value) else m
  else ms ++ [(name, value)]

/-- What a name gives is the value of a member with this name. -/
theorem mem_of_get? {ms : Members} {name : String} {value : Json} (h : ms.get? name = some value) :
    (name, value) ∈ ms := by
  obtain ⟨m, hfind, rfl⟩ := Option.map_eq_some_iff.mp h
  have hname : (m.1 == name) = true :=
    List.find?_some (p := fun m : String × Json => m.1 == name) hfind
  obtain rfl := beq_iff_eq.mp hname
  exact List.mem_of_find?_eq_some hfind

end Members

/-- A string, if the value is one. -/
def string? : Json → Option String
  | .string s => some s
  | _ => none

/-- A truth value, if the value is one. -/
def bool? : Json → Option Bool
  | .bool b => some b
  | _ => none

/-- An integer in a range, if the value is one. -/
def intIn? (low high : Int) : Json → Option Int
  | .int n => if low ≤ n ∧ n ≤ high then some n else none
  | _ => none

/-- A natural number below a bound, if the value is one. -/
def natBelow? (bound : Nat) : Json → Option Nat
  | .int n => if 0 ≤ n ∧ n < bound then some n.toNat else none
  | _ => none

/-- A double, if the value is a number. -/
def float? : Json → Option Float
  | .int n =>
    some (if n < 0 then -(UInt64.toFloat (UInt64.ofNat n.natAbs))
      else UInt64.toFloat (UInt64.ofNat n.natAbs))
  | .float x => some x
  | _ => none

/-- The items, if the value is an array. -/
def array? : Json → Option (List Json)
  | .array items => some items
  | _ => none

/-- The members, if the value is an object. -/
def object? : Json → Option Members
  | .object members => some members
  | _ => none

/-- The value of a member, if the value is an object that has it. -/
def get? (j : Json) (name : String) : Option Json := j.object?.bind fun ms => ms.get? name

end Json

end VirtualTerminal
