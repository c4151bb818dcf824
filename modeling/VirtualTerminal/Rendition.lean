import VirtualTerminal.Style

/-!
# Rendition — how graphic parameters change a style

A rendition is a list of parameter groups; the members of one group were joined by colons, the
groups by semicolons.  Groups apply from left to right.  An extended colour is written in one group
(`38:5:n`, `38:2:r:g:b`, `38:2:s:r:g:b`) or spread over several (`38`, `5`, `n` and `38`, `2`, `r`,
`g`, `b`); one that is incomplete or has a component above 255 changes nothing.
-/

namespace VirtualTerminal.Rendition

/-- A colour component or palette index, if the number is one. -/
def component? (n : Nat) : Option UInt8 :=
  if n ≤ 255 then some (UInt8.ofNat n) else none

/-- The colour with these components, if all three are components. -/
def rgb? (r g b : Nat) : Option Color := do
  let r ← component? r
  let g ← component? g
  let b ← component? b
  return .rgb ⟨r, g, b⟩

/-- The colour written by the members of one group that follow the code 38 or 48. -/
def colonColor? : List Nat → Option Color
  | 5 :: index :: _ => (component? index).map .palette
  | 2 :: _ :: r :: g :: b :: _ => rgb? r g b
  | [2, r, g, b] => rgb? r g b
  | _ => none

/-- The colour written by the groups that follow a lone code 38 or 48, and the groups behind it.
An incomplete colour takes all groups; one of an unknown kind takes only the group of its kind. -/
def semicolonColor? (rest : List (List Nat)) : Option Color × List (List Nat) :=
  match rest.map List.head? with
  | some 5 :: some index :: _ => ((component? index).map .palette, rest.drop 2)
  | some 5 :: _ => (none, [])
  | some 2 :: some r :: some g :: some b :: _ => (rgb? r g b, rest.drop 4)
  | some 2 :: _ => (none, [])
  | some _ :: _ => (none, rest.drop 1)
  | _ => (none, rest)

/-- The effect of a code other than 38 and 48; `kind` is the second member of its group. -/
def applyCode (s : Style) (code : Nat) (kind : Option Nat) : Style :=
  match code with
  | 0 => .plain
  | 1 => { s with bold := true }
  | 2 => { s with dim := true }
  | 3 => { s with italic := true }
  | 4 => { s with underline := kind != some 0 }
  | 7 => { s with inverse := true }
  | 9 => { s with strikethrough := true }
  | 21 => { s with underline := true }
  | 22 => { s with bold := false, dim := false }
  | 23 => { s with italic := false }
  | 24 => { s with underline := false }
  | 27 => { s with inverse := false }
  | 29 => { s with strikethrough := false }
  | 39 => { s with foreground := .default }
  | 49 => { s with background := .default }
  | _ =>
    if 30 ≤ code ∧ code ≤ 37 then { s with foreground := .palette (UInt8.ofNat (code - 30)) }
    else if 40 ≤ code ∧ code ≤ 47 then { s with background := .palette (UInt8.ofNat (code - 40)) }
    else if 90 ≤ code ∧ code ≤ 97 then { s with foreground := .palette (UInt8.ofNat (code - 82)) }
    else if 100 ≤ code ∧ code ≤ 107 then
      { s with background := .palette (UInt8.ofNat (code - 92)) }
    else s

/-- The style with the text colour (code 38) or the background colour (code 48) set. -/
def colored (s : Style) (code : Nat) : Option Color → Style
  | none => s
  | some c => if code = 38 then s.withForeground c else s.withBackground c

theorem length_semicolonColor? (rest : List (List Nat)) :
    (semicolonColor? rest).2.length ≤ rest.length := by
  unfold semicolonColor?
  split <;> simp

/-- The style after a non-empty list of groups. -/
def applyGroups (s : Style) : List (List Nat) → Style
  | [] => s
  | [] :: rest => applyGroups s rest
  | (code :: members) :: rest =>
    if code = 38 ∨ code = 48 then
      if members.isEmpty then
        applyGroups (colored s code (semicolonColor? rest).1) (semicolonColor? rest).2
      else
        applyGroups (colored s code (colonColor? members)) rest
    else
      applyGroups (applyCode s code members.head?) rest
termination_by groups => groups.length
decreasing_by
  · simp
  · have := length_semicolonColor? rest
    simp only [List.length_cons]
    omega
  · simp
  · simp

/-- The style after the groups; no group at all resets it. -/
def apply (s : Style) (groups : List (List Nat)) : Style :=
  if groups.isEmpty then .plain else applyGroups s groups

/-- The style after parameters that were all joined by semicolons. -/
def applyFlat (s : Style) (params : List Nat) : Style :=
  apply s (params.map fun n => [n])

end VirtualTerminal.Rendition
