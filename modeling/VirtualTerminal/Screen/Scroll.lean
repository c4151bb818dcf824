import VirtualTerminal.Screen.Basic

/-!
# Screen — Scroll

Shifting a range of lines.  Lines pushed out of the range are lost, and unwritten lines take the
places that become free; the lines outside the range stay where they are.
-/

namespace VirtualTerminal

/-- Moves the lines from `first` to `last` up by `n`. -/
def shiftUp (lines : List Line) (first last n : Nat) (blank : Line) : List Line :=
  let n := min n (last + 1 - first)
  let range := (lines.drop first).take (last + 1 - first)
  lines.take first ++ (range.drop n ++ List.replicate n blank) ++ lines.drop (last + 1)

/-- Moves the lines from `first` to `last` down by `n`. -/
def shiftDown (lines : List Line) (first last n : Nat) (blank : Line) : List Line :=
  let n := min n (last + 1 - first)
  let range := (lines.drop first).take (last + 1 - first)
  lines.take first ++ (List.replicate n blank ++ range.take (last + 1 - first - n)) ++
    lines.drop (last + 1)

namespace Screen

/-- Moves the lines from `first` to `last` up by `n`. -/
def shiftLinesUp (s : Screen) (first last n : Nat) : Screen :=
  { s with lines := shiftUp s.lines first last n (Line.empty s.dims.cols) }

/-- Moves the lines from `first` to `last` down by `n`. -/
def shiftLinesDown (s : Screen) (first last n : Nat) : Screen :=
  { s with lines := shiftDown s.lines first last n (Line.empty s.dims.cols) }

/-- Moves the lines of the scroll region up. -/
def scrollUp (s : Screen) (n : Nat) : Screen := s.shiftLinesUp s.margins.top s.margins.bottom n

/-- Moves the lines of the scroll region down. -/
def scrollDown (s : Screen) (n : Nat) : Screen := s.shiftLinesDown s.margins.top s.margins.bottom n

end Screen

end VirtualTerminal
