import VirtualTerminal.Screen.Basic

/-!
# Screen — Resize

Changing the size keeps the part of the grid that the old and the new size share.  Its new cells
are unwritten, and a wide glyph that the new right edge would cut becomes a space.
-/

namespace VirtualTerminal.Screen

/-- The grid in another size. -/
def resizeGrid (s : Screen) (d : Dimensions) : List Line :=
  (s.lines.take d.rows).map (fun line => Line.resize line d.cols) ++
    List.replicate (d.rows - s.lines.length) (Line.empty d.cols)

/-- The screen in another size; an empty size is refused. -/
def resize? (s : Screen) (d : Dimensions) : Option Screen :=
  if d.isEmpty then none
  else if d = s.dims then some s
  else
    some { s with
      dims := d
      lines := s.resizeGrid d
      cursor := d.clamp s.cursor
      margins := ⟨0, d.rows - 1⟩
      pendingWrap := false }

end VirtualTerminal.Screen
