import VirtualTerminal.Color

/-!
# Style — the look of a cell

A style is a set of attributes and a pair of colours.  Two styles are equal when all eight parts
are, so the palette entry 0 differs from the default colour even where both are shown black.
-/

namespace VirtualTerminal

/-- Attributes and colours of text. -/
structure Style where
  bold : Bool := false
  italic : Bool := false
  underline : Bool := false
  dim : Bool := false
  inverse : Bool := false
  strikethrough : Bool := false
  foreground : Color := .default
  background : Color := .default
deriving DecidableEq, Repr, Inhabited

namespace Style

/-- No attribute set and both colours default. -/
def plain : Style := {}

/-- Holds of the plain style alone. -/
def isPlain (s : Style) : Bool := s == plain

/-- The style with bold set. -/
def withBold (s : Style) : Style := { s with bold := true }

/-- The style with another text colour. -/
def withForeground (s : Style) (c : Color) : Style := { s with foreground := c }

/-- The style with another background colour. -/
def withBackground (s : Style) (c : Color) : Style := { s with background := c }

end Style

end VirtualTerminal
