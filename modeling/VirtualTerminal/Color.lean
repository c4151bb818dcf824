import VirtualTerminal.Text.Digit

/-!
# Color — colours and the 256-entry palette

A colour is the terminal's default, an entry of the fixed palette, or a triple of components.
Entries 0 to 15 of the palette are the named colours, 16 to 231 a cube of six levels an axis, and
232 to 255 a ramp of greys.
-/

namespace VirtualTerminal

/-- Red, green and blue components. -/
structure Rgb where
  r : UInt8
  g : UInt8
  b : UInt8
deriving DecidableEq, Repr, Inhabited

namespace Palette

/-- The standard colours and their bright variants, entries 0 to 15. -/
def named : List Rgb :=
  [⟨0x00, 0x00, 0x00⟩, ⟨0x80, 0x00, 0x00⟩, ⟨0x00, 0x80, 0x00⟩, ⟨0x80, 0x80, 0x00⟩,
   ⟨0x00, 0x00, 0x80⟩, ⟨0x80, 0x00, 0x80⟩, ⟨0x00, 0x80, 0x80⟩, ⟨0xc0, 0xc0, 0xc0⟩,
   ⟨0x80, 0x80, 0x80⟩, ⟨0xff, 0x00, 0x00⟩, ⟨0x00, 0xff, 0x00⟩, ⟨0xff, 0xff, 0x00⟩,
   ⟨0x00, 0x00, 0xff⟩, ⟨0xff, 0x00, 0xff⟩, ⟨0x00, 0xff, 0xff⟩, ⟨0xff, 0xff, 0xff⟩]

/-- The intensity of a step of one axis of the colour cube, for steps 0 to 5. -/
def cubeLevel (step : UInt8) : UInt8 :=
  if step = 0 then 0 else 55 + 40 * step

/-- The components of a palette entry. -/
def rgb (index : UInt8) : Rgb :=
  if index < 16 then
    named.getD index.toNat ⟨0, 0, 0⟩
  else if index < 232 then
    let n := index - 16
    ⟨cubeLevel (n / 36), cubeLevel (n / 6 % 6), cubeLevel (n % 6)⟩
  else
    let level := 8 + 10 * (index - 232)
    ⟨level, level, level⟩

end Palette

/-- The form `#rrggbb`. -/
def Rgb.hex (c : Rgb) : String :=
  String.ofList ('#' :: Digit.hexBytes [c.r, c.g, c.b])

/-- A colour of text or background. -/
inductive Color where
  | default
  | palette (index : UInt8)
  | rgb (components : Rgb)
deriving DecidableEq, Repr, Inhabited

namespace Color

/-- The form `#rrggbb`; the default colour has none and is written as the empty text. -/
def hex : Color → String
  | .default => ""
  | .palette i => (Palette.rgb i).hex
  | .rgb c => c.hex

/-- Holds of the terminal's default colour alone. -/
def isDefault : Color → Bool
  | .default => true
  | _ => false

end Color

end VirtualTerminal
