import VirtualTerminal.Screen.Basic

/-!
# Token — styled text

A token is a run of text in one style.  A line is shown as its maximal runs of cells that agree in
style, link and mark, up to the last cell that shows something; spacers add no text.
-/

namespace VirtualTerminal

/-- A run of text with its look, as it is handed to a reader of events. -/
structure Token where
  text : String := ""
  bold : Bool := false
  italic : Bool := false
  underline : Bool := false
  dim : Bool := false
  inverse : Bool := false
  strikethrough : Bool := false
  /-- The text colour as `#rrggbb`, empty for the default. -/
  fg : String := ""
  /-- The background colour as `#rrggbb`, empty for the default. -/
  bg : String := ""
  link : Option String := none
  code : Option String := none
deriving DecidableEq, Repr, Inhabited

namespace Token

/-- A token without text that has the look of a cell. -/
def ofCell (c : Cell) : Token :=
  { bold := c.style.bold
    italic := c.style.italic
    underline := c.style.underline
    dim := c.style.dim
    inverse := c.style.inverse
    strikethrough := c.style.strikethrough
    fg := c.style.foreground.hex
    bg := c.style.background.hex
    link := c.link
    code := c.mark.map BlockMark.name }

/-- An unstyled token. -/
def plain (text : String) : Token := { text := text }

/-- The token has no attribute, no colour, no link and no mark. -/
def isPlain (t : Token) : Bool := { t with text := "" } == ({} : Token)

end Token

namespace Line

/-- Splits cells into maximal runs that agree in style, link and mark. -/
def runs : List Cell → List (List Cell)
  | [] => []
  | c :: rest =>
    match runs rest with
    | (d :: run) :: others =>
      if c.sameRun d then (c :: d :: run) :: others else [c] :: (d :: run) :: others
    | others => [c] :: others

/-- The token of a run. -/
def runToken : List Cell → Token
  | [] => {}
  | c :: rest =>
    { Token.ofCell c with text := String.ofList ((c :: rest).map Cell.character) }

/-- The tokens of a line. -/
def tokens (l : Line) : List Token := (runs (shown l)).map runToken

end Line

/-- The tokens of all rows. -/
def Screen.tokens (s : Screen) : List (List Token) := s.lines.map Line.tokens

end VirtualTerminal
