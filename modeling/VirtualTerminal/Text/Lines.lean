/-!
# Text — Lines

Cutting a text into lines, and finding one list within another.
-/

namespace VirtualTerminal

/-- Drops a carriage return at the end. -/
def dropReturn (line : List Char) : List Char :=
  if line.getLast? = some '\r' then line.dropLast else line

/-- The lines of a text.  A line ends with a line feed, before which a carriage return does not
count; the last line may lack its line feed. -/
def linesOf (text : List Char) : List (List Char) :=
  let parts := text.splitOn '\n'
  if parts.getLast? = some [] then parts.dropLast.map dropReturn
  else (parts.dropLast.map dropReturn) ++ parts.getLast?.toList

/-- The place at which a list first occurs in another. -/
def placeOf? {α : Type} [BEq α] (needle : List α) : List α → Option Nat
  | [] => if needle.isEmpty then some 0 else none
  | a :: rest =>
    if needle.isPrefixOf (a :: rest) then some 0 else (placeOf? needle rest).map (· + 1)

end VirtualTerminal
