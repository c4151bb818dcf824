import VirtualTerminal.Text.Lines
import VirtualTerminal.Text.Utf8

/-!
# Shell — Filter

Programs that read their whole input before they write: counting, sorting, replacing characters, and
the last lines.  They work on bytes.
-/

namespace VirtualTerminal.Shell

/-- A program that reads its whole input before it writes. -/
inductive Filter where
  /-- Writes the numbers of lines, of words, and of bytes, as far as wanted. -/
  | count (lines words bytes : Bool)
  | sort (descending unique : Bool)
  /-- Puts the bytes of the second list in the place of those of the first one. -/
  | replace (these those : List UInt8)
  | delete (these : List UInt8)
  /-- Keeps the last lines. -/
  | last (n : Nat)
deriving DecidableEq, Repr, Inhabited

namespace Filter

/-- The bytes of a text in ASCII. -/
def ascii (text : String) : List UInt8 := Utf8.encode text.toList

/-- Bytes between which words stand. -/
def isBlank (b : UInt8) : Bool := b = 32 || (9 ≤ b && b ≤ 13)

/-- The number of words. -/
def wordCount (bs : List UInt8) : Nat := ((bs.splitBy fun a b => isBlank a == isBlank b).filter
  fun group => !(group.head?.any isBlank)).length

/-- The lines, each with its line feed; the last one may lack it. -/
def lines (bs : List UInt8) : List (List UInt8) :=
  let parts := (bs.splitOn 10)
  (parts.dropLast.map fun l => l ++ [10]) ++
    (match parts.getLast? with
      | some [] => []
      | some l => [l]
      | none => [])

/-- A line with a line feed at its end. -/
def complete (l : List UInt8) : List UInt8 := if l.getLast? = some 10 then l else l ++ [10]

/-- The order of lines by their bytes. -/
def before (a b : List UInt8) : Bool := decide (¬ b < a)

/-- Drops lines that repeat the one before. -/
def distinct : List (List UInt8) → List (List UInt8)
  | a :: b :: rest => if a = b then distinct (b :: rest) else a :: distinct (b :: rest)
  | ls => ls

/-- The byte that stands for another one. -/
def replacement (these those : List UInt8) (b : UInt8) : UInt8 :=
  match these.idxOf? b with
  | some i => (those[i]?).getD (those.getLast?.getD b)
  | none => b

/-- What the program writes about its input. -/
def apply (f : Filter) (bs : List UInt8) : List UInt8 :=
  match f with
  | .count ls ws cs =>
    let numbers :=
      (if ls then [bs.count 10] else []) ++ (if ws then [wordCount bs] else []) ++
        (if cs then [bs.length] else [])
    let texts := numbers.map fun n => toString n
    let padded := if texts.length ≤ 1 then texts else texts.map fun t => String.ofList (t.toList.leftpad 7 ' ')
    ascii (" ".intercalate padded ++ "\n")
  | .sort descending unique =>
    let ls := ((lines bs).map complete).mergeSort before
    let ls := if unique then distinct ls else ls
    (if descending then ls.reverse else ls).flatten
  | .replace these those => bs.map (replacement these those)
  | .delete these => bs.filter fun b => !these.contains b
  | .last n =>
    let ls := lines bs
    (ls.drop (ls.length - n)).flatten

/-- The bytes of a list of characters, in which a hyphen stands for those between. -/
def characters : List UInt8 → List UInt8
  | a :: 45 :: b :: rest =>
    ((List.range (b.toNat + 1 - a.toNat)).map fun i => a + UInt8.ofNat i) ++ characters rest
  | 92 :: 110 :: rest => 10 :: characters rest
  | 92 :: 116 :: rest => 9 :: characters rest
  | 92 :: 114 :: rest => 13 :: characters rest
  | a :: rest => a :: characters rest
  | [] => []

/-- The program with these arguments, if it reads its input to the end. -/
def ofArguments? (program : String) (args : List String) : Option Filter :=
  match program, args with
  | "wc", [] => some (.count true true true)
  | "wc", ["-l"] => some (.count true false false)
  | "wc", ["-w"] => some (.count false true false)
  | "wc", ["-c"] => some (.count false false true)
  | "sort", [] => some (.sort false false)
  | "sort", ["-r"] => some (.sort true false)
  | "sort", ["-u"] => some (.sort false true)
  | "tr", ["-d", a] => some (.delete (characters (ascii a)))
  | "tr", [a, b] => some (.replace (characters (ascii a)) (characters (ascii b)))
  | "tail", [] => some (.last 10)
  | "tail", ["-n", n] => n.toNat?.map .last
  | _, _ => none

end Filter

end VirtualTerminal.Shell
