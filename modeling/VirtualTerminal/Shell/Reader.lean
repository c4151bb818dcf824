import VirtualTerminal.Shell.Syntax
import VirtualTerminal.Text.Digit

/-!
# Shell — Reader

Reading the text of a script.  The text is cut into words and operators; reserved words count only
where a command may begin.
-/

namespace VirtualTerminal.Shell

/-! ### Words and operators -/

/-- A part of a script. -/
inductive Lexeme where
  | word (w : Word)
  /-- A separator of commands, a parenthesis, or a line break. -/
  | operator (text : String)
  /-- A redirection's operator with its descriptor. -/
  | redirection (text : String) (descriptor : Nat)
deriving DecidableEq, Repr, Inhabited

/-- A character that ends a word. -/
def endsPlain (c : Char) : Bool := " \t\n;&|<>()".toList.contains c

/-- A character of a name. -/
def isNameChar (c : Char) : Bool := c.isAlphanum || c == '_'

/-- The parameters whose name is a single character. -/
def isSpecial (c : Char) : Bool := c.isDigit || "@*#?$!".toList.contains c

/-- Reads up to two closing parentheses in a row. -/
def arithmetic? : List Char → Option (List Char × List Char)
  | ')' :: ')' :: rest => some ([], rest)
  | c :: rest => (arithmetic? rest).map fun (text, rest) => (c :: text, rest)
  | [] => none

/-- How a character of a script is quoted. -/
inductive Quoting where
  | unquoted
  | single
  | double
deriving DecidableEq, Repr, Inhabited

/-- How the characters behind this one are quoted. -/
def Quoting.after (q : Quoting) (c : Char) : Quoting :=
  match q, c with
  | .unquoted, '\'' => .single
  | .unquoted, '"' => .double
  | .single, '\'' => .unquoted
  | .double, '"' => .unquoted
  | q, _ => q

/-- Reads up to the parenthesis that closes one more than are open. -/
def enclosed? (depth : Nat) (q : Quoting) : List Char → Option (List Char × List Char)
  | [] => none
  | [c] => if c == ')' && depth == 0 && q == .unquoted then some ([], []) else none
  | c :: d :: rest =>
    if c == '\\' && q != .single then
      (enclosed? depth q rest).map fun (text, rest) => (c :: d :: text, rest)
    else if q == .unquoted && c == ')' && depth == 0 then some ([], d :: rest)
    else
      let depth :=
        if q != .unquoted then depth else if c == '(' then depth + 1
        else if c == ')' then depth - 1 else depth
      (enclosed? depth (q.after c) (d :: rest)).map fun (text, rest) => (c :: text, rest)

/-- Reads up to a backquote. -/
def backquoted? : List Char → Option (List Char × List Char)
  | [] => none
  | '\x60' :: rest => some ([], rest)
  | '\\' :: c :: rest =>
    (backquoted? rest).map fun (text, rest) =>
      (if "$\x60\\".toList.contains c then (c :: text, rest) else ('\\' :: c :: text, rest))
  | c :: rest => (backquoted? rest).map fun (text, rest) => (c :: text, rest)

/-- What the characters behind the name of a parameter in braces ask for. -/
def treatment? : List Char → Option Treatment
  | [] => some .plain
  | ':' :: '-' :: text => some (.fallback true text)
  | '-' :: text => some (.fallback false text)
  | ':' :: '+' :: text => some (.alternative true text)
  | '+' :: text => some (.alternative false text)
  | '#' :: '#' :: pattern => some (.withoutFront true pattern)
  | '#' :: pattern => some (.withoutFront false pattern)
  | '%' :: '%' :: pattern => some (.withoutBack true pattern)
  | '%' :: pattern => some (.withoutBack false pattern)
  | _ => none

/-- The name of a parameter at the beginning. -/
def parameterName (cs : List Char) : List Char :=
  match cs with
  | c :: _ => if isSpecial c then [c] else cs.takeWhile isNameChar
  | [] => []

/-- The fragment that the characters in braces write. -/
def parameter? (cs : List Char) : Option Fragment :=
  match cs with
  | '#' :: c :: rest =>
    if (parameterName (c :: rest)).length = rest.length + 1 then
      some (.parameter (String.ofList (c :: rest)) .length)
    else none
  | cs =>
    let name := parameterName cs
    if name.isEmpty then none
    else (treatment? (cs.drop name.length)).map (.parameter (String.ofList name))

/-- Reads what follows a dollar sign; a dollar sign that nothing follows stands for itself. -/
def dollar? (cs : List Char) : Option (Fragment × List Char) :=
  match cs with
  | '(' :: '(' :: rest => (arithmetic? rest).map fun (text, rest) => (.arithmetic text, rest)
  | '(' :: rest =>
    (enclosed? 0 .unquoted rest).map fun (text, rest) => (.substitution text, rest)
  | '\x7b' :: rest =>
    let text := rest.takeWhile (· ≠ '\x7d')
    match rest.drop text.length with
    | [] => none
    | _ :: rest => (parameter? text).map fun fragment => (fragment, rest)
  | c :: rest =>
    if isSpecial c then some (.parameter (String.singleton c) .plain, rest)
    else
      let name := cs.takeWhile isNameChar
      if name.isEmpty then some (.text ['$'], cs)
      else some (.parameter (String.ofList name) .plain, cs.drop name.length)
  | [] => some (.text ['$'], [])

/-- Reads a word inside double quotes, up to the closing one. -/
def doubleQuoted? : Nat → List Char → Option (Word × List Char)
  | 0, _ => none
  | fuel + 1, cs =>
    match cs with
    | [] => none
    | '"' :: rest => some ([], rest)
    | '$' :: rest => do
      let (fragment, rest) ← dollar? rest
      let (word, rest) ← doubleQuoted? fuel rest
      return (⟨true, fragment⟩ :: word, rest)
    | '\\' :: c :: rest => do
      let text := if "$\x60\"\\".toList.contains c then [c] else if c == '\n' then [] else ['\\', c]
      let (word, rest) ← doubleQuoted? fuel rest
      return (⟨true, .text text⟩ :: word, rest)
    | '\x60' :: rest => do
      let (script, rest) ← backquoted? rest
      let (word, rest) ← doubleQuoted? fuel rest
      return (⟨true, .substitution script⟩ :: word, rest)
    | c :: rest => do
      let (word, rest) ← doubleQuoted? fuel rest
      return (⟨true, .text [c]⟩ :: word, rest)

/-- Reads a word. -/
def word? : Nat → List Char → Option (Word × List Char)
  | 0, _ => none
  | fuel + 1, cs =>
    match cs with
    | [] => some ([], [])
    | '\'' :: rest =>
      let text := rest.takeWhile (· ≠ '\'')
      match rest.drop text.length with
      | [] => none
      | _ :: rest => do
        let (word, rest) ← word? fuel rest
        return (⟨true, .text text⟩ :: word, rest)
    | '"' :: rest => do
      let (quoted, rest) ← doubleQuoted? fuel rest
      let (word, rest) ← word? fuel rest
      return (⟨true, .text []⟩ :: (quoted ++ word), rest)
    | '$' :: rest => do
      let (fragment, rest) ← dollar? rest
      let (word, rest) ← word? fuel rest
      return (⟨false, fragment⟩ :: word, rest)
    | '\\' :: c :: rest => do
      let (word, rest) ← word? fuel rest
      return (if c == '\n' then word else ⟨true, .text [c]⟩ :: word, rest)
    | '\x60' :: rest => do
      let (script, rest) ← backquoted? rest
      let (word, rest) ← word? fuel rest
      return (⟨false, .substitution script⟩ :: word, rest)
    | c :: rest =>
      if endsPlain c then some ([], cs)
      else do
        let (word, rest) ← word? fuel rest
        return (⟨false, .text [c]⟩ :: word, rest)

/-- The operators that are not part of a redirection, longest first. -/
def operators : List String := ["&&", "||", ";;", ";", "&", "|", "(", ")", "\n"]

/-- The operators of redirections, longest first. -/
def redirectionOperators : List String := [">>", ">&", "<&", ">", "<"]

/-- The first of these texts that the characters begin with. -/
def beginning? (texts : List String) (cs : List Char) : Option String :=
  texts.find? fun t => t.toList.isPrefixOf cs

/-- Cuts a script into words and operators. -/
def lexemes? : Nat → List Char → Option (List Lexeme)
  | 0, _ => none
  | fuel + 1, cs =>
    match cs with
    | [] => some []
    | c :: rest =>
      let digits := cs.takeWhile Char.isDigit
      if c == ' ' || c == '\t' then lexemes? fuel rest
      else if c == '#' then lexemes? fuel (rest.dropWhile (· ≠ '\n'))
      else
        match beginning? operators cs with
        | some op => (lexemes? fuel (cs.drop op.length)).map (.operator op :: ·)
        | none =>
          match beginning? redirectionOperators (cs.drop digits.length) with
          | some op =>
            let standard := if op.startsWith ">" then 1 else 0
            let n := (Digit.read? 10 digits).getD standard
            (lexemes? fuel (cs.drop (digits.length + op.length))).map (.redirection op n :: ·)
          | none =>
            if endsPlain c then none
            else do
              let (w, rest) ← word? (cs.length + 1) cs
              return .word w :: (← lexemes? fuel rest)

/-! ### Commands -/

/-- The text of a word that is written without any quotes and parameters. -/
def bare? (w : Word) : Option String :=
  let text? (p : Piece) : Option (List Char) := match p with
    | ⟨false, .text cs⟩ => some cs
    | _ => none
  (w.mapM text?).map fun (texts : List (List Char)) => String.ofList texts.flatten

/-- The bare word that comes next. -/
def nextBare? : List Lexeme → Option String
  | .word w :: _ => bare? w
  | _ => none

/-- The words that end a list of commands. -/
def closing : List String := ["then", "else", "elif", "fi", "do", "done", "esac", "\x7d"]

/-- Without the separators that come next. -/
def skipLines : List Lexeme → List Lexeme
  | .operator "\n" :: rest => skipLines rest
  | ls => ls

/-- Behind an operator that has to come next. -/
def expectOperator? (text : String) : List Lexeme → Option (List Lexeme)
  | .operator op :: rest => if op = text then some rest else none
  | _ => none

/-- Behind a bare word that has to come next. -/
def expect? (text : String) (ls : List Lexeme) : Option (List Lexeme) :=
  if nextBare? ls == some text then some (ls.drop 1) else none

/-- The assignment that a word is. -/
def assignment? (w : Word) : Option (String × Word) :=
  let isPlain (p : Piece) : Bool := match p with
    | ⟨false, .text [c]⟩ => c ≠ '='
    | _ => false
  let name := w.takeWhile isPlain
  match bare? name, w.drop name.length with
  | some n, ⟨false, .text ['=']⟩ :: value =>
    match n.toList with
    | c :: cs => if !c.isDigit && (c :: cs).all isNameChar then some (n, value) else none
    | [] => none
  | _, _ => none

/-- The target of a redirection. -/
def target? (op : String) (w : Word) : Option Target :=
  if op == ">&" || op == "<&" then
    match bare? w with
    | some "-" => some .closed
    | some t => t.toNat?.map .descriptor
    | none => none
  else if op.startsWith ">" then some (.output w)
  else some (.input w)

/-- Reads a simple command. -/
def simple? : List Lexeme → Simple → Option (Simple × List Lexeme)
  | .word w :: rest, c =>
    match (if c.words.isEmpty then assignment? w else none) with
    | some a => simple? rest { c with assignments := c.assignments ++ [a] }
    | none => simple? rest { c with words := c.words ++ [w] }
  | .redirection op n :: .word w :: rest, c => do
    let target ← target? op w
    simple? rest { c with redirections := c.redirections ++ [⟨n, target⟩] }
  | .redirection _ _ :: _, _ => none
  | ls, c => some (c, ls)

/-- Reads the words behind `in`. -/
def wordList : List Lexeme → List Word × List Lexeme
  | .word w :: rest =>
    let (ws, rest) := wordList rest
    (w :: ws, rest)
  | ls => ([], ls)

/-- Behind the parenthesis that may come before the patterns of a case. -/
def skipOpening : List Lexeme → List Lexeme
  | .operator "(" :: rest => rest
  | ls => ls

/-- Reads the patterns of a case, up to behind the parenthesis. -/
def patterns? : List Lexeme → Option (List Word × List Lexeme)
  | .word w :: .operator "|" :: rest =>
    (patterns? rest).map fun (ws, rest) => (w :: ws, rest)
  | .word w :: .operator ")" :: rest => some ([w], rest)
  | _ => none

/-- The words that begin a command that is not simple. -/
def opening : List String := ["\x7b", "if", "while", "until", "case", "for"]

/-- A command that is not simple comes next. -/
def beginsCompound : List Lexeme → Bool
  | .operator "(" :: _ => true
  | ls => (nextBare? ls).any opening.contains

/-- Behind the separator that may come before `do`. -/
def skipSeparator : List Lexeme → List Lexeme
  | .operator ";" :: rest => skipLines rest
  | ls => skipLines ls

mutual

/-- Reads a list of commands up to a word that closes it, or to the end. -/
def list? : Nat → List Lexeme → Option (List Command × List Lexeme)
  | 0, _ => none
  | fuel + 1, ls => do
    let ls := skipLines ls
    match ls with
    | [] => return ([], [])
    | .operator ")" :: _ => return ([], ls)
    | .operator ";;" :: _ => return ([], ls)
    | _ =>
      if (nextBare? ls).any closing.contains then return ([], ls)
      else
        let (c, ls) ← andOr? fuel ls
        match ls with
        | .operator "&" :: rest =>
          let (cs, ls) ← list? fuel rest
          return (.background c :: cs, ls)
        | .operator ";" :: rest =>
          let (cs, ls) ← list? fuel rest
          return (c :: cs, ls)
        | .operator "\n" :: rest =>
          let (cs, ls) ← list? fuel rest
          return (c :: cs, ls)
        | ls => return ([c], ls)

/-- Reads pipelines joined by `&&` and `||`. -/
def andOr? : Nat → List Lexeme → Option (Command × List Lexeme)
  | 0, _ => none
  | fuel + 1, ls => do
    let (c, ls) ← pipeline? fuel ls
    moreAndOr? fuel c ls

/-- Goes on behind the first of joined pipelines. -/
def moreAndOr? : Nat → Command → List Lexeme → Option (Command × List Lexeme)
  | 0, _, _ => none
  | fuel + 1, c, ls =>
    match ls with
    | .operator "&&" :: rest => do
      let (d, ls) ← pipeline? fuel (skipLines rest)
      moreAndOr? fuel (.both c d) ls
    | .operator "||" :: rest => do
      let (d, ls) ← pipeline? fuel (skipLines rest)
      moreAndOr? fuel (.either c d) ls
    | ls => some (c, ls)

/-- Reads commands joined by `|`, with a negation before them or not. -/
def pipeline? : Nat → List Lexeme → Option (Command × List Lexeme)
  | 0, _ => none
  | fuel + 1, ls =>
    if nextBare? ls == some "!" then do
      let (c, ls) ← pipeline? fuel (ls.drop 1)
      return (.negated c, ls)
    else do
      let (c, ls) ← command? fuel ls
      morePipeline? fuel c ls

/-- Goes on behind the first command of a pipeline. -/
def morePipeline? : Nat → Command → List Lexeme → Option (Command × List Lexeme)
  | 0, _, _ => none
  | fuel + 1, c, ls =>
    match ls with
    | .operator "|" :: rest => do
      let (d, ls) ← command? fuel (skipLines rest)
      morePipeline? fuel (.pipeline c d) ls
    | ls => some (c, ls)

/-- Reads a list of at least one command. -/
def body? : Nat → List Lexeme → Option (Command × List Lexeme)
  | 0, _ => none
  | fuel + 1, ls => do
    let (cs, ls) ← list? fuel ls
    if cs.isEmpty then none else return (.sequence cs, ls)

/-- Reads what follows the condition of an `if`. -/
def branches? : Nat → List Lexeme → Option (Command × List Lexeme)
  | 0, _ => none
  | fuel + 1, ls => do
    let (condition, ls) ← body? fuel ls
    let (yes, ls) ← body? fuel (← expect? "then" ls)
    match nextBare? ls with
    | some "elif" =>
      let (no, ls) ← branches? fuel (ls.drop 1)
      return (.choice condition yes no, ls)
    | some "else" =>
      let (no, ls) ← body? fuel (ls.drop 1)
      return (.choice condition yes no, ← expect? "fi" ls)
    | _ => return (.choice condition yes .nothing, ← expect? "fi" ls)

/-- Reads the cases of a selection. -/
def cases? : Nat → List Lexeme → Option (List (List Word × Command) × List Lexeme)
  | 0, _ => none
  | fuel + 1, ls => do
    let ls := skipLines ls
    if nextBare? ls == some "esac" then return ([], ls.drop 1)
    else
      let (patterns, ls) ← patterns? (skipOpening ls)
      let (cs, ls) ← list? fuel ls
      match skipLines ls with
      | .operator ";;" :: rest =>
        let (cases, ls) ← cases? fuel rest
        return ((patterns, .sequence cs) :: cases, ls)
      | ls => return ([(patterns, .sequence cs)], ← expect? "esac" ls)

/-- Reads one command without the redirections behind it. -/
def compound? : Nat → List Lexeme → Option (Command × List Lexeme)
  | 0, _ => none
  | fuel + 1, ls =>
    match nextBare? ls with
    | some "\x7b" => do
      let (c, ls) ← body? fuel (ls.drop 1)
      return (c, ← expect? "\x7d" ls)
    | some "if" => branches? fuel (ls.drop 1)
    | some "while" => loop? fuel false (ls.drop 1)
    | some "until" => loop? fuel true (ls.drop 1)
    | some "case" =>
      match ls.drop 1 with
      | .word w :: rest => do
        let ls ← expect? "in" (skipLines rest)
        let (cases, ls) ← cases? fuel ls
        return (.select w cases, ls)
      | _ => none
    | some "for" => do
      let name ← nextBare? (ls.drop 1)
      let ls := skipLines (ls.drop 2)
      let (words, ls) :=
        if nextBare? ls == some "in" then
          let (ws, ls) := wordList (ls.drop 1)
          (some ws, ls)
        else (none, ls)
      let (c, ls) ← body? fuel (← expect? "do" (skipSeparator ls))
      return (.each name words c, ← expect? "done" ls)
    | _ =>
      match ls with
      | .operator "(" :: rest => do
        let (c, ls) ← body? fuel rest
        return (.enclosed c, ← expectOperator? ")" ls)
      | _ => none

/-- Reads one command. -/
def command? : Nat → List Lexeme → Option (Command × List Lexeme)
  | 0, _ => none
  | fuel + 1, ls =>
    match ls with
    | .word w :: .operator "(" :: .operator ")" :: rest => do
      let name ← bare? w
      let (c, ls) ← command? fuel (skipLines rest)
      return (.definition name c, ls)
    | ls =>
      if beginsCompound ls then do
        let (c, ls) ← compound? fuel ls
        let (s, ls) ← simple? ls {}
        if !s.words.isEmpty || !s.assignments.isEmpty then none
        else return (if s.redirections.isEmpty then c else .redirected c s.redirections, ls)
      else if (nextBare? ls).any closing.contains then none
      else do
        let (c, ls) ← simple? ls {}
        if c.words.isEmpty && c.assignments.isEmpty && c.redirections.isEmpty then none
        else return (.simple c, ls)

/-- Reads what follows `while` or `until`. -/
def loop? : Nat → Bool → List Lexeme → Option (Command × List Lexeme)
  | 0, _, _ => none
  | fuel + 1, reversed, ls => do
    let (condition, ls) ← body? fuel ls
    let (c, ls) ← body? fuel (← expect? "do" ls)
    return (.loop reversed condition c, ← expect? "done" ls)

end

/-- The command that a script is. -/
def Command.ofText? (text : String) : Option Command := do
  let ls ← lexemes? (text.length + 1) text.toList
  match ← list? (8 * ls.length + 8) ls with
  | (cs, []) => some (.sequence cs)
  | _ => none

end VirtualTerminal.Shell
