import VirtualTerminal.Codec.ConfigText

/-!
# CommandLine — options and the command behind them

Options come before the command.  The first argument that is neither an option nor an option's value
begins the command, and so does what follows `--`; everything from there on belongs to it.  An
argument that looks like an option but is none is a word like any other.  An option's value is looked
at only when the next option, the command or the end of the arguments is reached.
-/

namespace VirtualTerminal

/-- The options. -/
inductive Switch where
  | config
  | cols
  | rows
  | backend
  | cwd
  | stdin
  | schema
  | listBackends
  | help
  | version
deriving DecidableEq, Repr, Inhabited

namespace Switch

/-- Every option. -/
def all : List Switch :=
  [.config, .cols, .rows, .backend, .cwd, .stdin, .schema, .listBackends, .help, .version]

/-- The name behind two hyphens. -/
def long : Switch → String
  | .config => "config"
  | .cols => "cols"
  | .rows => "rows"
  | .backend => "backend"
  | .cwd => "cwd"
  | .stdin => "stdin"
  | .schema => "schema"
  | .listBackends => "list-backends"
  | .help => "help"
  | .version => "version"

/-- The letter behind one hyphen. -/
def short? : Switch → Option Char
  | .config => some 'c'
  | .backend => some 'b'
  | .help => some 'h'
  | .version => some 'V'
  | _ => none

/-- The option has a value. -/
def takesValue : Switch → Bool
  | .config | .cols | .rows | .backend | .cwd => true
  | _ => false

/-- The option with this name. -/
def ofLong? (name : String) : Option Switch := all.find? fun o => o.long == name

/-- The option with this letter. -/
def ofShort? (c : Char) : Option Switch := all.find? fun o => o.short? == some c

end Switch

/-- Why arguments are not carried out. -/
inductive Refusal where
  /-- The arguments ask for a help text. -/
  | help
  /-- The arguments ask for the version. -/
  | version
  /-- An option has no value, or an empty one where that is no value. -/
  | missingValue (option : Switch)
  /-- A value is not of the option's kind. -/
  | badValue (option : Switch)
  /-- An option is given twice. -/
  | repeated (option : Switch)
  /-- An option that takes none has a value. -/
  | unwantedValue (option : Switch)
deriving DecidableEq, Repr, Inhabited

namespace Refusal

/-- What is said about a refusal. -/
def message : Refusal → String
  | .help =>
    "Usage: ptyrender [OPTIONS] [COMMAND]...\n\n" ++
      String.join (Switch.all.map fun o =>
        s!"  --{o.long}" ++ (if o.takesValue then " <VALUE>\n" else "\n"))
  | .version => "ptyrender\n"
  | .missingValue o => s!"error: a value is required for '--{o.long}' but none was supplied\n"
  | .badValue o => s!"error: invalid value for '--{o.long}'\n"
  | .repeated o => s!"error: the argument '--{o.long}' cannot be used multiple times\n"
  | .unwantedValue o => s!"error: unexpected value for '--{o.long}'\n"

/-- The exit code of a refusal; a text that was asked for is no failure. -/
def exitCode : Refusal → Nat
  | .help => 0
  | .version => 0
  | _ => 2

end Refusal

/-- What the arguments ask for. -/
structure Options where
  /-- The configuration file. -/
  config : Option String := none
  cols : Option Nat := none
  rows : Option Nat := none
  /-- The only backend to try. -/
  backend : Option String := none
  /-- The working directory of the command. -/
  cwd : Option String := none
  /-- Standard input goes to the command. -/
  stdin : Bool := false
  /-- The schema of events is printed. -/
  schema : Bool := false
  /-- The backends are listed. -/
  listBackends : Bool := false
  command : List String := []
deriving DecidableEq, Repr, Inhabited

namespace Options

/-- The integer that a decimal text with an optional sign writes. -/
def integer? (text : String) : Option Int :=
  let (negative, ds) := Decimal.Numeral.splitSign text.toList
  (Digit.read? 10 ds).map fun n => if negative then -(n : Int) else n

/-- The number of rows or columns that a text writes. -/
def size? (text : String) : Option Nat :=
  (integer? text).bind fun n => if 0 ≤ n ∧ n < 65536 then some n.toNat else none

/-- A path is not empty. -/
def path (option : Switch) (text : String) : Except Refusal String :=
  if text.isEmpty then .error (.missingValue option) else .ok text

/-- A number of rows or columns. -/
def size (option : Switch) (text : String) : Except Refusal Nat :=
  match size? text with
  | some n => .ok n
  | none => .error (.badValue option)

/-- Takes in an option's value. -/
def withValue (o : Options) (option : Switch) (text : String) : Except Refusal Options :=
  match option with
  | .config => (path option text).map fun p => { o with config := some p }
  | .cwd => (path option text).map fun p => { o with cwd := some p }
  | .cols => (size option text).map fun n => { o with cols := some n }
  | .rows => (size option text).map fun n => { o with rows := some n }
  | .backend => .ok { o with backend := some text }
  | _ => .error (.unwantedValue option)

/-- Takes in an option without a value. -/
def withFlag (o : Options) (option : Switch) : Except Refusal Options :=
  match option with
  | .stdin => .ok { o with stdin := true }
  | .schema => .ok { o with schema := true }
  | .listBackends => .ok { o with listBackends := true }
  | .help => .error .help
  | .version => .error .version
  | _ => .error (.missingValue option)

/-! ### Reading arguments -/

/-- What is known between two arguments. -/
structure Reading where
  options : Options := {}
  /-- The options taken in. -/
  given : List Switch := []
  /-- The last option that takes a value, and the value if it was there. -/
  pending : Option (Switch × Option String) := none

namespace Reading

/-- Takes in an option. -/
def give (r : Reading) (option : Switch) (value : Option String) : Except Refusal Reading :=
  if option.takesValue && value.isNone then .error (.missingValue option)
  else if r.given.contains option then .error (.repeated option)
  else do
    let options ← match value with
      | some text => r.options.withValue option text
      | none => r.options.withFlag option
    return { r with options := options, given := option :: r.given }

/-- Takes in the option whose value was still to be looked at. -/
def settle (r : Reading) : Except Refusal Reading :=
  match r.pending with
  | none => .ok r
  | some (option, value) => { r with pending := none }.give option value

/-- An option with the value that is attached to it. -/
def long (r : Reading) (option : Switch) (attached : Option String) : Except Refusal Reading :=
  if option.takesValue && attached.isNone then do
    let r ← r.settle
    return { r with pending := some (option, none) }
  else if !option.takesValue && attached.isSome then .error (.unwantedValue option)
  else do
    let r ← r.settle
    r.give option attached

/-- Letters behind one hyphen.  The letters behind an option that takes a value are its value. -/
def letters (r : Reading) : List (Switch × Char) → Except Refusal Reading
  | [] => .ok r
  | (option, _) :: rest =>
    if option.takesValue then
      r.long option
        (if rest.isEmpty then none else some (String.ofList (rest.map Prod.snd)))
    else do
      let r ← r.long option none
      r.letters rest

end Reading

/-- What an argument looks like. -/
inductive Shape where
  | option (option : Switch) (attached : Option String)
  | letters (options : List (Switch × Char))
  | word
deriving DecidableEq, Repr, Inhabited

/-- The options that letters stand for, if all of them do. -/
def letters? (cs : List Char) : Option (List (Switch × Char)) :=
  cs.mapM fun c => (Switch.ofShort? c).map fun o => (o, c)

/-- What an argument looks like. -/
def shape (arg : String) : Shape :=
  match arg.toList with
  | '-' :: '-' :: cs =>
    let name := cs.takeWhile (· ≠ '=')
    match Switch.ofLong? (String.ofList name) with
    | some o =>
      .option o (if name.length < cs.length then some (String.ofList (cs.drop (name.length + 1)))
        else none)
    | none => .word
  | '-' :: c :: cs =>
    match letters? (c :: cs) with
    | some os => .letters os
    | none => .word
  | _ => .word

/-- The options, once the command is known. -/
def finish (r : Reading) (command : List String) : Except Refusal Options := do
  let r ← r.settle
  return { r.options with command := command }

/-- Reads arguments one after another. -/
def readFrom (r : Reading) : List String → Except Refusal Options
  | [] => finish r []
  | arg :: rest =>
    if arg = "--" then finish r rest
    else
      match shape arg with
      | .option o attached => do readFrom (← r.long o attached) rest
      | .letters os => do readFrom (← r.letters os) rest
      | .word =>
        match r.pending with
        | some (o, none) => readFrom { r with pending := some (o, some arg) } rest
        | _ => finish r (arg :: rest)

/-- What arguments ask for. -/
def read (args : List String) : Except Refusal Options := readFrom {} args

/-! ### The configuration -/

/-- The configuration in the file that the options name, with the size that they give.  The file's
configuration has to be without fault before and after. -/
def loadConfig (o : Options) (file : String → Except String String) : Except Error Config := do
  let c ← match o.config with
    | none => .ok Config.standard
    | some path =>
      match file path with
      | .error reason => .error (.io reason)
      | .ok text => Config.ofText text
  let terminal := { c.terminal with
    cols := o.cols.getD c.terminal.cols, rows := o.rows.getD c.terminal.rows }
  { c with terminal := terminal }.validated

end Options

end VirtualTerminal
