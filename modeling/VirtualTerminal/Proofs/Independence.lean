import VirtualTerminal.Proofs.Resync

/-!
# Independence — what calls return does not depend on the screen

Feeding a chunk returns an outcome, and so does ending the stream.  Other operations may stand
between such calls: changes of the size, and changes of the screen behind the parser's back.  They
reach the screen alone, while the outcome comes from decoder, tracker and machine, none of which
looks at the screen.

A parser without its screen is a `Scanner`; it takes the byte stream portion by portion.

* `Parser.answer?_eq_some`: a call that returns tells what the scanner of the parser tells of its
  portion, and every other operation leaves the scanner as it is.
* `Parser.run_told`: so the outcomes of a run are those that a scanner tells of the portions, up to
  the first operation that does not return.

**Outcomes do not depend on the screen** (`Parser.outcomes_independent`): two runs that take the
same portions return the same outcomes, whatever the sizes are and whatever else is done to the
screens.
-/

namespace VirtualTerminal

/-- What a call takes of the byte stream. -/
inductive Portion where
  | chunk (bytes : List UInt8)
  /-- What is held back until the end. -/
  | ending
deriving DecidableEq, Repr

/-- The portion of the byte stream that an operation takes, if it takes one. -/
def Operation.portion? : Operation → Option Portion
  | .call (.feed chunk) => some (.chunk chunk)
  | .call .finish => some .ending
  | .call (.resize _) => none
  | .change _ => none

/-- The portions of the byte stream that operations take. -/
def Operation.portions (ops : List Operation) : List Portion := ops.filterMap portion?

/-! ### Runs with their outcomes -/

namespace Emulator

/-- Carries out an operation, with the outcome that it returns if it takes a portion. -/
def answer? (e : Emulator) : Operation → Option (Emulator × Option Outcome)
  | .call (.feed chunk) => (e.feed? chunk).map fun (e, o) => (e, some o)
  | .call .finish => e.finish?.map fun (e, o) => (e, some o)
  | op => (e.operate? op).map fun e => (e, none)

/-- The outcomes of a sequence of operations up to the first that does not return, and the emulator
afterwards if all do. -/
def run : List Operation → Emulator → List Outcome × Option Emulator
  | [], e => ([], some e)
  | op :: ops, e =>
    match e.answer? op with
    | none => ([], none)
    | some (e, o) => (o.toList ++ (run ops e).1, (run ops e).2)

end Emulator

namespace Parser

/-- Carries out an operation, with the outcome that it returns if it takes a portion. -/
def answer? (p : Parser) : Operation → Option (Parser × Option Outcome)
  | .call (.feed chunk) => (p.feed? chunk).map fun (p, o) => (p, some o)
  | .call .finish => p.finish?.map fun (p, o) => (p, some o)
  | op => (p.operate? op).map fun p => (p, none)

/-- The outcomes of a sequence of operations up to the first that does not return, and the parser
afterwards if all do. -/
def run : List Operation → Parser → List Outcome × Option Parser
  | [], p => ([], some p)
  | op :: ops, p =>
    match p.answer? op with
    | none => ([], none)
    | some (p, o) => (o.toList ++ (run ops p).1, (run ops p).2)

variable {p p' : Parser} {op : Operation} {o : Option Outcome}

/-- The parser answers as the emulator does. -/
theorem answer?_emulator (h : p.Clean) (op : Operation) :
    (p.answer? op).map (fun (p, o) => (p.emulator, o)) = p.emulator.answer? op := by
  rcases op with (chunk | _ | d) | c
  · simp only [answer?, Emulator.answer?, ← feed?_emulator h, Option.map_map, Function.comp_def]
  · simp only [answer?, Emulator.answer?, ← finish?_emulator h, Option.map_map, Function.comp_def]
  · simp only [answer?, Emulator.answer?, ← operate?_emulator h, Option.map_map, Function.comp_def]
  · simp only [answer?, Emulator.answer?, ← operate?_emulator h, Option.map_map, Function.comp_def]

/-- The parser afterwards is that of the operation without its outcome. -/
theorem operate?_of_answer? (h : p.answer? op = some (p', o)) : p.operate? op = some p' := by
  have hfst : (p.answer? op).map Prod.fst = p.operate? op := by
    rcases op with (chunk | _ | d) | c
    · simp only [answer?, operate?, Option.map_map, Function.comp_def]
    · simp only [answer?, operate?, Option.map_map, Function.comp_def]
    · simp only [answer?, Option.map_map, Function.comp_def, Option.map_id_fun', id]
    · simp only [answer?, Option.map_map, Function.comp_def, Option.map_id_fun', id]
  rw [← hfst, h]
  rfl

/-- **The registers do not matter.**  A run of the parser is a run of the emulator. -/
theorem run_emulator (h : p.Clean) (ops : List Operation) :
    Emulator.run ops p.emulator = ((run ops p).1, (run ops p).2.map emulator) := by
  induction ops generalizing p with
  | nil => rfl
  | cons op ops ih =>
    rw [Emulator.run, run, ← answer?_emulator h]
    cases ha : p.answer? op with
    | none => rfl
    | some next =>
      obtain ⟨p₁, o⟩ := next
      simp only [Option.map_some, ih (clean_of_operate? h (operate?_of_answer? ha))]

end Parser

/-! ### Without the screen -/

/-- A parser without its screen. -/
structure Scanner where
  decoder : Decoder := .fresh
  guarded : Escape.Guarded := .fresh
deriving DecidableEq, Repr

namespace Scanner

/-- The scanner after decoded text, and the instructions read in it. -/
def read (s : Scanner) (text : List UInt8) : Scanner × List Instruction :=
  ({ s with guarded := (s.guarded.run text).1 },
    (s.guarded.run text).2.flatMap Instruction.ofAction)

/-- The scanner after a portion of the byte stream, and the instructions read in it. -/
def take (s : Scanner) : Portion → Scanner × List Instruction
  | .chunk bytes => { s with decoder := (s.decoder.decode bytes).1 }.read (s.decoder.decode bytes).2
  | .ending => { s with decoder := s.decoder.finish.1 }.read s.decoder.finish.2

/-- The scanner after portions of the byte stream, and what it tells of each. -/
def takeAll : List Portion → Scanner → Scanner × List Outcome
  | [], s => (s, [])
  | portion :: rest, s =>
    ((takeAll rest (s.take portion).1).1,
      Outcome.ofInstructions (s.take portion).2 :: (takeAll rest (s.take portion).1).2)

theorem length_takeAll (portions : List Portion) (s : Scanner) :
    (takeAll portions s).2.length = portions.length := by
  induction portions generalizing s with
  | nil => rfl
  | cons portion rest ih => exact congrArg (· + 1) (ih _)

end Scanner

namespace Parser

variable {p p' : Parser} {op : Operation} {o : Option Outcome} {ops ops' : List Operation}

/-- The parser without its screen. -/
def scanner (p : Parser) : Scanner := ⟨p.decoder, p.guarded⟩

theorem read?_eq_some {text : List UInt8} {o : Outcome} (h : p.read? text = some (p', o)) :
    p'.scanner = (p.scanner.read text).1 ∧
      o = Outcome.ofInstructions (p.scanner.read text).2 := by
  obtain ⟨screen, -, heq⟩ := Option.map_eq_some_iff.mp h
  obtain ⟨rfl, rfl⟩ := Prod.mk.inj heq
  exact ⟨rfl, rfl⟩

/-- **What an operation returns** is told by the scanner of the parser, and the screen has no part
in it. -/
theorem answer?_eq_some (h : p.answer? op = some (p', o)) :
    p'.scanner = op.portion?.elim p.scanner (fun portion => (p.scanner.take portion).1) ∧
      o = op.portion?.map fun portion => Outcome.ofInstructions (p.scanner.take portion).2 := by
  rcases op with (chunk | _ | d) | c
  · obtain ⟨⟨p₁, o₁⟩, hread, heq⟩ := Option.map_eq_some_iff.mp h
    obtain ⟨rfl, rfl⟩ := Prod.mk.inj heq
    obtain ⟨hscanner, rfl⟩ :=
      read?_eq_some (p := { p with decoder := (p.decoder.decode chunk).1 }) hread
    exact ⟨hscanner, rfl⟩
  · obtain ⟨⟨p₁, o₁⟩, hread, heq⟩ := Option.map_eq_some_iff.mp h
    obtain ⟨rfl, rfl⟩ := Prod.mk.inj heq
    obtain ⟨hscanner, rfl⟩ := read?_eq_some (p := { p with decoder := p.decoder.finish.1 }) hread
    exact ⟨hscanner, rfl⟩
  · obtain ⟨rfl, rfl⟩ := Prod.mk.inj (Option.some.inj h)
    exact ⟨rfl, rfl⟩
  · obtain ⟨p₁, hop, heq⟩ := Option.map_eq_some_iff.mp h
    obtain ⟨rfl, rfl⟩ := Prod.mk.inj heq
    obtain ⟨screen, -, rfl⟩ := Option.map_eq_some_iff.mp hop
    exact ⟨rfl, rfl⟩

/-- **A run tells what the scanner tells** of the portions it takes: all of it if every operation
returns, and else a front part. -/
theorem run_told (ops : List Operation) (p : Parser) :
    (run ops p).1 <+: (Scanner.takeAll (Operation.portions ops) p.scanner).2 ∧
      ∀ p', (run ops p).2 = some p' →
        (p'.scanner, (run ops p).1) = Scanner.takeAll (Operation.portions ops) p.scanner := by
  induction ops generalizing p with
  | nil =>
    refine ⟨List.prefix_refl _, fun p' hp' => ?_⟩
    obtain rfl := Option.some.inj hp'
    rfl
  | cons op ops ih =>
    rw [run]
    cases ha : p.answer? op with
    | none => exact ⟨List.nil_prefix, fun p' hp' => by cases hp'⟩
    | some next =>
      obtain ⟨p₁, o⟩ := next
      obtain ⟨hscanner, rfl⟩ := answer?_eq_some ha
      obtain ⟨hfront, hall⟩ := ih p₁
      cases hop : op.portion? with
      | none =>
        -- the operation takes nothing, and the scanner stays where it is
        rw [hop, Option.elim_none] at hscanner
        rw [Operation.portions, List.filterMap_cons_none hop, ← hscanner]
        exact ⟨hfront, hall⟩
      | some portion =>
        rw [hop, Option.elim_some] at hscanner
        rw [Operation.portions, List.filterMap_cons_some hop, Scanner.takeAll, ← hscanner]
        refine ⟨List.cons_prefix_cons.mpr ⟨rfl, hfront⟩, fun p' hp' => ?_⟩
        obtain ⟨hsame, houtcomes⟩ := Prod.mk.inj (hall p' hp')
        exact Prod.ext hsame (congrArg (_ :: ·) houtcomes)

/-- **Outcomes do not depend on the screen.**  Take two fresh parsers of any sizes, and on each a
sequence of operations, with any changes of size and of the screen in between, that takes the same
portions of a byte stream.  Then the calls that return on both sides return the same outcomes, one
after the other.  If all operations return, there is an outcome for each portion, and decoder,
tracker and machine with its registers are the same in the end.  The parsers may also be taken
without their registers. -/
theorem outcomes_independent (hportions : Operation.portions ops = Operation.portions ops')
    (d d' : Dimensions) :
    (∀ (k : Nat) o o', (run ops (ofDimensions d)).1[k]? = some o →
      (run ops' (ofDimensions d')).1[k]? = some o' → o = o') ∧
    (∀ p p', (run ops (ofDimensions d)).2 = some p → (run ops' (ofDimensions d')).2 = some p' →
      (run ops (ofDimensions d)).1 = (run ops' (ofDimensions d')).1 ∧
        (run ops (ofDimensions d)).1.length = (Operation.portions ops).length ∧
        p.scanner = p'.scanner) ∧
    ∀ ops d, Emulator.run ops (.ofDimensions d) =
      ((run ops (ofDimensions d)).1, (run ops (ofDimensions d)).2.map emulator) := by
  obtain ⟨hfront, hall⟩ := run_told ops (ofDimensions d)
  obtain ⟨hfront', hall'⟩ := run_told ops' (ofDimensions d')
  refine ⟨fun k o o' ho ho' => ?_, fun p p' hp hp' => ?_, fun ops d => ?_⟩
  · -- both are the outcome that the scanner tells of this portion
    obtain ⟨hk, rfl⟩ := List.getElem?_eq_some_iff.mp ho
    obtain ⟨hk', rfl⟩ := List.getElem?_eq_some_iff.mp ho'
    have htold := List.prefix_iff_getElem?.mp hfront k hk
    have htold' := List.prefix_iff_getElem?.mp hfront' k hk'
    rw [hportions] at htold
    exact Option.some.inj (htold.symm.trans htold')
  · have htold := hall p hp
    have hsame : (p.scanner, (run ops (ofDimensions d)).1) =
        (p'.scanner, (run ops' (ofDimensions d')).1) :=
      htold.trans ((congrArg (Scanner.takeAll · _) hportions).trans (hall' p' hp').symm)
    obtain ⟨hscanner, houtcomes⟩ := Prod.mk.inj hsame
    refine ⟨houtcomes, ?_, hscanner⟩
    rw [show (run ops (ofDimensions d)).1 = _ from congrArg Prod.snd htold, Scanner.length_takeAll]
  · exact run_emulator (clean_ofScreen _) ops

/-- A title cut in two, a line feed, and a character that is cut off by the end, on a screen that is
made small, emptied and overwritten meanwhile. -/
def titledOnSmall : List Operation :=
  [.call (.feed [0x1b, 0x5d, 0x32, 0x3b, 0x74]), .call (.resize ⟨1, 1⟩), .change (.obey .reset),
    .call (.feed [0x69, 0x07, 0x07, 0x0a, 0xe4, 0xb8]), .change (.putCell 0 0 .empty),
    .call .finish]

/-- The same text, in the same chunks, on a screen that is made large. -/
def titledOnLarge : List Operation :=
  [.call (.resize ⟨3, 5⟩), .call (.feed [0x1b, 0x5d, 0x32, 0x3b, 0x74]),
    .change (.obey (.moveCursor 2 4)), .call (.feed [0x69, 0x07, 0x07, 0x0a, 0xe4, 0xb8]),
    .call (.resize ⟨40, 9⟩), .call .finish, .change (.setStyle .plain)]

/-- A small screen and a large one, with other changes between the chunks: title, bell and text are
told alike. -/
theorem outcomes_independent_titled :
    Operation.portions titledOnSmall = Operation.portions titledOnLarge ∧
    (run titledOnSmall (ofDimensions ⟨2, 8⟩)).1 =
      [{}, { transcript := "\n", titles := ["ti"], bells := 1 }, { transcript := "ä¸" }] ∧
    (∀ (k : Nat) o o', (run titledOnSmall (ofDimensions ⟨2, 8⟩)).1[k]? = some o →
      (run titledOnLarge (ofDimensions ⟨24, 80⟩)).1[k]? = some o' → o = o') ∧
    (∀ p p', (run titledOnSmall (ofDimensions ⟨2, 8⟩)).2 = some p →
      (run titledOnLarge (ofDimensions ⟨24, 80⟩)).2 = some p' →
      (run titledOnSmall (ofDimensions ⟨2, 8⟩)).1 =
          (run titledOnLarge (ofDimensions ⟨24, 80⟩)).1 ∧
        (run titledOnSmall (ofDimensions ⟨2, 8⟩)).1.length =
          (Operation.portions titledOnSmall).length ∧
        p.scanner = p'.scanner) ∧
    ∀ ops d, Emulator.run ops (.ofDimensions d) =
      ((run ops (ofDimensions d)).1, (run ops (ofDimensions d)).2.map emulator) :=
  have hportions : Operation.portions titledOnSmall = Operation.portions titledOnLarge := rfl
  ⟨hportions, by decide +kernel, outcomes_independent hportions ⟨2, 8⟩ ⟨24, 80⟩⟩

end Parser

end VirtualTerminal
