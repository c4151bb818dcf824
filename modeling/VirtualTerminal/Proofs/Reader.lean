import VirtualTerminal.Emulator

/-!
# Reader — what a byte stream asks of the screen

Decoder and escape machine read the bytes, and neither looks at the screen.  So a feed is two things
in turn: the reader turns the chunk into instructions (`Reader.feed`), and the screen obeys them one
after another (`Screen.obeyAll?`).

* `feed?_eq`, `finish?_eq`: an emulator does exactly that, and its outcome is the record of the
  instructions.
* `Outcome.append_assoc`, `Outcome.ofInstructions_append`: outcomes are put together like lists.
-/

namespace VirtualTerminal

/-! ### Runs of the interpreter -/

namespace Escape.Interpreter

/-- The interpreter after some bytes, and what it hands on meanwhile. -/
def run : List UInt8 → Interpreter → Interpreter × List Action
  | [], i => (i, [])
  | b :: rest, i =>
    ((run rest (i.step b).1).1, (i.step b).2 ++ (run rest (i.step b).1).2)

/-- Bytes in two parts are read as they are in one. -/
theorem run_append (a b : List UInt8) (i : Interpreter) :
    run (a ++ b) i = ((run b (run a i).1).1, (run a i).2 ++ (run b (run a i).1).2) := by
  induction a generalizing i with
  | nil => rfl
  | cons c a ih => simp only [List.cons_append, run, ih, List.append_assoc]

end Escape.Interpreter

/-! ### Outcomes -/

namespace Outcome

@[simp] theorem none_append (o : Outcome) : none.append o = o := by simp [append, none]

@[simp] theorem append_none (o : Outcome) : o.append none = o := by simp [append, none]

/-- What is handed on in three parts adds up in any grouping. -/
theorem append_assoc (a b c : Outcome) : (a.append b).append c = a.append (b.append c) := by
  simp only [append, String.append_assoc, List.append_assoc, Nat.add_assoc]

/-- The outcome of instructions obeyed one after another. -/
def ofInstructions (is : List Instruction) : Outcome := is.foldl record none

theorem record_print (o : Outcome) (c : Char) :
    o.record (.print c) = { o with transcript := o.transcript.push c } := rfl

theorem record_lineFeed (o : Outcome) :
    o.record .lineFeed = { o with transcript := o.transcript.push '\n' } := rfl

theorem record_bell (o : Outcome) : o.record .bell = { o with bells := o.bells + 1 } := rfl

theorem record_title (o : Outcome) (text : String) :
    o.record (.title text) = { o with titles := o.titles ++ [text] } := rfl

/-- What an instruction adds does not depend on the outcome before it. -/
theorem record_append (a b : Outcome) (i : Instruction) :
    (a.append b).record i = a.append (b.record i) := by
  cases i with
  | print c => simp only [record_print, append, String.push_eq_append, String.append_assoc]
  | lineFeed => simp only [record_lineFeed, append, String.push_eq_append, String.append_assoc]
  | bell => simp only [record_bell, append, Nat.add_assoc]
  | title text => simp only [record_title, append, List.append_assoc]
  | _ => rfl

/-- What was recorded before does not matter to what is recorded next. -/
theorem foldl_record (is : List Instruction) (a b : Outcome) :
    is.foldl record (a.append b) = a.append (is.foldl record b) := by
  induction is generalizing b with
  | nil => rfl
  | cons i is ih => rw [List.foldl_cons, List.foldl_cons, record_append, ih]

/-- **The outcome of two parts** is that of the first and then that of the second. -/
theorem ofInstructions_append (a b : List Instruction) :
    ofInstructions (a ++ b) = (ofInstructions a).append (ofInstructions b) := by
  rw [ofInstructions, List.foldl_append, ofInstructions, ofInstructions, ← foldl_record,
    append_none]

end Outcome

/-! ### The screen obeys -/

namespace Screen

/-- Obeys instructions one after another. -/
def obeyAll? : List Instruction → Screen → Option Screen
  | [], s => some s
  | i :: rest, s => (i.obey? s).bind (obeyAll? rest)

/-- Instructions in two parts are obeyed one part after the other. -/
theorem obeyAll?_append (a b : List Instruction) (s : Screen) :
    obeyAll? (a ++ b) s = (obeyAll? a s).bind (obeyAll? b) := by
  induction a generalizing s with
  | nil => rfl
  | cons i a ih =>
    rw [List.cons_append, obeyAll?, obeyAll?, Option.bind_assoc]
    exact congrArg _ (funext ih)

end Screen

/-! ### The reader of an emulator -/

/-- An emulator without its screen. -/
structure Reader where
  decoder : Decoder := .fresh
  interpreter : Escape.Interpreter := .fresh
deriving DecidableEq, Repr

namespace Reader

/-- Nothing read yet. -/
def fresh : Reader := {}

/-- The reader after decoded text, and the instructions read in it. -/
def read (r : Reader) (text : List UInt8) : Reader × List Instruction :=
  ({ r with interpreter := (r.interpreter.run text).1 },
    (r.interpreter.run text).2.flatMap Instruction.ofAction)

/-- Text is read in two parts. -/
theorem read_append (r : Reader) (a b : List UInt8) :
    r.read (a ++ b) = (((r.read a).1.read b).1, (r.read a).2 ++ ((r.read a).1.read b).2) := by
  simp only [read, Escape.Interpreter.run_append, List.flatMap_append]

/-- The reader after a chunk of the byte stream, and the instructions read in it. -/
def feed (r : Reader) (chunk : List UInt8) : Reader × List Instruction :=
  { r with decoder := (r.decoder.decode chunk).1 }.read (r.decoder.decode chunk).2

/-- The reader after the end of the byte stream, and the instructions read there. -/
def finish (r : Reader) : Reader × List Instruction :=
  { r with decoder := r.decoder.finish.1 }.read r.decoder.finish.2

/-- An emulator with this reader and this screen. -/
def emulator (r : Reader) (s : Screen) : Emulator := ⟨r.decoder, r.interpreter, s⟩

/-- The emulator after the instructions that a reader has read, with their outcome. -/
def perform? (read : Reader × List Instruction) (s : Screen) : Option (Emulator × Outcome) :=
  (s.obeyAll? read.2).map fun s => (read.1.emulator s, Outcome.ofInstructions read.2)

end Reader

namespace Emulator

/-- The reader of an emulator. -/
def reader (e : Emulator) : Reader := ⟨e.decoder, e.interpreter⟩

@[simp] theorem reader_emulator (r : Reader) (s : Screen) : (r.emulator s).reader = r := rfl

@[simp] theorem screen_emulator (r : Reader) (s : Screen) : (r.emulator s).screen = s := rfl

/-- Whatever else an emulator keeps, its screen obeys and its outcome records. -/
theorem obeyAll?_eq (is : List Instruction) (s : Screen) (o : Outcome) :
    obeyAll? is s o =
      (s.obeyAll? is).map fun s => (s, o.append (Outcome.ofInstructions is)) := by
  induction is generalizing s o with
  | nil => simp [obeyAll?, Screen.obeyAll?, Outcome.ofInstructions]
  | cons i is ih =>
    have split : Outcome.ofInstructions (i :: is)
        = (Outcome.none.record i).append (Outcome.ofInstructions is) :=
      Outcome.ofInstructions_append [i] is
    simp only [obeyAll?, Screen.obeyAll?, ih, Option.map_bind, Function.comp_def, split,
      ← Outcome.append_assoc, ← Outcome.record_append, Outcome.append_none]

/-- Decoded text is read, then obeyed. -/
theorem run?_eq (text : List UInt8) (e : Emulator) (o : Outcome) :
    run? text e o =
      (Reader.perform? (e.reader.read text) e.screen).map fun (e, o') => (e, o.append o') := by
  induction text generalizing e o with
  | nil => simp [run?, Reader.perform?, Reader.read, Escape.Interpreter.run, Screen.obeyAll?,
      Outcome.ofInstructions, Reader.emulator, reader]
  | cons b text ih =>
    simp only [run?, step?, obeyAll?_eq, Reader.perform?, Reader.read, Escape.Interpreter.run,
      List.flatMap_append, Screen.obeyAll?_append, Outcome.ofInstructions_append,
      Option.bind_map, Option.map_map, Option.map_bind, Function.comp_def, ih, reader,
      Reader.emulator, Outcome.append_assoc]

/-- **A feed is reading and obeying.** -/
theorem feed?_eq (e : Emulator) (chunk : List UInt8) :
    e.feed? chunk = Reader.perform? (e.reader.feed chunk) e.screen := by
  simp only [feed?, run?_eq, Outcome.none_append, Option.map_id_fun', id]
  rfl

/-- So is the end of the stream. -/
theorem finish?_eq (e : Emulator) :
    e.finish? = Reader.perform? e.reader.finish e.screen := by
  simp only [finish?, run?_eq, Outcome.none_append, Option.map_id_fun', id]
  rfl

end Emulator

end VirtualTerminal
