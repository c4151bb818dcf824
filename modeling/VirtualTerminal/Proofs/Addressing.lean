import VirtualTerminal.Proofs.Interruptions

/-!
# Addressing — rows and columns named by number

Four control sequences name places of the screen by decimal numbers: a place, a column, a row, or
the rows of the scroll region (`Address`).  The digits of a number come one at a time, in any chunks
and without a bound on how many they are.  Each of them multiplies by ten what has been read, and
the number stays at the largest sixteen-bit number once it has reached it; so what is read is the
value of all digits, cut off once (`Digits.foldl_capped`).

* `Interpreter.run_numbers`: a control sequence of numbers hands on one group for each of them.
* `Address.obey?_instruction`: the instruction that is read goes where the address says.

**An address is gone to** (`Parser.feedAll?_address`).
-/

namespace VirtualTerminal

namespace Escape

/-! ### Numbers -/

/-- A number as it is written: any digits, with or without leading zeros, or none. -/
abbrev Digits := List (Fin 10)

namespace Digits

/-- The byte that stands for a digit. -/
def byte (d : Fin 10) : UInt8 := UInt8.ofNat (0x30 + d.val)

/-- The bytes of a number. -/
def bytes (ds : Digits) : List UInt8 := ds.map byte

/-- The number that the digits write; no digit writes zero. -/
def value (ds : Digits) : Nat := ds.foldl (fun n d => n * 10 + d.val) 0

/-- The number that is read: larger ones count as the largest sixteen-bit number. -/
def number (ds : Digits) : Nat := min Word.max ds.value

/-- Cutting off after every digit is cutting off once, behind the last. -/
theorem foldl_capped (ds : Digits) (n : Nat) :
    ds.foldl (fun n d => min Word.max (n * 10 + d.val)) (min Word.max n) =
      min Word.max (ds.foldl (fun n d => n * 10 + d.val) n) := by
  induction ds generalizing n with
  | nil => rfl
  | cons d ds ih =>
    have hstep : min Word.max (min Word.max n * 10 + d.val) = min Word.max (n * 10 + d.val) := by
      rw [Word.max]
      omega
    rw [List.foldl_cons, hstep, ih, List.foldl_cons]

/-- What has been read of a number behind its last digit. -/
theorem foldl_number (ds : Digits) :
    ds.foldl (fun n d => min Word.max (n * 10 + d.val)) 0 = ds.number :=
  ds.foldl_capped 0

/-- A digit lies in the range of the parameter bytes, and is neither a colon nor a semicolon. -/
theorem byte_range (d : Fin 10) :
    0x30 ≤ byte d ∧ byte d < 0x3a ∧ (byte d).toNat - 0x30 = d.val := by
  revert d
  decide

theorem lt_of_mem_bytes {ds : Digits} {b : UInt8} (hb : b ∈ ds.bytes) : b < 0x80 := by
  obtain ⟨d, -, rfl⟩ := List.mem_map.mp hb
  exact UInt8.lt_trans (byte_range d).2.1 (by decide)

end Digits

/-- Numbers as they are written one behind the other. -/
def written (numbers : List Digits) : List UInt8 := [0x3b].intercalate (numbers.map Digits.bytes)

theorem written_singleton (ds : Digits) : written [ds] = ds.bytes := List.intercalate_singleton

theorem written_cons_cons (ds ds' : Digits) (rest : List Digits) :
    written (ds :: ds' :: rest) = ds.bytes ++ 0x3b :: written (ds' :: rest) := by
  rw [written, List.map_cons, List.map_cons, List.intercalate_cons_cons, ← List.map_cons, ← written,
    List.append_assoc, List.singleton_append]

theorem lt_of_mem_written {numbers : List Digits} : ∀ b ∈ written numbers, b < 0x80 := by
  induction numbers with
  | nil => nofun
  | cons ds numbers ih =>
    cases numbers with
    | nil =>
      rw [written_singleton]
      exact fun b => Digits.lt_of_mem_bytes
    | cons ds' numbers =>
      rw [written_cons_cons]
      exact List.forall_mem_append.mpr
        ⟨fun b => Digits.lt_of_mem_bytes, List.forall_mem_cons.mpr ⟨by decide, ih⟩⟩

/-! ### Reading them -/

namespace Interpreter

/-- The part of a control sequence in which parameters are read. -/
def TakesParams (part : ControlPart) : Prop := part = .entry ∨ part = .params

variable {part : ControlPart} {h : Header}

/-- A digit or a semicolon is kept. -/
theorem step_param (hpart : TakesParams part) (h : Header) {b : UInt8} (hlow : 0x30 ≤ b)
    (hhigh : b < 0x3c) :
    step ⟨.control, .control part h⟩ b = (⟨.control, .control .params (h.param b)⟩, []) := by
  have hcancel : ¬ (b = 0x18 ∨ b = 0x1a) := by grind
  have hesc : ¬ b = 0x1b := by grind
  have htracker : Tracker.control.next b = .control := by
    simp only [Tracker.next]
    grind
  have hmachine : (Machine.control part h).step b = (.control .params (h.param b), []) := by
    simp only [Machine.step, if_neg hcancel, if_neg hesc, Machine.fromControl,
      if_neg (show ¬ b < 0x20 by grind), if_neg (show ¬ 0x7f ≤ b by grind),
      if_neg (show ¬ 0x40 ≤ b by grind)]
    rcases hpart with rfl | rfl <;> grind
  rw [step_ascii _ (by grind), hmachine, htracker]

/-- The final byte ends the sequence. -/
theorem step_final (hpart : TakesParams part) (h : Header) {b : UInt8} (hlow : 0x40 ≤ b)
    (hhigh : b ≤ 0x7e) : step ⟨.control, .control part h⟩ b = (fresh, h.dispatch b) := by
  have hcancel : ¬ (b = 0x18 ∨ b = 0x1a) := by grind
  have hesc : ¬ b = 0x1b := by grind
  have hpart' : ¬ part = .ignored := by
    rintro rfl
    rcases hpart with h | h <;> cases h
  have htracker : Tracker.control.next b = .ground := by
    simp only [Tracker.next]
    grind
  have hmachine : (Machine.control part h).step b = (.ground, h.dispatch b) := by
    simp only [Machine.step, if_neg hcancel, if_neg hesc, Machine.fromControl,
      if_neg (show ¬ b < 0x20 by grind), if_neg (show ¬ 0x7f ≤ b by grind), if_pos hlow,
      if_neg hpart']
  rw [step_ascii _ (by grind), hmachine, htracker]
  rfl

/-- The digits of a number are added up in the number that is being read. -/
theorem run_digits (hpart : TakesParams part) (hroom : h.params.isFull = false) (ds : Digits) :
    ∃ part', TakesParams part' ∧
      run ds.bytes ⟨.control, .control part h⟩ =
        (⟨.control, .control part' { h with params := { h.params with
          number := ds.foldl (fun n d => min Word.max (n * 10 + d.val)) h.params.number } }⟩,
          []) := by
  induction ds generalizing part h with
  | nil => exact ⟨part, hpart, rfl⟩
  | cons d ds ih =>
    obtain ⟨hlow, hhigh, hvalue⟩ := Digits.byte_range d
    have hparam : h.param (Digits.byte d) = { h with params := h.params.digit d.val } := by
      have hsemicolon : ¬ Digits.byte d = 0x3b := by grind
      have hcolon : ¬ Digits.byte d = 0x3a := by grind
      rw [Header.param, if_neg (Bool.eq_false_iff.mp hroom), if_neg hsemicolon, if_neg hcolon,
        hvalue]
    have hparams : TakesParams .params := .inr rfl
    obtain ⟨part', hpart', hrest⟩ :=
      ih hparams (h := { h with params := h.params.digit d.val }) hroom
    refine ⟨part', hpart', ?_⟩
    rw [Digits.bytes, List.map_cons, ← Digits.bytes, run,
      step_param hpart h hlow (by grind), hparam, hrest]
    rfl

/-- A semicolon closes the number and begins the next. -/
theorem step_semicolon (hpart : TakesParams part) (hroom : h.params.isFull = false) :
    step ⟨.control, .control part h⟩ 0x3b =
      (⟨.control, .control .params { h with params := h.params.closeGroup }⟩, []) := by
  rw [step_param hpart h (by decide) (by decide), Header.param,
    if_neg (Bool.eq_false_iff.mp hroom), if_pos rfl]

/-- Behind a number, there is room as long as its groups do not fill the limit. -/
theorem isFull_reading {groups : List (List Nat)} (h : groups.flatten.length < Parameters.limit)
    (n : Nat) : Parameters.isFull { groups := groups, number := n } = false := by
  rw [Parameters.isFull, Parameters.count, List.length_nil, Nat.add_zero]
  exact beq_false_of_ne (Nat.ne_of_lt h)

/-- **Numbers are read one group each**, behind the groups that are closed already. -/
theorem run_written (hpart : TakesParams part) {groups : List (List Nat)} (ds : Digits)
    {rest : List Digits} (hroom : groups.flatten.length + rest.length < Parameters.limit) :
    ∃ part' params, TakesParams part' ∧
      run (written (ds :: rest)) ⟨.control, .control part { params := { groups := groups } }⟩ =
        (⟨.control, .control part' { params := params }⟩, []) ∧
      params.isFull = false ∧
      params.closeGroup.groups = groups ++ (ds :: rest).map fun ds => [ds.number] := by
  induction rest generalizing part groups ds with
  | nil =>
    obtain ⟨part', hpart', hdigits⟩ :=
      run_digits (h := { params := { groups := groups } }) hpart (isFull_reading hroom 0) ds
    rw [← written_singleton, ds.foldl_number] at hdigits
    exact ⟨part', _, hpart', hdigits, isFull_reading hroom ds.number, rfl⟩
  | cons ds' rest ih =>
    have hless : groups.flatten.length < Parameters.limit := by omega
    obtain ⟨part₁, hpart₁, hdigits⟩ :=
      run_digits (h := { params := { groups := groups } }) hpart (isFull_reading hless 0) ds
    rw [ds.foldl_number] at hdigits
    have hclosed := step_semicolon (h := { params := { groups := groups, number := ds.number } })
      hpart₁ (isFull_reading hless ds.number)
    have hroom' : (groups ++ [[ds.number]]).flatten.length + rest.length < Parameters.limit := by
      rw [List.flatten_append, List.flatten_singleton, List.length_append, List.length_singleton]
      rw [List.length_cons] at hroom
      omega
    obtain ⟨part', params, hpart', hrest, hfull, hgroups⟩ := ih (.inr rfl) ds' hroom'
    refine ⟨part', params, hpart', ?_, hfull, ?_⟩
    · rw [written_cons_cons, run_append, hdigits, run, hclosed]
      dsimp only
      rw [Parameters.closeGroup, List.nil_append, hrest]
      rfl
    · rw [hgroups, List.append_assoc]
      rfl

/-- **A control sequence of numbers** hands on one group for each, and nothing is in progress behind
it. -/
theorem run_numbers (ds : Digits) (rest : List Digits) (hroom : rest.length < Parameters.limit)
    {final : UInt8} (hlow : 0x40 ≤ final) (hhigh : final ≤ 0x7e) :
    fresh.run ([0x1b, 0x5b] ++ written (ds :: rest) ++ [final]) =
      (fresh, [.control ((ds :: rest).map fun ds => [ds.number]) [] final]) := by
  have hopen : fresh.run [0x1b, 0x5b] = (⟨.control, .control .entry {}⟩, []) := rfl
  have hnone : ([] : List (List Nat)).flatten.length + rest.length < Parameters.limit := by
    rwa [List.flatten_nil, List.length_nil, Nat.zero_add]
  obtain ⟨part, params, hpart, hrun, hfull, hgroups⟩ :=
    run_written (.inl rfl : TakesParams .entry) ds hnone
  have hdispatch : Header.dispatch { params := params } final =
      [.control ((ds :: rest).map fun ds => [ds.number]) [] final] := by
    rw [Header.dispatch, hfull, hgroups]
    rfl
  rw [run_append, run_append, hopen]
  simp only [hrun, run, step_final hpart _ hlow hhigh, hdispatch, List.nil_append, List.append_nil]

end Interpreter

end Escape

/-! ### Addresses -/

/-- What a control sequence can name by numbers. -/
inductive Address where
  /-- `CSI row ; col H`. -/
  | place (row col : Escape.Digits)
  /-- `CSI col G`. -/
  | column (col : Escape.Digits)
  /-- `CSI row d`. -/
  | row (row : Escape.Digits)
  /-- `CSI top ; bottom r`: the rows of the scroll region. -/
  | margins (top bottom : Escape.Digits)
deriving DecidableEq, Repr

namespace Address

/-- The numbers, as they are written. -/
def numbers : Address → List Escape.Digits
  | .place r c => [r, c]
  | .column c => [c]
  | .row r => [r]
  | .margins t b => [t, b]

/-- The byte that ends the sequence. -/
def final : Address → UInt8
  | .place _ _ => 0x48
  | .column _ => 0x47
  | .row _ => 0x64
  | .margins _ _ => 0x72

/-- The bytes of the sequence. -/
def bytes (a : Address) : List UInt8 := [0x1b, 0x5b] ++ Escape.written a.numbers ++ [a.final]

/-- The instruction that the sequence is read as. -/
def instruction : Address → Instruction
  | .place r c => .moveCursor (max r.number 1) (max c.number 1)
  | .column c => .moveToColumn (max c.number 1)
  | .row r => .moveToRow (max r.number 1)
  | .margins t b => .setMargins (max t.number 1) b.number

/-- The index of a row or column that is counted from one, among so many; zero counts as one, and
what lies beyond the last as the last. -/
def index (n extent : Nat) : Nat := min (max n 1) extent - 1

/-- The scroll region between two rows that are counted from one, on a screen of so many rows.  A
last row of zero is the last of the screen.  The region has two rows at least and fits the screen,
or else it is the whole screen. -/
def region (top bottom rows : Nat) : Margins :=
  let first := max top 1
  let last := if bottom = 0 then rows else bottom
  if first < last ∧ last ≤ rows then ⟨first - 1, last - 1⟩ else ⟨0, rows - 1⟩

/-- The screen with the cursor where the address says, or the scroll region and the cursor in the
top left corner. -/
def goTo (s : Screen) : Address → Screen
  | .place r c =>
    { s with
      cursor := ⟨index r.number s.dims.rows, index c.number s.dims.cols⟩
      pendingWrap := false }
  | .column c =>
    { s with cursor := ⟨s.cursor.row, index c.number s.dims.cols⟩, pendingWrap := false }
  | .row r => { s with cursor := ⟨index r.number s.dims.rows, s.cursor.col⟩, pendingWrap := false }
  | .margins t b =>
    { s with
      margins := region t.number b.number s.dims.rows
      cursor := .origin
      pendingWrap := false }

/-! ### Reading an address -/

theorem final_range (a : Address) : 0x40 ≤ a.final ∧ a.final ≤ 0x7e := by
  cases a <;> exact ⟨by simp [final], by simp [final]⟩

theorem lt_of_mem_bytes (a : Address) : ∀ b ∈ a.bytes, b < 0x80 := by
  have hfinal : a.final < 0x80 := UInt8.lt_of_le_of_lt a.final_range.2 (by decide)
  refine List.forall_mem_append.mpr ⟨List.forall_mem_append.mpr ⟨by simp, ?_⟩,
    List.forall_mem_singleton.mpr hfinal⟩
  exact fun b => Escape.lt_of_mem_written b

theorem bytes_ne_nil (a : Address) : a.bytes ≠ [] := List.cons_ne_nil _ _

/-- **An address is read** as one instruction. -/
theorem read_bytes (a : Address) : Reader.fresh.read a.bytes = (.fresh, [a.instruction]) := by
  have hrun : Escape.Interpreter.fresh.run a.bytes =
      (.fresh, [.control (a.numbers.map fun ds => [ds.number]) [] a.final]) := by
    obtain ⟨hlow, hhigh⟩ := a.final_range
    rw [bytes]
    -- at most two numbers are far from the limit
    have htwo : 1 < Escape.Parameters.limit := by decide
    cases a with
    | place r c => exact Escape.Interpreter.run_numbers r [c] htwo hlow hhigh
    | column c => exact Escape.Interpreter.run_numbers c [] (Nat.lt_of_succ_lt htwo) hlow hhigh
    | row r => exact Escape.Interpreter.run_numbers r [] (Nat.lt_of_succ_lt htwo) hlow hhigh
    | margins t b => exact Escape.Interpreter.run_numbers t [b] htwo hlow hhigh
  rw [Reader.read, Reader.fresh, hrun]
  cases a <;> rfl

/-! ### Going there -/

/-- The nearest place to one that is counted from one. -/
theorem clamp_eq (d : Dimensions) (row col : Nat) :
    d.clamp ⟨max row 1 - 1, max col 1 - 1⟩ = ⟨index row d.rows, index col d.cols⟩ := by
  have hindex : ∀ n extent : Nat, min (max n 1 - 1) (extent - 1) = index n extent := by
    intro n extent
    rw [index]
    omega
  exact congrArg₂ Position.mk (hindex row d.rows) (hindex col d.cols)

/-- Counted from one, or from zero and up to the last: the region is the same. -/
theorem region_eq {rows : Nat} (h : 0 < rows) (top bottom : Nat) :
    (if max top 1 - 1 < (if bottom = 0 then rows else bottom) - 1 ∧
        (if bottom = 0 then rows else bottom) - 1 ≤ rows - 1 then
      (⟨max top 1 - 1, (if bottom = 0 then rows else bottom) - 1⟩ : Margins)
    else ⟨0, rows - 1⟩) = region top bottom rows := by
  have hlast : 0 < if bottom = 0 then rows else bottom := by
    split <;> omega
  rw [region]
  refine if_congr ?_ rfl rfl
  omega

/-- A place of the grid, counted from one, is itself the nearest. -/
theorem index_succ {i extent : Nat} (h : i < extent) : index (i + 1) extent = i := by
  rw [index]
  omega

/-- **The instruction goes where the address says.** -/
theorem obey?_instruction {s : Screen} (h : s.WellFormed) (a : Address) :
    a.instruction.obey? s = some (a.goTo s) := by
  have hmove : ∀ row col : Nat, s.moveCursor (max row 1 - 1) (max col 1 - 1) =
      { s with cursor := ⟨index row s.dims.rows, index col s.dims.cols⟩, pendingWrap := false } :=
    fun row col => by rw [Screen.moveCursor, clamp_eq]
  cases a with
  | place r c => exact congrArg some (hmove r.number c.number)
  | column c =>
    have hcolumn := hmove (s.cursor.row + 1) c.number
    rw [index_succ h.row_lt, Nat.max_eq_left (Nat.le_add_left 1 _), Nat.add_sub_cancel] at hcolumn
    exact congrArg some hcolumn
  | row r =>
    have hrow := hmove r.number (s.cursor.col + 1)
    rw [index_succ h.col_lt, Nat.max_eq_left (Nat.le_add_left 1 _), Nat.add_sub_cancel] at hrow
    exact congrArg some hrow
  | margins t b =>
    have horigin : s.dims.clamp ⟨0, 0⟩ = .origin := s.dims.clamp_origin
    simp only [instruction, Instruction.obey?, goTo, Screen.setMargins, region_eq h.rows_pos,
      Screen.moveCursor, horigin]

/-- An address leaves nothing in the outcome. -/
theorem ofInstructions_instruction (a : Address) :
    Outcome.ofInstructions [a.instruction] = .none := by
  cases a <;> rfl

/-- With no sequence in progress, an address is read behind what was held back. -/
theorem feed_bytes {r : Reader} (hr : r.interpreter = .fresh) (hh : r.decoder.Holds)
    (a : Address) : r.feed a.bytes = (.fresh, r.finish.2 ++ [a.instruction]) := by
  rw [Reader.feed_ascii hr hh a.bytes_ne_nil a.lt_of_mem_bytes, a.read_bytes]
  obtain ⟨decoder, interpreter⟩ := r
  obtain rfl : interpreter = .fresh := hr
  rfl

/-- So the screen goes where the address says, once what was held back is shown. -/
theorem feed?_bytes {e : Emulator} (hi : e.interpreter = .fresh) (hh : e.decoder.Holds)
    (h : e.screen.WellFormed) (a : Address) :
    e.feed? a.bytes = e.finish?.map fun (e', o) => ({ screen := a.goTo e'.screen }, o) := by
  rw [Emulator.feed?_eq, Emulator.finish?_eq, feed_bytes (r := e.reader) hi hh, Reader.perform?,
    Reader.perform?, Screen.obeyAll?_append, Outcome.ofInstructions_append,
    ofInstructions_instruction, Outcome.append_none, Option.map_map]
  cases hs : e.screen.obeyAll? e.reader.finish.2 with
  | none => rfl
  | some s =>
    have hgo : s.obeyAll? [a.instruction] = some (a.goTo s) := by
      rw [Screen.obeyAll?, obey?_instruction (h.obeyAll? hs)]
      rfl
    rw [Option.bind_some, hgo]
    rfl

end Address

namespace Parser

variable {p : Parser}

/-- **Numbers in a control sequence.**  Feed an address, in any chunks, to a parser in the ground
state.

* If no byte is held back, the screen is the same but for the cursor, or the scroll region and the
  cursor, which are where the address says, and for a pending wrap, which is disarmed.  The outcome
  is empty and the parser, but for registers, is at rest.
* In any case it is so once what was held back is shown, as at the end of the stream. -/
theorem feedAll?_address (hp : p.Grounded) (h : p.screen.WellFormed) (a : Address)
    {chunks : List (List UInt8)} (hchunks : chunks.flatten = a.bytes) :
    (p.decoder.held = [] →
        (p.feedAll? chunks).map (fun (p', o) => (p'.emulator, o)) =
          some ({ screen := a.goTo p.screen }, .none)) ∧
      (p.feedAll? chunks).map (fun (p', o) => (p'.emulator, o)) =
        p.finish?.map fun (p', o) => ({ screen := a.goTo p'.screen }, o) := by
  have hfeed : (p.feedAll? chunks).map (fun (p', o) => (p'.emulator, o)) =
      p.finish?.map fun (p', o) => ({ screen := a.goTo p'.screen }, o) := by
    have hne : chunks.flatten ≠ [] := hchunks ▸ a.bytes_ne_nil
    rw [feedAll?_emulator hp.clean, Emulator.feedAll?_flatten hne, hchunks,
      a.feed?_bytes hp.interpreter_eq hp.holds h, ← finish?_emulator hp.clean, Option.map_map]
    rfl
  refine ⟨fun hheld => ?_, hfeed⟩
  rw [hfeed, finish?, Decoder.finish, hheld]
  rfl

/-- A row beyond the largest sixteen-bit number, and a column with leading zeros. -/
def farPlace : Address := .place [6, 5, 5, 3, 7] [0, 0, 4]

/-- Its bytes, cut within both numbers. -/
def farPlaceChunks : List (List UInt8) :=
  [[0x1b, 0x5b, 0x36, 0x35], [0x35, 0x33, 0x37, 0x3b, 0x30], [], [0x30, 0x34, 0x48]]

/-- A full row has armed a wrap; the cursor goes to the last row and to the fourth column. -/
theorem feedAll?_address_far :
    ∃ p : Parser, (ofDimensions ⟨3, 5⟩).operate? (.call (.feed [0x61, 0x62, 0x63, 0x64, 0x65])) =
        some p ∧
      p.screen.pendingWrap = true ∧
      (p.feedAll? farPlaceChunks).map (fun (p', o) => (p'.emulator, o)) =
        some ({ screen := { p.screen with cursor := ⟨2, 3⟩, pendingWrap := false } }, .none) := by
  have hrun : ((ofDimensions ⟨3, 5⟩).operate?
      (.call (.feed [0x61, 0x62, 0x63, 0x64, 0x65]))).map
      (fun p => (p.decoder.held, p.guarded.tracker, p.guarded.registers.phase,
        p.screen.pendingWrap, p.screen.dims)) =
      some ([], .ground, .ground, true, ⟨3, 5⟩) := by decide +kernel
  obtain ⟨p, hp, hstate⟩ := Option.map_eq_some_iff.mp hrun
  simp only [Prod.mk.injEq] at hstate
  obtain ⟨hheld, htracker, hphase, hwrap, hdims⟩ := hstate
  have hreach : p.Reachable := .operate (.start ⟨3, 5⟩) hp
  have hgo : farPlace.goTo p.screen = { p.screen with cursor := ⟨2, 3⟩, pendingWrap := false } := by
    have hrow : Address.index (Escape.Digits.number [6, 5, 5, 3, 7]) p.screen.dims.rows = 2 := by
      rw [hdims]
      rfl
    have hcol : Address.index (Escape.Digits.number [0, 0, 4]) p.screen.dims.cols = 3 := by
      rw [hdims]
      rfl
    rw [farPlace, Address.goTo, hrow, hcol]
  have haddress := (feedAll?_address (hreach.grounded htracker hphase) hreach.wellFormed.1 farPlace
    (show farPlaceChunks.flatten = farPlace.bytes from rfl)).1 hheld
  exact ⟨p, hp, hwrap, hgo ▸ haddress⟩

end Parser

end VirtualTerminal
