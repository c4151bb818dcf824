import VirtualTerminal.Codec.Event
import VirtualTerminal.Proofs.Commands
import VirtualTerminal.Proofs.Json.RoundTrip
import VirtualTerminal.Proofs.Size

/-!
# Event lines

An event is told as one line of text, and the line tells the whole event.

* `Token.ofJson?_toJson`, `Dimensions.ofJson?_toJson`, `Event.ofJson?_toJson`: each part of an event
  is read from the JSON value that is written for it.
* `Token.legible_toJson`, `Event.legible_toJson`: these values are told by their texts.

**Every event is one line, and is read back from it** (`Event.line_tells_all`).
-/

namespace VirtualTerminal

open Json (Legible)

/-! ### Numbers and sizes -/

/-- A number in its range is read from the value written for it. -/
theorem natBelow?_natJson {n bound : Nat} (h : n < bound) :
    (natJson n).natBelow? bound = some n := by
  rw [natJson, Json.natBelow?, if_pos ⟨by omega, by omega⟩, Int.toNat_natCast]

/-- A number of 64 bits is told by its text. -/
theorem legible_natJson {n : Nat} (h : n < UInt64.size) : Legible (natJson n) :=
  .int (by omega) (by simp only [UInt64.size] at h; omega)

namespace Dimensions

variable {d : Dimensions}

/-- What is read from the members of a size. -/
theorem ofJson?_members (cols rows : Json) :
    ofJson? (.object [("cols", cols), ("rows", rows)]) =
      (cols.word?).bind fun c => (rows.word?).bind fun r => some ⟨r, c⟩ := rfl

/-- **A size is read from its JSON value.** -/
theorem ofJson?_toJson (h : d.Fits) : ofJson? d.toJson = some d := by
  have hcols : (natJson d.cols).word? = some d.cols :=
    natBelow?_natJson (Nat.lt_succ_of_le h.cols_le)
  have hrows : (natJson d.rows).word? = some d.rows :=
    natBelow?_natJson (Nat.lt_succ_of_le h.rows_le)
  rw [toJson, ofJson?_members, hcols, Option.bind_some, hrows, Option.bind_some]

/-- A size is told by its text. -/
theorem legible_toJson (h : d.Fits) : Legible d.toJson := by
  have hfits : ∀ n ≤ Word.max, Legible (natJson n) := fun n hn =>
    legible_natJson (Nat.lt_of_le_of_lt hn (by decide))
  have hnames : ["cols", "rows"].Nodup := by decide
  refine .object hnames (List.forall_mem_cons.mpr ⟨hfits _ h.cols_le, ?_⟩)
  exact List.forall_mem_singleton.mpr (hfits _ h.rows_le)

end Dimensions

/-! ### Tokens -/

namespace Token

/-- **A token is read from its JSON value**, with or without a link and a mark. -/
theorem ofJson?_toJson (t : Token) : ofJson? t.toJson = some t := by
  obtain ⟨text, bold, italic, underline, dim, inverse, strikethrough, fg, bg, link, code⟩ := t
  cases link <;> cases code <;> rfl

/-- A text that may be missing is told where it is there. -/
theorem legible_optionalMember (name : String) (text : Option String) :
    ∀ m ∈ optionalMember name text, Legible m.2 := by
  cases text with
  | none => exact fun _ h => absurd h List.not_mem_nil
  | some s => exact List.forall_mem_singleton.mpr (.string s)

theorem names_optionalMember (name : String) (text : Option String) :
    ((optionalMember name text).map Prod.fst).Sublist [name] := by
  cases text with
  | none => exact List.nil_sublist _
  | some s => exact List.Sublist.refl _

/-- A token is told by its text: its members have different names. -/
theorem legible_toJson (t : Token) : Legible t.toJson := by
  refine .object ?_ ?_
  · have hall : memberNames.Nodup := by decide
    rw [List.map_append, List.map_append]
    exact hall.sublist
      (((List.Sublist.refl _).append (names_optionalMember "link" t.link)).append
        (names_optionalMember "code" t.code))
  · refine List.forall_mem_append.mpr ⟨List.forall_mem_append.mpr
      ⟨?_, legible_optionalMember _ _⟩, legible_optionalMember _ _⟩
    simp only [List.forall_mem_cons, Legible.string, Legible.bool, true_and]
    exact fun _ h => absurd h List.not_mem_nil

end Token

/-- What is read of each item is the item it was written for. -/
theorem mapM_map {α β : Type} {f : α → β} {g : β → Option α} {l : List α}
    (h : ∀ a ∈ l, g (f a) = some a) : (l.map f).mapM g = some l := by
  induction l with
  | nil => rfl
  | cons a l ih =>
    obtain ⟨ha, hl⟩ := List.forall_mem_cons.mp h
    rw [List.map_cons, List.mapM_cons, ha, ih hl]
    rfl

/-! ### Renderings -/

namespace TerminalOutput

/-- What is read from the members of a rendering. -/
theorem ofMembers?_members (rows : List Json) (content : String) (truncated : Bool) (size : Json)
    (backendName : String) (timestamp : Float) :
    ofMembers?
        [("tokens", .array rows), ("content", .string content), ("truncated", .bool truncated),
          ("terminal_size", size), ("backend_name", .string backendName),
          ("timestamp", .float timestamp)] =
      (rows.mapM rowOfJson?).bind fun tokens => (Dimensions.ofJson? size).bind fun size =>
        some ⟨tokens, content, truncated, size, backendName, timestamp⟩ := rfl

/-- **A rendering is read from its members**, row by row and token by token. -/
theorem ofMembers?_eq {o : TerminalOutput} (h : o.size.Fits) : ofMembers? o.members = some o := by
  have hrow : ∀ row ∈ o.tokens, rowOfJson? (.array (row.map Token.toJson)) = some row :=
    fun row _ => mapM_map fun t _ => t.ofJson?_toJson
  rw [members, ofMembers?_members, mapM_map hrow, Option.bind_some, Dimensions.ofJson?_toJson h,
    Option.bind_some]

/-- A rendering is told by its text, if its time is. -/
theorem legible_members {o : TerminalOutput} (h : o.size.Fits)
    (htime : Json.Numeral.read? (Json.Numeral.writeFloat o.timestamp) = some (.float o.timestamp)) :
    ∀ m ∈ o.members, Legible m.2 := by
  have hrows : Legible (.array (o.tokens.map fun row => .array (row.map Token.toJson))) := by
    refine .array (List.forall_mem_map.mpr fun row _ => .array (List.forall_mem_map.mpr ?_))
    exact fun t _ => t.legible_toJson
  simp only [members, List.forall_mem_cons, hrows, Legible.string, Legible.bool,
    Dimensions.legible_toJson h, Legible.float htime, true_and]
  exact fun _ h => absurd h List.not_mem_nil

end TerminalOutput

/-! ### Events -/

namespace Event

/-- The numbers of an event are in their ranges: those of a size have 16 bits, a number of bytes
has 64, and a code has 32 with its sign. -/
def Fits : Event → Prop
  | .output o => o.size.Fits
  | .binary _ size => size < UInt64.size
  | .exited (some code) => -2 ^ 31 ≤ code ∧ code < 2 ^ 31
  | _ => True

/-- The time of an event, if it has one, is read as it is written. -/
def Timed : Event → Prop
  | .output o =>
    Json.Numeral.read? (Json.Numeral.writeFloat o.timestamp) = some (.float o.timestamp)
  | _ => True

variable {e : Event}

section Members
variable (text : String) (part : Json)

/-- The kind of an event says how its other members are read. -/
theorem ofJson?_output {ms : Json.Members} (h : ms.erase "type" = ms) :
    ofJson? (.object (("type", .string "terminal_output") :: ms)) =
      (TerminalOutput.ofMembers? ms).map .output :=
  congrArg (ofMembers? "terminal_output") h

theorem ofJson?_binary :
    ofJson? (.object [("type", .string "binary_content"), ("message", .string text),
      ("data_size", part)]) = (part.size?).bind fun size => some (.binary text size) := rfl

theorem ofJson?_exited :
    ofJson? (.object [("type", .string "exited"), ("code", part)]) =
      (Json.optional? exitCode? part).map .exited := rfl

/-- A code of 32 bits is read, and so is a missing one. -/
theorem optional?_exitCode {code : Option Int} (h : (exited code).Fits) :
    Json.optional? exitCode? (optionJson Json.int code) = some code := by
  cases code with
  | none => rfl
  | some code =>
    obtain ⟨hlow, hhigh⟩ : -2 ^ 31 ≤ code ∧ code < 2 ^ 31 := h
    have hread : exitCode? (.int code) = some code := if_pos ⟨by omega, by omega⟩
    show (exitCode? (.int code)).map some = some (some code)
    rw [hread, Option.map_some]

end Members

/-- **An event is read from its JSON value.** -/
theorem ofJson?_toJson (h : e.Fits) : ofJson? e.toJson = some e := by
  cases e with
  | output o =>
    rw [toJson, kind, members, ofJson?_output rfl, TerminalOutput.ofMembers?_eq h, Option.map_some]
  | binary message size =>
    have hsize : (natJson size).size? = some size := natBelow?_natJson h
    rw [toJson, kind, members, ofJson?_binary, hsize, Option.bind_some]
  | title text => rfl
  | exited code =>
    rw [toJson, kind, members, ofJson?_exited, optional?_exitCode h, Option.map_some]
  | failed reason => rfl

/-- An event is told by its text. -/
theorem legible_toJson (h : e.Fits) (htime : e.Timed) : Legible e.toJson := by
  have hmember : ∀ {kind name : String} {part : Json}, name ≠ "type" → Legible part →
      Legible (.object [("type", .string kind), (name, part)]) := by
    intro kind name part hname hpart
    refine .object ?_ (List.forall_mem_cons.mpr ⟨.string _, List.forall_mem_singleton.mpr hpart⟩)
    simpa using hname.symm
  cases e with
  | output o =>
    have hnames : ("type" :: TerminalOutput.memberNames).Nodup := by decide
    exact .object hnames
      (List.forall_mem_cons.mpr ⟨.string _, TerminalOutput.legible_members h htime⟩)
  | binary message size =>
    have hnames : ["type", "message", "data_size"].Nodup := by decide
    refine .object hnames (List.forall_mem_cons.mpr ⟨.string _, List.forall_mem_cons.mpr
      ⟨.string _, List.forall_mem_singleton.mpr (legible_natJson h)⟩⟩)
  | title text => exact hmember (by decide) (.string text)
  | exited code =>
    refine hmember (by decide) ?_
    cases code with
    | none => exact .null
    | some code =>
      obtain ⟨hlow, hhigh⟩ : -2 ^ 31 ≤ code ∧ code < 2 ^ 31 := h
      exact .int (by omega) (by omega)
  | failed reason => exact hmember (by decide) (.string reason)

/-- **An event is one line, and the line tells all of it.**  No byte of the line is a control
character, whatever the event is.  What is read from the line is the event, if its numbers are in
their ranges and its time is read as it is written. -/
theorem line_tells_all (e : Event) :
    (∀ b ∈ Utf8.encode e.line.toList, 0x20 ≤ b) ∧
      (e.Fits → e.Timed → ofLine? e.line = some e) := by
  refine ⟨Utf8.le_of_mem_encode ?_, fun h htime => ?_⟩
  · rw [line, Json.compact, String.toList_ofList]
    exact Json.le_of_mem_compactChars e.toJson
  · rw [ofLine?, line, Json.read?_compact (legible_toJson h htime), Option.bind_some]
    exact ofJson?_toJson h

/-- A rendering with a link, a mark, and texts that have to be escaped. -/
def quotedRendering : TerminalOutput where
  tokens := [[{ text := "\"\\", link := some "https://a/\u0001" }, { code := some "prompt" }], []]
  content := "\"\\\n"
  truncated := true
  size := ⟨2, 80⟩
  backendName := "subprocess"
  timestamp := 1.5

/-- A rendering whose line has to escape quotes, backslashes and a control character. -/
theorem line_tells_all_quoted :
    ((output quotedRendering).Fits ∧ (output quotedRendering).Timed) ∧
      (∀ b ∈ Utf8.encode (output quotedRendering).line.toList, 0x20 ≤ b) ∧
      ofLine? (output quotedRendering).line = some (output quotedRendering) := by
  have hfits : (output quotedRendering).Fits := ⟨by decide, by decide⟩
  have htimed : (output quotedRendering).Timed := by rfl
  obtain ⟨hline, hread⟩ := line_tells_all (output quotedRendering)
  exact ⟨⟨hfits, htimed⟩, hline, hread hfits htimed⟩

end Event

end VirtualTerminal
