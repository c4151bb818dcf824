import Mathlib.Data.List.DropRight
import Mathlib.Data.List.SplitBy
import VirtualTerminal.Proofs.Cells
import VirtualTerminal.Token

/-!
# Tokens — a line and its tokens

The tokens of a line are the maximal runs of its shown cells, which are the cells up to the last one
that is not blank, without spacers.  So a line can be read off its tokens character by character, and
a token ends exactly where the look changes (`Line.expand_tokens`, `Line.cutAt_tokens_iff`).

The content of a screen has one line for each row, because no cell holds a newline: a control
character is never shown (`Emulator.all_uncontrolled`).

**Tokens and content say the same** (`Emulator.tokens_transcribe_content`).
-/

namespace VirtualTerminal

/-! ### Looks -/

namespace Cell

/-- The cells have the same style, link and mark. -/
theorem sameRun_iff {a b : Cell} :
    a.sameRun b = true ↔ a.style = b.style ∧ a.link = b.link ∧ a.mark = b.mark := by
  simp only [sameRun, Bool.and_eq_true, beq_iff_eq, and_assoc]

theorem sameRun_eq_false_iff {a b : Cell} :
    a.sameRun b = false ↔ a.style ≠ b.style ∨ a.link ≠ b.link ∨ a.mark ≠ b.mark := by
  rw [← Bool.not_eq_true, sameRun_iff, not_and_or, not_and_or]

end Cell

namespace Token

/-- The token without its text. -/
def look (t : Token) : Token := { t with text := "" }

/-- The characters of a token, each with the look of the token. -/
def expand (t : Token) : List (Char × Token) := t.text.toList.map fun c => (c, t.look)

/-- The characters of cells, each with the look of its cell. -/
def ofCells (cells : List Cell) : List (Char × Token) :=
  cells.map fun c => (c.character, ofCell c)

/-- One of the tokens ends behind so many characters. -/
def CutAt (ts : List Token) (n : Nat) : Prop :=
  ∃ before after, ts = before ++ after ∧ (before.flatMap expand).length = n

theorem ofCell_eq_of_sameRun {a b : Cell} (h : a.sameRun b = true) : ofCell a = ofCell b := by
  obtain ⟨hstyle, hlink, hmark⟩ := Cell.sameRun_iff.mp h
  rw [ofCell, ofCell, hstyle, hlink, hmark]

end Token

/-! ### Runs -/

namespace Line

theorem exists_splitBy_cons (d : Cell) (rest : List Cell) :
    ∃ run others, (d :: rest).splitBy Cell.sameRun = (d :: run) :: others := by
  have hflatten := List.flatten_splitBy Cell.sameRun (d :: rest)
  have hne := List.nil_notMem_splitBy Cell.sameRun (d :: rest)
  generalize (d :: rest).splitBy Cell.sameRun = runs at hflatten hne
  obtain _ | ⟨_ | ⟨c, run⟩, others⟩ := runs
  · cases hflatten
  · exact absurd List.mem_cons_self hne
  · obtain rfl := (List.cons.inj hflatten).1
    exact ⟨run, others, rfl⟩

theorem splitBy_cons_of_differ {c d : Cell} (h : c.sameRun d = false) (rest : List Cell) :
    (c :: d :: rest).splitBy Cell.sameRun = [c] :: (d :: rest).splitBy Cell.sameRun :=
  List.splitBy_append_cons (l := [c]) rest fun x hx => by
    obtain rfl := Option.some.inj hx
    exact h

theorem splitBy_cons_of_sameRun {c d : Cell} (h : c.sameRun d = true) {rest run : List Cell}
    {others : List (List Cell)}
    (hrest : (d :: rest).splitBy Cell.sameRun = (d :: run) :: others) :
    (c :: d :: rest).splitBy Cell.sameRun = (c :: d :: run) :: others := by
  obtain ⟨hflatten, hne, hchains, hcuts⟩ := List.splitBy_eq_iff.mp hrest
  obtain ⟨hrun, hothers⟩ := List.forall_mem_cons.mp hchains
  obtain ⟨hcut, hcuts⟩ := List.isChain_cons.mp hcuts
  refine List.splitBy_eq_iff.mpr ⟨congrArg (c :: ·) hflatten, ?_, ?_, ?_⟩
  · exact List.not_mem_cons_of_ne_of_not_mem nofun (List.not_mem_of_not_mem_cons hne)
  · exact List.forall_mem_cons.mpr ⟨List.isChain_cons_cons.mpr ⟨h, hrun⟩, hothers⟩
  · refine List.isChain_cons.mpr ⟨fun next hnext => ?_, hcuts⟩
    obtain ⟨ha, hb, hdiffer⟩ := hcut next hnext
    exact ⟨List.cons_ne_nil _ _, hb, hdiffer⟩

/-- **The runs** are what splitting cells where the look changes gives. -/
theorem runs_eq (cells : List Cell) : runs cells = cells.splitBy Cell.sameRun := by
  induction cells with
  | nil => rfl
  | cons c rest ih =>
    cases rest with
    | nil => rfl
    | cons d rest =>
      obtain ⟨run, others, hsplit⟩ := exists_splitBy_cons d rest
      rw [runs, ih, hsplit]
      dsimp only
      split
      · exact (splitBy_cons_of_sameRun ‹_› hsplit).symm
      · rw [splitBy_cons_of_differ (Bool.eq_false_iff.mpr ‹_›), hsplit]

theorem flatten_runs (cells : List Cell) : (runs cells).flatten = cells := by
  rw [runs_eq, List.flatten_splitBy]

theorem ne_nil_of_mem_runs {cells run : List Cell} (h : run ∈ runs cells) : run ≠ [] :=
  List.ne_nil_of_mem_splitBy (runs_eq cells ▸ h)

/-- Where the look changes, one run ends and the next begins. -/
theorem runs_append_of_differ {front rest : List Cell} {a b : Cell} (h : a.sameRun b = false) :
    runs ((front ++ [a]) ++ b :: rest) = runs (front ++ [a]) ++ runs (b :: rest) := by
  rw [runs_eq, runs_eq, runs_eq]
  refine List.splitBy_append_cons rest fun x hx => ?_
  rw [List.getLast?_concat] at hx
  exact Option.some.inj hx ▸ h

/-- Where one run ends and the next begins, the look changes. -/
theorem differ_of_runs_eq_append {cells front rest : List Cell} {xs ys : List (List Cell)}
    {a b : Cell} (hruns : runs cells = xs ++ ys) (hleft : xs.flatten = front ++ [a])
    (hright : ys.flatten = b :: rest) : a.sameRun b = false := by
  obtain rfl | ⟨xs, run, rfl⟩ := List.eq_nil_or_concat' xs
  · exact absurd hleft.symm (List.append_ne_nil_of_right_ne_nil _ (List.cons_ne_nil _ _))
  · obtain _ | ⟨next, ys⟩ := ys
    · cases hright
    · have hcuts := List.isChain_getLast_head_splitBy Cell.sameRun cells
      rw [← runs_eq, hruns] at hcuts
      obtain ⟨-, -, hcut⟩ := List.isChain_append.mp hcuts
      obtain ⟨ha, hb, hdiffer⟩ := hcut run List.getLast?_concat next rfl
      have hlast : run.getLast ha = a := by
        have hlast := congrArg List.getLast? hleft
        rw [List.flatten_append, List.flatten_singleton, List.getLast?_concat,
          List.getLast?_append_of_ne_nil _ ha, List.getLast?_eq_some_getLast ha] at hlast
        exact Option.some.inj hlast
      have hhead : next.head hb = b := by
        obtain ⟨c, next, rfl⟩ := List.exists_cons_of_ne_nil hb
        exact (List.cons.inj hright).1
      rwa [hlast, hhead] at hdiffer

/-- The cells of a run look alike. -/
theorem ofCell_eq_of_isChain {c : Cell} {rest : List Cell}
    (h : (c :: rest).IsChain fun a b => a.sameRun b = true) :
    ∀ d ∈ rest, Token.ofCell d = Token.ofCell c := by
  induction rest generalizing c with
  | nil => exact List.forall_mem_nil _
  | cons d rest ih =>
    obtain ⟨hsame, hrest⟩ := List.isChain_cons_cons.mp h
    have hlook := Token.ofCell_eq_of_sameRun hsame
    refine List.forall_mem_cons.mpr ⟨hlook.symm, fun x hx => ?_⟩
    rw [ih hrest x hx, hlook]

theorem expand_runToken {cells run : List Cell} (h : run ∈ runs cells) :
    (runToken run).expand = Token.ofCells run := by
  rw [runs_eq] at h
  have hchain := List.isChain_of_mem_splitBy h
  cases run with
  | nil => rfl
  | cons c rest =>
    have hlook := ofCell_eq_of_isChain hchain
    rw [Token.expand, runToken, String.toList_ofList, List.map_map]
    refine List.map_congr_left fun d hd => ?_
    rcases List.mem_cons.mp hd with rfl | hd
    · rfl
    · exact congrArg (Prod.mk d.character) (hlook d hd).symm

theorem expand_runTokens {cells : List Cell} {rs : List (List Cell)}
    (h : ∀ run ∈ rs, run ∈ runs cells) :
    (rs.map runToken).flatMap Token.expand = Token.ofCells rs.flatten := by
  induction rs with
  | nil => rfl
  | cons run rs ih =>
    obtain ⟨hrun, hrs⟩ := List.forall_mem_cons.mp h
    rw [List.map_cons, List.flatMap_cons, expand_runToken hrun, ih hrs, List.flatten_cons,
      Token.ofCells, Token.ofCells, Token.ofCells, List.map_append]

/-! ### Tokens of a line -/

/-- A line is its trimmed part and blanks. -/
theorem exists_trimmed (l : Line) :
    ∃ blanks, l = trimmed l ++ blanks ∧ (∀ c ∈ blanks, c.isBlank = true) ∧
      ∀ c ∈ (trimmed l).getLast?, c.isBlank = false := by
  have htrimmed : trimmed l = l.rdropWhile Cell.isBlank := rfl
  refine ⟨l.rtakeWhile Cell.isBlank, ?_, fun c => List.mem_rtakeWhile_imp, fun c hc => ?_⟩
  · rw [htrimmed, List.rdropWhile_append_rtakeWhile]
  · obtain ⟨hne, rfl⟩ := List.mem_getLast?_eq_getLast hc
    exact Bool.eq_false_iff.mpr (List.rdropWhile_last_not _ _ hne)

/-- **Character by character the tokens are the shown cells.** -/
theorem expand_tokens (l : Line) : (tokens l).flatMap Token.expand = Token.ofCells (shown l) := by
  rw [tokens, expand_runTokens fun _ h => h, flatten_runs]

theorem text_ne_of_mem_tokens {l : Line} {t : Token} (h : t ∈ tokens l) : t.text ≠ "" := by
  obtain ⟨run, hrun, rfl⟩ := List.mem_map.mp h
  obtain ⟨c, rest, rfl⟩ := List.exists_cons_of_ne_nil (ne_nil_of_mem_runs hrun)
  exact fun htext => List.cons_ne_nil _ _ (String.ofList_eq_empty_iff.mp htext)

/-- The texts of the tokens make up the text of the line. -/
theorem join_tokens (l : Line) :
    String.join ((tokens l).map Token.text) = String.ofList (text l) := by
  have hchars : ∀ ts : List Token, ts.flatMap (fun t => t.text.toList) =
      (ts.flatMap Token.expand).map Prod.fst := by
    intro ts
    rw [List.map_flatMap]
    refine List.flatMap_congr fun t _ => ?_
    rw [Token.expand, List.map_map]
    exact (List.map_id _).symm
  refine String.toList_injective ?_
  rw [String.toList_join, List.flatMap_map, hchars, expand_tokens, Token.ofCells, List.map_map,
    String.toList_ofList]
  rfl

/-- **A token ends exactly where the look changes.** -/
theorem cutAt_tokens_iff {l : Line} {front rest : List Cell} {a b : Cell}
    (h : shown l = front ++ a :: b :: rest) :
    Token.CutAt (tokens l) (front.length + 1) ↔
      a.style ≠ b.style ∨ a.link ≠ b.link ∨ a.mark ≠ b.mark := by
  have hshown : shown l = (front ++ [a]) ++ b :: rest := by rw [h, List.append_cons]
  rw [← Cell.sameRun_eq_false_iff]
  constructor
  · rintro ⟨before, after, htokens, hlength⟩
    obtain ⟨xs, ys, hruns, rfl, rfl⟩ := List.map_eq_append_iff.mp htokens
    have hxs : ∀ run ∈ xs, run ∈ runs (shown l) := fun run hrun =>
      hruns ▸ List.mem_append_left _ hrun
    rw [expand_runTokens hxs, Token.ofCells, List.length_map] at hlength
    have hflatten := flatten_runs (shown l)
    rw [hruns, List.flatten_append, hshown] at hflatten
    obtain ⟨hleft, hright⟩ := List.append_inj hflatten (by simpa using hlength)
    exact differ_of_runs_eq_append hruns hleft hright
  · intro hdiffer
    refine ⟨(runs (front ++ [a])).map runToken, (runs (b :: rest)).map runToken, ?_, ?_⟩
    · rw [tokens, hshown, runs_append_of_differ hdiffer, List.map_append]
    · rw [expand_runTokens fun _ h => h, flatten_runs, Token.ofCells, List.length_map,
        List.length_append, List.length_singleton]

end Line

/-! ### Content -/

namespace Screen

/-- The content, split where a line ends. -/
def contentLines (s : Screen) : List String := (s.content.split '\n').toList.map (·.copy)

/-- Where no cell holds a control character, each line of the content is the text of a row. -/
theorem contentLines_eq {s : Screen} (h : s.All Uncontrolled) (hrows : s.lines ≠ []) :
    s.contentLines = s.lines.map fun l => String.ofList (Line.text l) := by
  have hnewline : ∀ t ∈ s.lines.map (fun l => String.ofList (Line.text l)), '\n' ∉ t.toList := by
    intro t ht hmem
    obtain ⟨l, hl, rfl⟩ := List.mem_map.mp ht
    rw [String.toList_ofList] at hmem
    obtain ⟨c, hc, hchar⟩ := List.mem_map.mp hmem
    obtain ⟨blanks, hline, -⟩ := Line.exists_trimmed l
    have hcell : c ∈ l := hline ▸ List.mem_append_left _ (List.mem_of_mem_filter hc)
    have hcontrol := h l hl c hcell
    rw [Uncontrolled, hchar] at hcontrol
    exact absurd hcontrol (by decide)
  have hne : s.lines.map (fun l => String.ofList (Line.text l)) ≠ [] := by simpa using hrows
  exact (String.toList_split_intercalate hnewline).trans (if_neg hne)

end Screen

namespace Emulator

/-- **Tokens and content say the same.**

* The tokens of a line, character by character, are its cells up to the last one that is not blank,
  without spacers; no token is empty, and of two such cells next to each other a token ends behind
  the first exactly if they differ in style, link or mark.
* After any feeds and resizes of a new emulator the content has one line for each row of the screen,
  and each is the text of the tokens of its row. -/
theorem tokens_transcribe_content :
    (∀ l : Line, ∃ kept blanks, l = kept ++ blanks ∧ (∀ c ∈ blanks, c.isBlank = true) ∧
      (∀ c ∈ kept.getLast?, c.isBlank = false) ∧
      (Line.tokens l).flatMap Token.expand = Token.ofCells (kept.filter fun c => !c.spacer) ∧
      (∀ t ∈ Line.tokens l, t.text ≠ "") ∧
      ∀ front a b rest, (kept.filter fun c => !c.spacer) = front ++ a :: b :: rest →
        (Token.CutAt (Line.tokens l) (front.length + 1) ↔
          a.style ≠ b.style ∨ a.link ≠ b.link ∨ a.mark ≠ b.mark)) ∧
    ∀ (d : Dimensions) (calls : List Call) (e : Emulator),
      (ofDimensions d).operateAll? (calls.map .call) = some e →
      e.screen.contentLines.length = e.screen.dims.rows ∧
      e.screen.contentLines = e.screen.tokens.map fun ts => String.join (ts.map Token.text) := by
  constructor
  · intro l
    obtain ⟨blanks, hline, hblanks, hlast⟩ := Line.exists_trimmed l
    exact ⟨Line.trimmed l, blanks, hline, hblanks, hlast, Line.expand_tokens l,
      fun t => Line.text_ne_of_mem_tokens, fun front a b rest => Line.cutAt_tokens_iff⟩
  · intro d calls e he
    obtain ⟨hw, hcells⟩ := all_uncontrolled he
    have hne : e.screen.lines ≠ [] := fun hnil => by
      have := hw.rows_pos
      rw [← hw.length_lines, hnil] at this
      cases this
    have hlines := Screen.contentLines_eq hcells hne
    refine ⟨by rw [hlines, List.length_map, hw.length_lines], ?_⟩
    rw [hlines, Screen.tokens, List.map_map]
    exact List.map_congr_left fun l _ => (Line.join_tokens l).symm

/-- A plain letter, two letters of which one takes two columns in bold, a line feed, and a row
more. -/
def boldAndWide : List Call :=
  [.feed [0x61, 0x1b, 0x5b, 0x31, 0x6d, 0x62, 0xe4, 0xb8, 0xad, 0x0d, 0x0a], .resize ⟨3, 6⟩]

/-- Three rows: the first has two tokens, the others have none. -/
theorem tokens_transcribe_boldAndWide :
    ∃ e, (ofDimensions ⟨2, 6⟩).operateAll? (boldAndWide.map .call) = some e ∧
      e.screen.tokens = [[{ text := "a" }, { text := "b中", bold := true }], [], []] ∧
      e.screen.contentLines = ["ab中", "", ""] ∧ e.screen.dims.rows = 3 := by
  have hrun : ((ofDimensions ⟨2, 6⟩).operateAll? (boldAndWide.map .call)).map
      (fun e => (e.screen.tokens, e.screen.dims.rows)) =
      some ([[{ text := "a" }, { text := "b中", bold := true }], [], []], 3) := by decide +kernel
  obtain ⟨e, he, hstate⟩ := Option.map_eq_some_iff.mp hrun
  obtain ⟨htokens, hrows⟩ := Prod.mk.inj hstate
  obtain ⟨-, hcontent⟩ := tokens_transcribe_content.2 ⟨2, 6⟩ boldAndWide e he
  refine ⟨e, he, htokens, ?_, hrows⟩
  rw [hcontent, htokens]
  decide

end Emulator

end VirtualTerminal
