import VirtualTerminal.Proofs.Pairing.Screen
import VirtualTerminal.Proofs.Raster.Refinement

/-!
# Editing — inserting, deleting and blanking characters

An edit of characters shifts or blanks cells of the cursor's line, which can part the halves of wide
glyphs, and then mends the line.  Mending goes from left to right, so of the two neighbours of a
cell it sees one as it has become and one as it was.  It leaves the same line as if all cells were
judged by their neighbours as they were (`Line.mend_eq_mended`).  For a first half is blanked only
where no spacer follows, and nothing but a spacer asks for the cell on its left.

So an edit is read off the line before it (`CharEdit.edits_and_mends`).
-/

namespace VirtualTerminal

/-! ### Mending at once -/

namespace Line

variable {l : Line} {c : Cell} {led followed : Bool}

/-- What becomes of a cell that has, or has not, the first half of a wide glyph on its left and a
spacer on its right. -/
def mendedCell (led followed : Bool) (c : Cell) : Cell :=
  if c.spacer = true ∧ led = false then { c with character := ' ', spacer := false }
  else if c.spacer = false ∧ Width.isWide c.character = true ∧ followed = false then
    { c with character := ' ' }
  else c

/-- The cell left of the column holds a wide character and is no spacer; `led` says so of the cell
before the line. -/
def ledAt (led : Bool) (l : Line) : Nat → Bool
  | 0 => led
  | col + 1 => leadAt l col

/-- The line with the halves of wide glyphs that have no partner blanked, each of them judged by the
neighbours it has in the line. -/
def mended (l : Line) : Line :=
  l.mapIdx fun col c => mendedCell (ledAt false l col) (spacerAt l (col + 1)) c

/-- A mended cell is a first half if it was one and a spacer follows. -/
theorem leads_mendedCell : leads (mendedCell led followed c) = (leads c && followed) := by
  rw [mendedCell]
  split
  · next hlost =>
    rw [leads_of_blank rfl, leads, hlost.1]
    rfl
  · split
    · next hlost =>
      rw [leads_of_blank rfl, hlost.2.2, Bool.and_false]
    · next hspacer hkept =>
      cases hlead : leads c with
      | false => rfl
      | true =>
        obtain ⟨hs, hwide⟩ := (Bool.and_eq_true _ _).mp hlead
        rw [Bool.not_eq_true'] at hs
        cases followed with
        | true => rfl
        | false => exact absurd ⟨hs, hwide, rfl⟩ hkept

/-- The first step of mending, where the cell before is already mended. -/
theorem mendAfter_cons {previous : Option Cell} {rest : Line}
    (h : previous.any leads = (led && c.spacer)) :
    mendAfter previous (c :: rest) =
      mendedCell led (spacerAt rest 0) c ::
        mendAfter (some (mendedCell led (spacerAt rest 0) c)) rest := by
  have hcell : (if c.spacer then if previous.any leads then c else c.withoutGlyph.unspaced
      else if leads c && !rest.head?.any Cell.spacer then c.withoutGlyph else c) =
      mendedCell led (spacerAt rest 0) c := by
    rw [mendedCell, spacerAt, ← List.head?_eq_getElem?, h]
    cases hs : c.spacer with
    | true => cases led <;> simp [Cell.withoutGlyph, Cell.unspaced]
    | false => simp [leads, hs, Cell.withoutGlyph]
  rw [mendAfter, hcell]

/-- Mending goes on from a cell that is mended itself: that is a first half exactly if it was one
and the line begins with a spacer. -/
theorem getElem?_mendAfter {previous : Option Cell}
    (h : previous.any leads = (led && spacerAt l 0)) (col : Nat) :
    (mendAfter previous l)[col]? =
      (l[col]?).map (mendedCell (ledAt led l col) (spacerAt l (col + 1))) := by
  induction l generalizing previous led col with
  | nil => rfl
  | cons c rest ih =>
    rw [mendAfter_cons h]
    cases col with
    | zero => rfl
    | succ col =>
      have hnext : (some (mendedCell led (spacerAt rest 0) c)).any leads =
          (leads c && spacerAt rest 0) := leads_mendedCell
      have hled : ledAt (leads c) rest col = leadAt (c :: rest) col := by
        cases col <;> rfl
      rw [List.getElem?_cons_succ, List.getElem?_cons_succ, ih hnext, hled]
      rfl

/-- **Mending from left to right is mending at once.** -/
theorem mend_eq_mended (l : Line) : mend l = mended l := by
  have hfirst : (none : Option Cell).any leads = (false && spacerAt l 0) := rfl
  refine List.ext_getElem? fun col => ?_
  rw [mend, getElem?_mendAfter hfirst, mended, List.getElem?_mapIdx]

end Line

/-! ### Edits -/

/-- An edit of characters at the cursor. -/
inductive CharEdit where
  | insertion
  | deletion
  | blanking
deriving DecidableEq, Repr

namespace CharEdit

/-- What the edit makes of `n` cells of a line from a column on.  An insertion puts blanks before
them and drops as many cells at the end, a deletion takes them out and appends as many blanks, and a
blanking overwrites them. -/
def onLine (e : CharEdit) (l : Line) (col n : Nat) (blank : Cell) : Line :=
  match e with
  | .insertion => (l.take col ++ List.replicate n blank ++ l.drop col).take l.length
  | .deletion => l.take col ++ l.drop (col + n) ++ List.replicate n blank
  | .blanking => l.mapIdx fun i c => if col ≤ i ∧ i < col + n then blank else c

/-- The edit of a screen. -/
def onScreen : CharEdit → Screen → Nat → Screen
  | .insertion => Screen.insertChars
  | .deletion => Screen.deleteChars
  | .blanking => Screen.eraseChars

/-- The edit of a raster. -/
def onRaster : CharEdit → Raster → Nat → Except Fault Raster
  | .insertion => Raster.insertChars
  | .deletion => Raster.deleteChars
  | .blanking => Raster.eraseChars

/-- A wrap that is pending stays so; only blanking leaves the cells where they are. -/
def keepsPending : CharEdit → Bool
  | .blanking => true
  | _ => false

section Line
variable {l : Line} {col n : Nat} {blank : Cell}

theorem onLine_insertion (h : col + n ≤ l.length) :
    insertion.onLine l col n blank = Line.insertBlanks l col n blank := by
  have hfront : (l.take col ++ List.replicate n blank).length = col + n := by
    rw [List.length_append, List.length_take_of_le (by omega), List.length_replicate]
  rw [onLine, List.take_append, hfront, List.take_of_length_le (hfront ▸ h), Line.insertBlanks,
    List.append_assoc, Nat.sub_sub]

theorem onLine_deletion : deletion.onLine l col n blank = Line.deleteCells l col n blank :=
  List.append_assoc ..

theorem onLine_blanking (h : col + n ≤ l.length) :
    blanking.onLine l col n blank = Line.blankCells l col n blank := by
  refine List.ext_getElem? fun i => ?_
  have hfront : (l.take col).length = col := List.length_take_of_le (by omega)
  rw [onLine, List.getElem?_mapIdx, Line.blankCells, List.getElem?_append, hfront,
    List.getElem?_append, List.length_replicate]
  by_cases hbefore : i < col
  · rw [if_pos hbefore, List.getElem?_take_of_lt hbefore]
    simp only [show ¬ col ≤ i by omega, false_and, if_false, Option.map_id']
  · by_cases hin : i < col + n
    · rw [if_neg hbefore, if_pos (by omega), List.getElem?_replicate, if_pos (by omega),
        List.getElem?_eq_getElem (show i < l.length by omega), Option.map_some, if_pos (by omega)]
    · rw [if_neg hbefore, if_neg (by omega), List.getElem?_drop,
        show col + n + (i - col - n) = i by omega]
      simp only [hin, and_false, if_false, Option.map_id']

theorem length_onLine (e : CharEdit) (h : col + n ≤ l.length) :
    (e.onLine l col n blank).length = l.length := by
  cases e with
  | insertion => rw [onLine_insertion h, Line.length_insertBlanks h]
  | deletion => rw [onLine_deletion, Line.length_deleteCells h]
  | blanking => exact List.length_mapIdx

end Line

section Screen
variable {s : Screen} (h : s.WellFormed)
include h

theorem onRaster_eq (e : CharEdit) (n : Nat) :
    e.onRaster s.raster n = .ok (e.onScreen s n).raster := by
  cases e with
  | insertion => exact Screen.insertChars_eq h n
  | deletion => exact Screen.deleteChars_eq h n
  | blanking => exact Screen.eraseChars_eq h n

/-- An edit replaces the cursor's line by the mended one. -/
theorem onScreen_eq (e : CharEdit) (n : Nat) {line : Line}
    (hline : s.lines[s.cursor.row]? = some line) :
    e.onScreen s n = { s with
      lines := s.lines.set s.cursor.row
        (Line.mend (e.onLine line s.cursor.col (s.reach n) s.erased))
      pendingWrap := e.keepsPending && s.pendingWrap } := by
  have hreach : s.cursor.col + s.reach n ≤ line.length :=
    h.length_line line (List.mem_of_getElem? hline) ▸ h.col_add_reach_le n
  have hset : ∀ f : Line → Line, s.lines.modify s.cursor.row f =
      s.lines.set s.cursor.row (f line) := fun f => by
    rw [List.modify_eq_set, hline, Option.getD_some]
  cases e with
  | insertion =>
    rw [onLine_insertion hreach]
    exact congrArg (fun lines => { s with lines := lines, pendingWrap := false }) (hset _)
  | deletion =>
    rw [onLine_deletion]
    exact congrArg (fun lines => { s with lines := lines, pendingWrap := false }) (hset _)
  | blanking =>
    rw [onLine_blanking hreach]
    exact congrArg (fun lines => { s with lines := lines }) (hset _)

end Screen

/-- Two wide glyphs, a letter and a spacer that belongs to none; the cursor is in the first glyph,
and the background is blue. -/
def halved : Screen :=
  let spacer : Cell := { spacer := true }
  { Screen.blank ⟨1, 6⟩ with
    lines := [[.ofChar '世', spacer, .ofChar '界', spacer, .ofChar 'a', spacer]]
    cursor := ⟨0, 1⟩
    style := { background := .palette 4 } }

theorem wellFormed_halved : halved.WellFormed := by
  constructor <;> decide

end CharEdit

end VirtualTerminal
