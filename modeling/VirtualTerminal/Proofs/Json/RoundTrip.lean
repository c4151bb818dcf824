import VirtualTerminal.Proofs.Json.Lexing

/-!
# Json — Round trip

A value is written and read back.  Three things a JSON text cannot tell, so they are asked of a
value (`Legible`): its integers fit 64 bits, its doubles are read as they are written, and no object
has two members of one name.

* `Builds`: lexemes that build a value wherever one is expected.
* `exists_items`, `exists_members`: the rest of an array or object behind its first part, by
  induction on the parts.

**What is written without any blank is read back** (`read?_compact`).  It has no control character,
whatever the value is (`le_of_mem_compactChars`).
-/

namespace VirtualTerminal.Json

variable {cs : List Char} {ls : List Lexeme} {j : Json} {name : String}

/-- A value that its text tells all of. -/
inductive Legible : Json → Prop
  | null : Legible .null
  | bool (b : Bool) : Legible (.bool b)
  | int {n : Int} (hlow : -2 ^ 63 ≤ n) (hhigh : n < 2 ^ 64) : Legible (.int n)
  | float {x : Float} (h : Numeral.read? (Numeral.writeFloat x) = some (.float x)) :
    Legible (.float x)
  | string (s : String) : Legible (.string s)
  | array {items : List Json} (h : ∀ item ∈ items, Legible item) : Legible (.array items)
  | object {members : Members} (hnames : (members.map Prod.fst).Nodup)
    (h : ∀ m ∈ members, Legible m.2) : Legible (.object members)

/-- The lexemes build a value, where a value is expected or the first item of an array. -/
structure Builds (ls : List Lexeme) (j : Json) : Prop where
  value : ∀ stack, ls.foldlM accept? (.value stack) = some (.more j stack)
  first : ∀ stack, ls.foldlM accept? (.firstItem stack) = some (.more j (.array [] :: stack))

/-- The characters are gathered into lexemes that build a value. -/
def Spells (cs : List Char) (j : Json) : Prop := ∃ ls, Lexes cs ls ∧ Builds ls j

/-! ### Scalars -/

theorem builds_scalar (j : Json) : Builds [.scalar j] j := ⟨fun _ => rfl, fun _ => rfl⟩

/-- A string is a value where one is expected, and no name there. -/
theorem builds_string (text : String) : Builds [.string text] (.string text) :=
  ⟨fun _ => rfl, fun _ => rfl⟩

/-- A word of marks is one lexeme, and that is a value. -/
theorem spells_word (hne : cs ≠ []) (hmarks : ∀ c ∈ cs, Numeral.isMark c = true)
    (hj : scalar? cs = some j) : Spells cs j := ⟨_, lexes_word hne hmarks hj, builds_scalar j⟩

/-- The value that a numeral writes. -/
def ofNumeral : Numeral → Json
  | .int n => .int n
  | .float x => .float x

/-- A numeral is none of the words. -/
theorem scalar?_numeral {n : Numeral} (h : Numeral.read? cs = some n) :
    scalar? cs = some (ofNumeral n) := by
  have hword : ∀ w : List Char, Numeral.read? w = none → (cs == w) = false := by
    intro w hw
    rw [beq_eq_false_iff_ne]
    rintro rfl
    cases hw.symm.trans h
  rw [scalar?, hword _ rfl, hword _ rfl, hword _ rfl, h]
  cases n <;> rfl

/-- A number as it is written is one lexeme, and that is a value. -/
theorem spells_numeral {n : Numeral} (h : Numeral.read? cs = some n)
    (hmarks : ∀ c ∈ cs, Numeral.isMark c = true) : Spells cs (ofNumeral n) := by
  refine spells_word ?_ hmarks (scalar?_numeral h)
  rintro rfl
  cases h

/-! ### Arrays -/

/-- Joined texts: the first one, and each of the others behind a separator. -/
theorem joined_cons (separator text : List Char) (texts : List (List Char)) :
    joined separator (text :: texts) = text ++ texts.flatMap (separator ++ ·) := by
  induction texts generalizing text with
  | nil => exact List.intercalate_singleton.trans (List.append_nil text).symm
  | cons t ts ih =>
    rw [joined, List.intercalate_cons_cons, ← joined, ih, List.flatMap_cons, List.append_assoc,
      List.append_assoc]

/-- Items are written one by one. -/
theorem compactItems_eq (items : List Json) : compactItems items = items.map compactChars := by
  induction items with
  | nil => rfl
  | cons item items ih => rw [compactItems, ih, List.map_cons]

/-- The items behind the first one, with the end of the array. -/
def itemsBehind (items : List Json) : List Char :=
  items.flatMap (fun item => ',' :: compactChars item) ++ [']']

/-- An array with an item is written as that item and what is behind it. -/
theorem compactChars_array (item : Json) (items : List Json) :
    compactChars (.array (item :: items)) = '[' :: (compactChars item ++ itemsBehind items) := by
  rw [compactChars, compactItems_eq, List.map_cons, joined_cons, List.flatMap_map, List.append_assoc]
  rfl

/-- Behind an item stands a comma or a bracket, so a number there ends. -/
theorem boundary_itemsBehind (items : List Json) (rest : List Char) :
    Boundary (itemsBehind items ++ rest) := by
  cases items <;> rfl

/-- What is behind the first item, read when that one has been: the items read before it stand in
reverse on the stack. -/
theorem exists_items {items : List Json} (h : ∀ item ∈ items, Spells (compactChars item) item) :
    ∃ ls, Lexes (itemsBehind items) ls ∧ ∀ item read stack,
      ls.foldlM accept? (.more item (.array read :: stack)) =
        some (.more (.array (read.reverse ++ item :: items)) stack) := by
  induction items with
  | nil =>
    refine ⟨[.closeArray], lexes_punctuation rfl, fun item read stack => ?_⟩
    rw [← List.reverse_cons]
    rfl
  | cons next items ih =>
    obtain ⟨⟨ls, hlexes, hbuilds⟩, hrest⟩ := List.forall_mem_cons.mp h
    obtain ⟨ls', hlexes', hbuilds'⟩ := ih hrest
    refine ⟨.comma :: (ls ++ ls'), ?_, fun item read stack => ?_⟩
    · rw [itemsBehind, List.flatMap_cons, List.append_assoc, List.cons_append]
      exact (hlexes.followed hlexes' (boundary_itemsBehind items)).cons rfl
    · show (ls ++ ls').foldlM accept? (.value (.array (item :: read) :: stack)) = _
      rw [List.foldlM_append, hbuilds.value]
      show ls'.foldlM accept? (.more next (.array (item :: read) :: stack)) = _
      rw [hbuilds', List.reverse_cons, List.append_assoc, List.singleton_append]

/-- **An array is read back** if its items are. -/
theorem spells_array {items : List Json} (h : ∀ item ∈ items, Spells (compactChars item) item) :
    Spells (compactChars (.array items)) (.array items) := by
  cases items with
  | nil =>
    exact ⟨[.openArray, .closeArray], (lexes_punctuation rfl).cons rfl, fun _ => rfl, fun _ => rfl⟩
  | cons item items =>
    obtain ⟨⟨ls, hlexes, hbuilds⟩, hrest⟩ := List.forall_mem_cons.mp h
    obtain ⟨ls', hlexes', hbuilds'⟩ := exists_items hrest
    -- the same lexemes follow a bracket, be it expected as a value or as an item
    have hinside : ∀ stack, (ls ++ ls').foldlM accept? (.firstItem stack) =
        some (.more (.array (item :: items)) stack) := by
      intro stack
      rw [List.foldlM_append, hbuilds.first]
      exact hbuilds' item [] stack
    refine ⟨.openArray :: (ls ++ ls'), ?_, hinside, fun stack => hinside (.array [] :: stack)⟩
    rw [compactChars_array]
    exact (hlexes.followed hlexes' (boundary_itemsBehind items)).cons rfl

/-! ### Objects -/

/-- Members are written one by one, each as its name and its value. -/
theorem compactMembers_eq (members : Members) : compactMembers members =
    members.map fun m => quoted m.1 ++ ':' :: compactChars m.2 := by
  induction members with
  | nil => rfl
  | cons m members ih => rw [compactMembers, ih, List.map_cons]

/-- The members behind the first one, with the end of the object. -/
def membersBehind (members : Members) : List Char :=
  members.flatMap (fun m => ',' :: (quoted m.1 ++ ':' :: compactChars m.2)) ++ [closeBrace]

/-- An object with a member is written as that member and what is behind it. -/
theorem compactChars_object (m : String × Json) (members : Members) :
    compactChars (.object (m :: members)) =
      openBrace :: (quoted m.1 ++ ':' :: (compactChars m.2 ++ membersBehind members)) := by
  rw [compactChars, compactMembers_eq, List.map_cons, joined_cons, List.flatMap_map,
    List.append_assoc, List.append_assoc]
  rfl

/-- Behind a member stands a comma or a brace, so a number there ends. -/
theorem boundary_membersBehind (members : Members) (rest : List Char) :
    Boundary (membersBehind members ++ rest) := by
  cases members <;> rfl

/-- A member of a new name goes to the end. -/
theorem put_of_not_mem {members : Members} (h : name ∉ members.map Prod.fst) (value : Json) :
    members.put name value = members ++ [(name, value)] := by
  rw [Members.put, if_neg]
  simpa using h

/-- The member with this name, and what comes behind it. -/
theorem lexes_member (hvalue : Lexes cs ls) (name : String) {more : List Char}
    {ls' : List Lexeme} (hmore : Lexes more ls') (hboundary : ∀ rest, Boundary (more ++ rest)) :
    Lexes (quoted name ++ ':' :: (cs ++ more)) (.string name :: .colon :: (ls ++ ls')) :=
  (lexes_quoted name).followed ((hvalue.followed hmore hboundary).cons rfl) fun _ => rfl

/-- What is behind the first member, read when that one has been: new names keep their order. -/
theorem exists_members {members : Members} (h : ∀ m ∈ members, Spells (compactChars m.2) m.2) :
    ∃ ls, Lexes (membersBehind members) ls ∧ ∀ value read name stack,
      ((read ++ (name, value) :: members).map Prod.fst).Nodup →
        ls.foldlM accept? (.more value (.object read name :: stack)) =
          some (.more (.object (read ++ (name, value) :: members)) stack) := by
  -- `put` adds a member at the end, since the names read before are others
  have hfresh : ∀ {read members : Members} {name : String} {value : Json},
      ((read ++ (name, value) :: members).map Prod.fst).Nodup → name ∉ read.map Prod.fst := by
    intro read members name value hnames hmem
    rw [List.map_append] at hnames
    exact (List.nodup_append.mp hnames).2.2 name hmem name List.mem_cons_self rfl
  induction members with
  | nil =>
    refine ⟨[.closeObject], lexes_punctuation rfl, fun value read name stack hnames => ?_⟩
    rw [← put_of_not_mem (hfresh hnames)]
    rfl
  | cons next members ih =>
    obtain ⟨⟨ls, hlexes, hbuilds⟩, hrest⟩ := List.forall_mem_cons.mp h
    obtain ⟨ls', hlexes', hbuilds'⟩ := ih hrest
    refine ⟨.comma :: .string next.1 :: .colon :: (ls ++ ls'), ?_,
      fun value read name stack hnames => ?_⟩
    · rw [membersBehind, List.flatMap_cons, List.append_assoc, List.cons_append, List.append_assoc,
        List.cons_append]
      exact (lexes_member hlexes next.1 hlexes' (boundary_membersBehind members)).cons rfl
    · show (ls ++ ls').foldlM accept?
        (.value (.object (Members.put read name value) next.1 :: stack)) = _
      rw [List.foldlM_append, hbuilds.value, put_of_not_mem (hfresh hnames)]
      show ls'.foldlM accept?
        (.more next.2 (.object (read ++ [(name, value)]) next.1 :: stack)) = _
      rw [List.append_cons] at hnames
      rw [hbuilds' _ _ _ _ hnames, List.append_assoc, List.singleton_append]

/-- **An object is read back** if its values are and no name comes twice. -/
theorem spells_object {members : Members} (hnames : (members.map Prod.fst).Nodup)
    (h : ∀ m ∈ members, Spells (compactChars m.2) m.2) :
    Spells (compactChars (.object members)) (.object members) := by
  cases members with
  | nil =>
    exact ⟨[.openObject, .closeObject], (lexes_punctuation rfl).cons rfl, fun _ => rfl,
      fun _ => rfl⟩
  | cons m members =>
    obtain ⟨⟨ls, hlexes, hbuilds⟩, hrest⟩ := List.forall_mem_cons.mp h
    obtain ⟨ls', hlexes', hbuilds'⟩ := exists_members hrest
    have hinside : ∀ stack, (ls ++ ls').foldlM accept? (.value (.object [] m.1 :: stack)) =
        some (.more (.object (m :: members)) stack) := by
      intro stack
      rw [List.foldlM_append, hbuilds.value]
      exact hbuilds' m.2 [] m.1 stack hnames
    refine ⟨.openObject :: .string m.1 :: .colon :: (ls ++ ls'), ?_, hinside,
      fun stack => hinside (.array [] :: stack)⟩
    rw [compactChars_object]
    exact (lexes_member hlexes m.1 hlexes' (boundary_membersBehind members)).cons rfl

/-! ### Values -/

/-- Every legible value is read back, by induction on what makes it legible. -/
theorem Legible.spells (h : Legible j) : Spells (compactChars j) j := by
  induction h with
  | null => exact spells_word (by decide) (List.all_eq_true.mp rfl) rfl
  | bool b => cases b <;> exact spells_word (by decide) (List.all_eq_true.mp rfl) rfl
  | int hlow hhigh =>
    exact spells_numeral (Numeral.read?_writeInt hlow hhigh) Numeral.isMark_of_mem_writeInt
  | float h => exact spells_numeral h Numeral.isMark_of_mem_writeFloat
  | string s => exact ⟨_, lexes_quoted s, builds_string s⟩
  | array _ ih => exact spells_array ih
  | object hnames _ ih => exact spells_object hnames ih

/-- **A legible value is read back from its text.** -/
theorem read?_compact (h : Legible j) : read? j.compact = some j := by
  obtain ⟨ls, hlexes, hbuilds⟩ := h.spells
  have hall := hlexes [] trivial
  rw [List.append_nil] at hall
  have hnil : (lexemes? .between []).map (ls ++ ·) = some ls := congrArg some ls.append_nil
  rw [read?, compact, String.toList_ofList, hall, hnil]
  show (ls.foldlM accept? (.value []) >>= _) = _
  rw [hbuilds.value]
  rfl

/-! ### Control characters -/

/-- Control characters are written as escapes. -/
theorem le_of_mem_escape (c : Char) : ∀ d ∈ escape c, 0x20 ≤ d.toNat := by
  have hhex : ∀ n < 16, 0x20 ≤ (Digit.hex n).toNat := by decide
  rw [escape.eq_def]
  split
  iterate 7 simp
  · split
    · have hhigh := hhex (c.toNat / 16) (by omega)
      have hlow := hhex (c.toNat % 16) (by omega)
      intro d hd
      simp only [List.mem_cons, List.not_mem_nil, or_false] at hd
      rcases hd with rfl | rfl | rfl | rfl | rfl | rfl
      iterate 4 decide
      · exact hhigh
      · exact hlow
    · intro d hd
      rw [List.mem_singleton.mp hd]
      omega

/-- A quoted string holds no control character. -/
theorem le_of_mem_quoted (text : String) : ∀ c ∈ quoted text, 0x20 ≤ c.toNat := by
  refine List.forall_mem_cons.mpr ⟨by decide, List.forall_mem_append.mpr ⟨fun c hc => ?_, by simp⟩⟩
  obtain ⟨d, -, hd⟩ := List.mem_flatMap.mp hc
  exact le_of_mem_escape d c hd

/-- Texts without control characters are joined without any. -/
theorem le_of_mem_joined {texts : List (List Char)}
    (h : ∀ text ∈ texts, ∀ c ∈ text, 0x20 ≤ c.toNat) :
    ∀ c ∈ joined [','] texts, 0x20 ≤ c.toNat := by
  cases texts with
  | nil => simp [joined]
  | cons text texts =>
    obtain ⟨htext, htexts⟩ := List.forall_mem_cons.mp h
    rw [joined_cons]
    refine List.forall_mem_append.mpr ⟨htext, fun c hc => ?_⟩
    obtain ⟨t, ht, hmem⟩ := List.mem_flatMap.mp hc
    rcases List.mem_cons.mp hmem with rfl | hmem
    · decide
    · exact htexts t ht c hmem

mutual

/-- **No value is written with a control character.** -/
theorem le_of_mem_compactChars : ∀ (j : Json), ∀ c ∈ compactChars j, 0x20 ≤ c.toNat
  | .null => by simp [compactChars]
  | .bool true => by simp [compactChars]
  | .bool false => by simp [compactChars]
  | .int _ => fun c hc => Numeral.le_of_isMark (Numeral.isMark_of_mem_writeInt c hc)
  | .float _ => fun c hc => Numeral.le_of_isMark (Numeral.isMark_of_mem_writeFloat c hc)
  | .string s => le_of_mem_quoted s
  | .array items => by
    refine List.forall_mem_cons.mpr ⟨by decide, List.forall_mem_append.mpr ⟨?_, by simp⟩⟩
    exact le_of_mem_joined (le_of_mem_compactItems items)
  | .object members => by
    refine List.forall_mem_cons.mpr ⟨by decide, List.forall_mem_append.mpr ⟨?_, ?_⟩⟩
    · exact le_of_mem_joined (le_of_mem_compactMembers members)
    · simp [closeBrace]

theorem le_of_mem_compactItems :
    ∀ (items : List Json), ∀ text ∈ compactItems items, ∀ c ∈ text, 0x20 ≤ c.toNat
  | [] => fun _ h => absurd h List.not_mem_nil
  | item :: items =>
    List.forall_mem_cons.mpr ⟨le_of_mem_compactChars item, le_of_mem_compactItems items⟩

theorem le_of_mem_compactMembers :
    ∀ (members : Members), ∀ text ∈ compactMembers members, ∀ c ∈ text, 0x20 ≤ c.toNat
  | [] => fun _ h => absurd h List.not_mem_nil
  | (name, value) :: members => by
    refine List.forall_mem_cons.mpr ⟨?_, le_of_mem_compactMembers members⟩
    exact List.forall_mem_append.mpr ⟨le_of_mem_quoted name,
      List.forall_mem_cons.mpr ⟨by decide, le_of_mem_compactChars value⟩⟩

end

end VirtualTerminal.Json
