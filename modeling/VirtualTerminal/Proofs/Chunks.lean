import VirtualTerminal.Proofs.Reader

/-!
# Chunks — where a stream is cut leaves no trace

* `Utf8.repair_append`: repairing a byte string is repairing a front part of it and then what the
  front part held back together with the rest.  The beginning of a string that is complete or broken
  stays so whatever follows; one that is cut short is held back whole.
* `Decoder.decode_append`, `Reader.feed_append`: the same for decoder and reader.

**Chunks leave no trace** (`feed?_append_of_every_cut`).  From every state of the emulator, feeding
two byte strings one after the other leaves the state that feeding both at once leaves, with the two
outcomes put together; and a feed without a result is one without a result either way.  So the cuts
of a stream do not matter, with the end of the stream after it or not.
-/

namespace VirtualTerminal

/-! ### Cutting a byte string -/

namespace Utf8

theorem follow_append {more n : Nat} {rs : List Span} {bytes : List UInt8}
    (h : follow more rs bytes = .scalar n ∨ follow more rs bytes = .broken n) (b : List UInt8) :
    follow more rs (bytes ++ b) = follow more rs bytes ∧ n ≤ more + bytes.length := by
  induction rs generalizing more bytes with
  | nil =>
    simp only [follow, Opening.scalar.injEq, reduceCtorEq, or_false] at h ⊢
    exact ⟨trivial, by omega⟩
  | cons r rs ih =>
    cases bytes with
    | nil => simp [follow] at h
    | cons c bytes =>
      simp only [follow, List.cons_append, List.length_cons] at h ⊢
      split at h
      · obtain ⟨heq, hle⟩ := ih h
        rw [if_pos ‹_›, if_pos ‹_›]
        exact ⟨heq, by omega⟩
      · simp only [reduceCtorEq, Opening.broken.injEq, false_or] at h
        rw [if_neg ‹_›, if_neg ‹_›]
        exact ⟨rfl, by omega⟩

/-- A beginning that is no cut one stays what it is when bytes follow. -/
theorem opening_append {c : UInt8} {n : Nat} {bytes : List UInt8}
    (h : opening c bytes = .scalar n ∨ opening c bytes = .broken n) (b : List UInt8) :
    opening c (bytes ++ b) = opening c bytes ∧ n ≤ bytes.length := by
  unfold opening at h ⊢
  split at h
  · simp only [reduceCtorEq, Opening.broken.injEq, false_or] at h
    exact ⟨rfl, by omega⟩
  · obtain ⟨heq, hle⟩ := follow_append h b
    exact ⟨heq, by omega⟩

/-- **Repairing in two parts.** -/
theorem repair_append (a b : List UInt8) :
    repair (a ++ b) =
      ((repair a).1 ++ (repair ((repair a).2 ++ b)).1, (repair ((repair a).2 ++ b)).2) := by
  fun_induction repair a with
  | case1 => rfl
  | case2 c rest more hop text held hrest ih =>
    -- what the string begins with is decided within the front part
    obtain ⟨heq, hle⟩ := opening_append (.inl hop) b
    rw [List.cons_append, repair, heq, hop]
    simp only [List.drop_append_of_le_length hle, List.take_append_of_le_length hle, ih, hrest,
      List.cons_append, List.append_assoc]
  | case3 c rest more hop text held hrest ih =>
    obtain ⟨heq, hle⟩ := opening_append (.inr hop) b
    rw [List.cons_append, repair, heq, hop]
    simp only [List.drop_append_of_le_length hle, List.take_append_of_le_length hle, ih, hrest,
      List.append_assoc]
  | case4 c rest hop => simp

end Utf8

theorem Decoder.decode_append (d : Decoder) (a b : List UInt8) :
    d.decode (a ++ b) =
      (((d.decode a).1.decode b).1, (d.decode a).2 ++ ((d.decode a).1.decode b).2) := by
  simp only [decode, ← List.append_assoc, Utf8.repair_append (d.held ++ a) b]

theorem Reader.feed_append (r : Reader) (a b : List UInt8) :
    r.feed (a ++ b) = (((r.feed a).1.feed b).1, (r.feed a).2 ++ ((r.feed a).1.feed b).2) := by
  simp only [feed, Decoder.decode_append, read, Escape.Interpreter.run_append, List.flatMap_append]

/-! ### Cutting a feed -/

namespace Reader

/-- Instructions read in two parts are obeyed in two parts. -/
theorem perform?_append (r : Reader) (is : List Instruction) (next : Reader × List Instruction)
    (s : Screen) :
    perform? (next.1, is ++ next.2) s =
      (perform? (r, is) s).bind fun (e, o) =>
        (perform? next e.screen).map fun (e', o') => (e', o.append o') := by
  simp only [perform?, Screen.obeyAll?_append, Outcome.ofInstructions_append, Option.map_bind,
    Option.bind_map, Option.map_map, Function.comp_def, Emulator.screen_emulator]

end Reader

namespace Emulator

/-- Feeds chunks one after another; the outcomes are put together. -/
def feedAll? : List (List UInt8) → Emulator → Option (Emulator × Outcome)
  | [], e => some (e, .none)
  | chunk :: rest, e =>
    (e.feed? chunk).bind fun (e, o) => (feedAll? rest e).map fun (e', o') => (e', o.append o')

/-- Feeds chunks one after another, and then ends the stream or not. -/
def replay? (chunks : List (List UInt8)) (ends : Bool) (e : Emulator) :
    Option (Emulator × Outcome) :=
  (e.feedAll? chunks).bind fun (e, o) =>
    if ends then e.finish?.map fun (e', o') => (e', o.append o') else some (e, o)

theorem feed?_append (e : Emulator) (a b : List UInt8) :
    e.feed? (a ++ b) =
      (e.feed? a).bind fun (e', o) => (e'.feed? b).map fun (e'', o') => (e'', o.append o') := by
  rw [feed?_eq, Reader.feed_append, Reader.perform?_append (e.reader.feed a).1, feed?_eq]
  -- the reader of the state in between is the one the first part leaves
  simp only [Reader.perform?, Option.bind_map, Function.comp_def, feed?_eq, reader_emulator]

/-- Feeding several chunks, the first of them given, is feeding their concatenation. -/
theorem feedAll?_cons (chunk : List UInt8) (rest : List (List UInt8)) (e : Emulator) :
    e.feedAll? (chunk :: rest) = e.feed? (chunk :: rest).flatten := by
  induction rest generalizing chunk e with
  | nil =>
    simp only [feedAll?, Option.map_some, Outcome.append_none, List.flatten_singleton]
    exact Option.bind_fun_some _
  | cons next rest ih =>
    rw [feedAll?, List.flatten_cons, feed?_append]
    simp only [ih]

/-- So it is with chunks that hold any byte at all. -/
theorem feedAll?_flatten {chunks : List (List UInt8)} (h : chunks.flatten ≠ []) (e : Emulator) :
    e.feedAll? chunks = e.feed? chunks.flatten := by
  cases chunks with
  | nil => exact absurd rfl h
  | cons chunk rest => exact feedAll?_cons chunk rest e

/-- A fresh emulator waits for nothing: an empty chunk changes nothing. -/
theorem feed?_nil_ofDimensions (d : Dimensions) :
    (ofDimensions d).feed? [] = some (ofDimensions d, .none) := by
  simp [feed?, ofDimensions, Decoder.decode, Decoder.fresh, Utf8.repair, run?]

/-- **Chunks leave no trace.**  In every state two byte strings fed one after the other do what
they do at once; so from every state a stream does the same however it is cut into chunks, and from
a fresh emulator also if it is empty and cut into none, with the end of the stream after it or
not. -/
theorem feed?_append_of_every_cut :
    (∀ (e : Emulator) (a b : List UInt8),
      e.feed? (a ++ b) =
        (e.feed? a).bind fun (e', o) =>
          (e'.feed? b).map fun (e'', o') => (e'', o.append o')) ∧
    (∀ (e : Emulator) (chunk : List UInt8) (rest : List (List UInt8)) (ends : Bool),
      e.replay? (chunk :: rest) ends = e.replay? [(chunk :: rest).flatten] ends) ∧
    ∀ (d : Dimensions) (chunks : List (List UInt8)) (ends : Bool),
      (ofDimensions d).replay? chunks ends = (ofDimensions d).replay? [chunks.flatten] ends := by
  have whole : ∀ (e : Emulator) (chunk : List UInt8) (rest : List (List UInt8)),
      e.feedAll? (chunk :: rest) = e.feedAll? [(chunk :: rest).flatten] := fun e chunk rest => by
    rw [feedAll?_cons, feedAll?_cons, List.flatten_singleton]
  refine ⟨feed?_append, fun e chunk rest ends => ?_, fun d chunks ends => ?_⟩
  · rw [replay?, replay?, whole]
  · cases chunks with
    | nil => simp [replay?, feedAll?, feed?_nil_ofDimensions]
    | cons chunk rest => rw [replay?, replay?, whole]

end Emulator

end VirtualTerminal
