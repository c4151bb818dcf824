import VirtualTerminal.Proofs.Delivery.Ring
import VirtualTerminal.Proofs.Delivery.Waiting
import VirtualTerminal.Proofs.EventLines
import VirtualTerminal.Streaming

/-!
# Delivery — Streaming

A loop waits for one event after another, writes each as a line and notes the end it tells of, until
it is told that nothing is left (`StreamLoop`).  Meanwhile events are published and the channel is
closed, in any order with the turns of the loop.

* `StreamLoop.after_eq`: what the loop has written and noted, from the events that it got.
* `Event.splitOn_lines`: what is written has one line for each event.
* `EventQueue.takeAll_eq`: what a queue still holds for somebody.

**The end that the last event tells of is not lost** (`EventQueue.streams_to_the_end`), however many
events are.
-/

namespace VirtualTerminal

/-! ### Lines and ends -/

namespace Event

theorem lines_append (es es' : List Event) : lines (es ++ es') = lines es ++ lines es' := by
  rw [lines, List.map_append, String.join_append]
  rfl

theorem lines_singleton (e : Event) : lines [e] = e.line ++ "\n" := String.empty_append

/-- No event breaks its line. -/
theorem lineFeed_notMem_line (e : Event) : '\n' ∉ e.line.toList := by
  intro h
  rw [line, Json.compact, String.toList_ofList] at h
  exact absurd (Json.le_of_mem_compactChars e.toJson _ h) (by decide)

/-- **Each event is one line**, with nothing after the last line feed. -/
theorem splitOn_lines (es : List Event) :
    (lines es).toList.splitOn '\n' = (es.map fun e => e.line.toList) ++ [[]] := by
  induction es with
  | nil => rfl
  | cons e es ih =>
    have hlines : (lines (e :: es)).toList = e.line.toList ++ '\n' :: (lines es).toList := by
      rw [← List.singleton_append, lines_append, lines_singleton, String.toList_append,
        String.toList_append, List.append_assoc]
      rfl
    rw [hlines, List.splitOn_append_cons_self_of_not_mem e.lineFeed_notMem_line, ih]
    rfl

end Event

namespace StreamEnd

/-- The end that the last of some events tells of. -/
def ofLast (events : List Event) : StreamEnd :=
  (events.getLast?.bind Event.ending?).getD .terminated

/-- The last event that tells of an end decides. -/
theorem ofEvents_concat (es : List Event) (e : Event) :
    ofEvents (es ++ [e]) = e.ending?.getD (ofEvents es) := by
  rw [ofEvents, List.filterMap_append]
  cases he : e.ending? with
  | none => simp [he, ofEvents]
  | some ending => simp [he]

theorem ofEvents_of_forall {es : List Event} (h : ∀ e ∈ es, e.ending? = none) :
    ofEvents es = .terminated := by
  rw [ofEvents, List.filterMap_eq_nil_iff.mpr h]
  rfl

/-- Of events of which only the last tells of an end, any part with the last one tells of it. -/
theorem ofEvents_eq_ofLast {got due : List Event} (hgot : got.Sublist due)
    (hlast : got.getLast? = due.getLast?) (hends : ∀ e ∈ due.dropLast, e.ending? = none) :
    ofEvents got = ofLast due := by
  rw [ofLast]
  cases hdue : due.getLast? with
  | none => rw [List.getLast?_eq_none_iff.mp (hlast.trans hdue)]; rfl
  | some e =>
    obtain ⟨before, rfl⟩ := List.getLast?_eq_some_iff.mp hdue
    obtain ⟨got, rfl⟩ := List.getLast?_eq_some_iff.mp (hlast.trans hdue)
    rw [List.dropLast_concat] at hends
    have hsub := (List.append_sublist_append_right [e]).mp hgot
    rw [ofEvents_concat, ofEvents_of_forall fun e he => hends e (hsub.subset he), Option.bind_some]

end StreamEnd

/-! ### The loop -/

/-- A loop that streams, after some turns. -/
structure StreamLoop where
  text : String := ""
  ending : StreamEnd := .terminated
  /-- It was told that nothing is left. -/
  done : Bool := false

namespace StreamLoop

/-- Goes on after a turn of the call for the next event. -/
def turn (s : StreamLoop) : Reply Event → StreamLoop
  | .event e =>
    { s with text := s.text ++ (e.line ++ "\n"), ending := e.ending?.getD s.ending }
  | .none => { s with done := true }
  | .waiting | .again => s

/-- The loop after the turns of all its calls; once it is done it makes no more. -/
def after (replies : List (Reply Event)) : StreamLoop :=
  replies.foldl (fun s reply => if s.done then s else s.turn reply) {}

/-- A loop that is done takes no more replies. -/
theorem after_concat (replies : List (Reply Event)) (reply : Reply Event) :
    after (replies ++ [reply]) =
      if (after replies).done then after replies else (after replies).turn reply := by
  rw [after, List.foldl_append]
  rfl

/-- A loop that got no end of the channel has written what it got, and goes on. -/
theorem after_of_notMem {replies : List (Reply Event)} (h : .none ∉ replies) :
    after replies =
      ⟨Event.lines (replies.filterMap Reply.event?),
        StreamEnd.ofEvents (replies.filterMap Reply.event?), false⟩ := by
  induction replies using List.reverseRecOn with
  | nil => rfl
  | append_singleton replies reply ih =>
    rw [List.mem_append, List.mem_singleton, not_or] at h
    rw [after_concat, ih h.1, if_neg Bool.false_ne_true, List.filterMap_append]
    cases reply with
    | event e =>
      have hgot : [Reply.event e].filterMap Reply.event? = [e] := rfl
      rw [turn, hgot, Event.lines_append, Event.lines_singleton, StreamEnd.ofEvents_concat]
    | none => exact absurd rfl h.2
    | waiting | again =>
      rw [turn, List.filterMap_cons_none rfl, List.filterMap_nil, List.append_nil]

/-- **What the loop has written and noted** is what the events tell that it got before it was told
that nothing is left. -/
theorem after_eq {before : List (Reply Event)} (h : .none ∉ before) (m : Nat) :
    after (before ++ List.replicate m .none) =
      ⟨Event.lines (before.filterMap Reply.event?),
        StreamEnd.ofEvents (before.filterMap Reply.event?), decide (0 < m)⟩ := by
  induction m with
  | zero => rw [List.replicate_zero, List.append_nil, after_of_notMem h]; rfl
  | succ m ih =>
    rw [List.replicate_succ', ← List.append_assoc, after_concat, ih]
    cases m with
    | zero => rfl
    | succ m => rfl

end StreamLoop

/-! ### What a queue still holds -/

namespace EventQueue

variable {α : Type} {q : EventQueue α} {es due : List α} {C n : Nat} {closed : Bool}

/-- Whoever has not finished takes the event at its place, or the oldest one that is kept. -/
theorem Records.take_cases (h : q.Records es) {r : Receiver} (hopen : r.finished = false) :
    (es.length ≤ max r.next q.oldest ∧ ∃ r', q.take r = (r', none)) ∨
      ∃ e r', es[max r.next q.oldest]? = some e ∧ q.take r = (r', some e) ∧
        r'.finished = false ∧ r'.next = max r.next q.oldest + 1 := by
  have hkept := h.getElem?_kept (Nat.le_max_right r.next q.oldest)
  rw [take, if_neg (by rw [hopen]; exact Bool.false_ne_true)]
  simp only [hkept]
  cases he : es[max r.next q.oldest]? with
  | none => exact .inl ⟨List.getElem?_eq_none_iff.mp he, _, rfl⟩
  | some e => exact .inr ⟨e, _, rfl, rfl, hopen, rfl⟩

/-- With fuel for all of them, the events that are left are taken one by one. -/
theorem Records.go_eq (h : q.Records es) {fuel : Nat} {r : Receiver} (hopen : r.finished = false)
    (hfuel : es.length < max r.next q.oldest + fuel) :
    (takeAll.go q fuel r).2 = es.drop (max r.next q.oldest) := by
  induction fuel generalizing r with
  | zero => exact (List.drop_eq_nil_of_le (by omega)).symm
  | succ fuel ih =>
    rw [takeAll.go]
    rcases h.take_cases hopen with ⟨hall, r', htake⟩ | ⟨e, r', he, htake, hopen', hnext⟩
    · rw [htake, List.drop_eq_nil_of_le hall]
    · obtain ⟨hlt, rfl⟩ := List.getElem?_eq_some_iff.mp he
      have hplace : max r'.next q.oldest = max r.next q.oldest + 1 := by omega
      rw [htake, List.drop_eq_getElem_cons hlt, ← hplace, ← ih hopen' (by omega)]

/-- **What a queue still holds for a client** is what is due to it from its place on, as far as that
is among the newest events. -/
theorem takeAll_eq (h : q.Holds C es n closed) {k : Client α}
    (hk : Channel.Stands closed es due k) :
    (q.takeAll k.receiver).2 = due.drop (max k.past (due.length - C)) := by
  rw [takeAll]
  cases hfinished : k.receiver.finished with
  | true =>
    have htake : q.take k.receiver = (k.receiver, none) := if_pos hfinished
    obtain ⟨-, hall⟩ := hk.finished hfinished
    rw [takeAll.go, htake, List.drop_eq_nil_of_le (by omega)]
  | false =>
    have holdest := h.records.oldest_eq
    have hpublished := h.records.published
    have hnext := hk.next_eq
    -- what is due is the end of the record, so places in it are places in the record
    obtain ⟨before, rfl⟩ := hk.suffix
    rw [h.slots] at holdest
    rw [List.length_append] at holdest hpublished hnext
    have hplace : max k.receiver.next q.oldest = before.length + max k.past (due.length - C) := by
      omega
    rw [h.records.go_eq hfinished (by rw [List.length_append]; omega), hplace,
      List.drop_length_add_append]

end EventQueue

/-! ### Streaming to the end -/

namespace Channel

variable {χ : Type} {ch : Channel χ Event} {C n i : Nat} {closed : Bool} {c : χ}
  {due : List Event} {k : Client Event} {Holds : χ → List Event → Nat → Bool → Prop}
  {moves : List (Move Event)}

/-- What the loop has written and noted, once and for all when it is done. -/
theorem Reads.after_eq (h : Reads closed due k) (hgot : k.got.Sublist due)
    (hends : ∀ e ∈ due.dropLast, e.ending? = none) :
    ∃ done : Bool,
      StreamLoop.after k.replies = ⟨Event.lines k.got, StreamEnd.ofEvents k.got, done⟩ ∧
      (done = true ↔ .none ∈ k.replies) ∧
      (done = true → closed = true ∧ k.past = due.length ∧
        StreamEnd.ofEvents k.got = .ofLast due) := by
  obtain ⟨before, m, hreplies, hbefore, hnone⟩ := h.told
  have hevents : k.got = before.filterMap Reply.event? := by
    rw [Client.got, hreplies, List.filterMap_append, List.filterMap_replicate_of_none rfl,
      List.append_nil]
  refine ⟨decide (0 < m), ?_, ?_, fun hdone => ?_⟩
  · rw [hreplies, hevents]
    exact StreamLoop.after_eq hbefore m
  · rw [decide_eq_true_iff, hreplies, List.mem_append, List.mem_replicate]
    simp [hbefore, Nat.pos_iff_ne_zero]
  · obtain ⟨hclosed, hall⟩ := hnone (of_decide_eq_true hdone)
    exact ⟨hclosed, hall, StreamEnd.ofEvents_eq_ofLast hgot (h.latest hall) hends⟩

/-- What the loop of a client that only waits writes and tells. -/
structure Streams (ch : Channel χ Event) (c : χ) (moves : List (Move Event)) (i : Nat)
    (k : Client Event) : Prop where
  client : (ch.run c moves).clients[i]? = some k
  /-- It writes a line for every event that it gets, and for nothing else. -/
  text : (StreamLoop.after k.replies).text = Event.lines k.got
  lines : (StreamLoop.after k.replies).text.toList.splitOn '\n' =
    (k.got.map fun e => e.line.toList) ++ [[]]
  /-- The events come in the order of publication, each once. -/
  inOrder : k.got.Sublist (Move.due i moves)
  /-- It is done only after the close and when it has had or lost every event, and tells the end
  that the last one tells of. -/
  tells (hdone : (StreamLoop.after k.replies).done = true) :
    Move.isClosed moves = true ∧ k.got.length + k.receiver.dropped = (Move.due i moves).length ∧
      (StreamLoop.after k.replies).ending = .ofLast (Move.due i moves)
  /-- After the close it will be done, no matter what else happens, once it has had so many
  turns. -/
  ends (hclosed : Move.isClosed moves = true) (more : List (Move Event)) (hwaits : Waits i more)
    (hturns : (Move.due i moves).length - k.past < more.countP (Move.asks i)) :
    ∃ k', (ch.run c (moves ++ more)).clients[i]? = some k' ∧
      StreamLoop.after k'.replies = ⟨Event.lines k'.got, .ofLast (Move.due i moves), true⟩

theorem Keeps.streams (hkeeps : ch.Keeps C Holds) (hC : 0 < C) (hstart : Holds c [] 0 false)
    (hi : i < Move.subscriptions moves) (hwaits : Waits i moves)
    (hends : ∀ e ∈ (Move.due i moves).dropLast, e.ending? = none) :
    ∃ k, ch.Streams c moves i k := by
  obtain ⟨k, hk⟩ := hkeeps.delivers hstart moves hi
  have hgot := hk.inOrder.trans (List.take_sublist _ _)
  obtain ⟨done, hafter, -, hdone⟩ :=
    (hkeeps.reads_run hC hstart hwaits hk.client).after_eq hgot hends
  have htext : (StreamLoop.after k.replies).text = Event.lines k.got := by rw [hafter]
  refine ⟨k, hk.client, htext, htext ▸ Event.splitOn_lines k.got, hgot, ?_, ?_⟩
  · rw [hafter]
    exact hdone
  · intro hclosed more hmore hturns
    obtain ⟨k', hk', htold⟩ := hkeeps.told_run hstart hclosed hk.client hmore
    have hreads := hkeeps.reads_run hC hstart
      (fun d hd => (List.mem_append.mp hd).elim (hwaits d) (hmore d)) hk'
    obtain ⟨es, n, h⟩ := hkeeps.kept_run hstart (moves ++ more)
    have hgot' := (h.stands i k' hk').inOrder.trans (List.take_sublist _ _)
    -- nothing is due after the close
    rw [Move.due_append_of_isClosed i hclosed] at hreads hgot'
    have hpast := hreads.past_le
    obtain ⟨done', hafter', htold', hdone'⟩ := hreads.after_eq hgot' hends
    obtain rfl : done' = true := htold'.mpr (htold.resolve_right (by omega))
    exact ⟨k', hk', (hdone' rfl).2.2 ▸ hafter'⟩

/-- What a client has got and what is left for it tell the end that the last event due tells of. -/
theorem Reads.ofEvents_drop (h : Reads closed due k) (hC : 0 < C)
    (hgot : k.got.Sublist (due.take k.past)) (hends : ∀ e ∈ due.dropLast, e.ending? = none) :
    StreamEnd.ofEvents (k.got ++ due.drop (max k.past (due.length - C))) = .ofLast due := by
  have hpast := h.past_le
  have hleft : (due.drop (max k.past (due.length - C))).Sublist (due.drop k.past) :=
    List.drop_sublist_drop_left due (Nat.le_max_left _ _)
  refine StreamEnd.ofEvents_eq_ofLast ?_ ?_ hends
  · have hall := hgot.append hleft
    rwa [List.take_append_drop] at hall
  · rw [List.getLast?_append, List.getLast?_drop]
    by_cases hnone : due.length ≤ max k.past (due.length - C)
    · rw [if_pos hnone, Option.none_or]
      exact h.latest (by omega)
    · -- the newest event is still there
      rw [if_neg hnone, List.getLast?_eq_getElem?, List.getElem?_eq_getElem (by omega)]
      rfl

end Channel

namespace EventQueue

/-- **The end that the last event tells of is not lost**, whatever the capacity and however the
turns of the loop, the publications and the close come after one another.  If of the events due only
the last can tell of an end, then the loop ends with just that one, or as cut off if it tells of
none; due to somebody who subscribed first are all that are published before the close.  Each event
that it got it has written as one line, in their order.  All of this is so for the queue and for a
ring of slots, and what the queue has left can be streamed at once, to the same end. -/
theorem streams_to_the_end {capacity : Nat} (hcapacity : capacity ≤ 2 ^ 63 - 1)
    (moves : List (Move Event)) {i : Nat} (hi : i < Move.subscriptions moves)
    (hwaits : Channel.Waits i moves)
    (hends : ∀ e ∈ (Move.due i moves).dropLast, e.ending? = none) :
    ∃ k k' : Client Event,
      channel.Streams (ofCapacity capacity) moves i k ∧
      Ring.channel.Streams (Ring.ofCapacity capacity) moves i k' ∧ k'.view = k.view ∧
      ∃ left, ((channel.run (ofCapacity capacity) moves).channel.stream k.receiver).text =
          Event.lines left ∧
        ((channel.run (ofCapacity capacity) moves).channel.stream k.receiver).ending =
          .ofEvents left ∧
        left = (Move.due i moves).drop (max k.past
          ((Move.due i moves).length - 2 ^ Nat.clog 2 (max capacity 1))) ∧
        StreamEnd.ofEvents (k.got ++ left) = .ofLast (Move.due i moves) := by
  have hC := powerOfTwoFrom_eq (n := max capacity 1) (by omega)
  have hpos : 0 < 2 ^ Nat.clog 2 (max capacity 1) := Nat.two_pow_pos _
  have hqueue := keeps (α := Event) (2 ^ Nat.clog 2 (max capacity 1))
  have hring := Ring.keeps (α := Event) hpos
  obtain ⟨k, hk⟩ := hqueue.streams hpos (holds_ofCapacity hC) hi hwaits hends
  obtain ⟨k', hk'⟩ := hring.streams hpos (Ring.holds_ofCapacity hC) hi hwaits hends
  have hviews := hring.view_run hqueue (Ring.holds_ofCapacity hC) (holds_ofCapacity hC) moves
  have hview : k'.view = k.view := by
    have hsame := congrArg (·[i]?) hviews
    simpa [hk.client, hk'.client] using hsame
  obtain ⟨es, n, h⟩ := hqueue.kept_run (holds_ofCapacity hC) moves
  have hstands := h.stands i k hk.client
  have hreads := hqueue.reads_run hpos (holds_ofCapacity hC) hwaits hk.client
  exact ⟨k, k', hk, hk', hview, _, rfl, rfl, takeAll_eq h.holds hstands,
    takeAll_eq h.holds hstands ▸ hreads.ofEvents_drop hpos hstands.inOrder hends⟩

/-- A loop that is slow: of four events it misses one, and it gets the last after the close. -/
def slowLoop : List (Move Event) :=
  [.subscribe, .publish (.title "a"), .ask 0 .recv, .publish (.title "b"), .publish (.title "c"),
    .publish (.exited (some 3)), .ask 0 .recv, .close, .ask 0 .recv, .ask 0 .recv, .ask 0 .recv]

/-- One event is lost on the slow loop, and still it ends as the command exited. -/
theorem streams_to_the_end_slow :
    (2 ≤ 2 ^ 63 - 1 ∧ 0 < Move.subscriptions slowLoop ∧ Channel.Waits 0 slowLoop ∧
        (∀ e ∈ (Move.due 0 slowLoop).dropLast, e.ending? = none)) ∧
      ((channel.run (ofCapacity 2) slowLoop).clients.map fun k =>
          (k.receiver.dropped, (StreamLoop.after k.replies).done,
            (StreamLoop.after k.replies).ending)) = [(1, true, .exited (some 3))] ∧
      ∃ k k' : Client Event,
        channel.Streams (ofCapacity 2) slowLoop 0 k ∧
        Ring.channel.Streams (Ring.ofCapacity 2) slowLoop 0 k' ∧ k'.view = k.view ∧
        ∃ left, ((channel.run (ofCapacity 2) slowLoop).channel.stream k.receiver).text =
            Event.lines left ∧
          ((channel.run (ofCapacity 2) slowLoop).channel.stream k.receiver).ending =
            .ofEvents left ∧
          left = (Move.due 0 slowLoop).drop (max k.past
            ((Move.due 0 slowLoop).length - 2 ^ Nat.clog 2 (max 2 1))) ∧
          StreamEnd.ofEvents (k.got ++ left) = .ofLast (Move.due 0 slowLoop) := by
  have hwaits : Channel.Waits 0 slowLoop := by
    intro d hd
    simpa [slowLoop] using hd
  have hends : ∀ e ∈ (Move.due 0 slowLoop).dropLast, e.ending? = none := by
    simp [slowLoop, Move.due, Move.published, Event.ending?]
  exact ⟨⟨by decide, by decide, hwaits, hends⟩, rfl,
    streams_to_the_end (by decide) slowLoop (by decide) hwaits hends⟩

end EventQueue

end VirtualTerminal
