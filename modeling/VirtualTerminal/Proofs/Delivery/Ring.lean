import Mathlib.Algebra.Group.Nat.Defs
import Mathlib.Data.Nat.Log
import VirtualTerminal.Proofs.Delivery.Run
import VirtualTerminal.Proofs.Session.Run

/-!
# Delivery — Ring

A ring of slots is written round and round (`Ring`).  Each slot tells the number of the event in it,
and by that number a receiver sees whether its event is there, is still to come, or is gone.

* `EventQueue.keeps`, `Ring.keeps`: the queue and the ring both keep the newest events.
* `powerOfTwoFrom_eq`: how many those are.

**The queue delivers what is due** (`EventQueue.delivers_what_is_due`), and so does the ring, and
nobody can tell them apart.
-/

namespace VirtualTerminal

variable {α : Type}

/-! ### How many events are kept -/

/-- The capacity is raised to the next power of two, within 63 bits. -/
theorem powerOfTwoFrom_eq {n : Nat} (h : n ≤ 2 ^ 63) : powerOfTwoFrom n = 2 ^ Nat.clog 2 n := by
  have hle : Nat.clog 2 n ≤ 63 := Nat.clog_le_of_le_pow h
  have hfirst : (List.range 65).find? (fun k => decide (n ≤ Nat.pow 2 k)) =
      some (Nat.clog 2 n) := by
    rw [List.find?_range_eq_some]
    refine ⟨decide_eq_true (Nat.le_pow_clog (by decide) n), List.mem_range.mpr (by omega), ?_⟩
    intro j hj
    have hlt : ¬ n ≤ Nat.pow 2 j := fun hn => absurd (Nat.clog_le_of_le_pow hn) (by omega)
    simpa using hlt
  have hpower : ((List.range 65).map (Nat.pow 2)).find? (fun p => decide (n ≤ p)) =
      some (2 ^ Nat.clog 2 n) := by
    rw [List.find?_map]
    exact congrArg (Option.map (Nat.pow 2)) hfirst
  rw [powerOfTwoFrom, hpower, Option.getD_some]

/-! ### The queue -/

namespace EventQueue

/-- The queue holds the newest events of a record. -/
structure Holds (C : Nat) (q : EventQueue α) (es : List α) (n : Nat) (closed : Bool) : Prop where
  records : q.Records es
  slots : q.slots = C
  receivers : closed = false → q.receivers = n
  closed : q.closed = closed

/-- The oldest event kept has the number of those that are gone. -/
theorem Records.oldest_eq {q : EventQueue α} {es : List α} (h : q.Records es) :
    q.oldest = es.length - q.slots := by
  have hsize : q.kept.size = es.length - (es.length - q.slots) := by
    rw [← Array.length_toList, h.kept, List.length_drop]
  rw [oldest, hsize, h.published]
  omega

/-- An event that is kept is found under its number. -/
theorem Records.getElem?_kept {q : EventQueue α} {es : List α} (h : q.Records es) {next : Nat}
    (hnext : q.oldest ≤ next) : q.kept[next - q.oldest]? = es[next]? := by
  rw [← Array.getElem?_toList, h.kept, List.getElem?_drop, ← h.oldest_eq]
  congr 1
  omega

theorem slots_publish (q : EventQueue α) (e : α) : (q.publish e).slots = q.slots := by
  rw [publish]
  split <;> rfl

theorem receivers_publish (q : EventQueue α) (e : α) : (q.publish e).receivers = q.receivers := by
  rw [publish]
  split <;> rfl

/-- **The queue keeps the newest events.** -/
theorem keeps (C : Nat) : (channel (α := α)).Keeps C (Holds C) where
  subscribe_open {q es n} h := by
    have hnext : q.published = es.length := h.records.published
    show Holds C q.subscribe.1 es (n + 1) false ∧ q.subscribe.2 = _
    rw [subscribe, if_neg (by rw [h.closed]; exact Bool.false_ne_true), ← hnext]
    exact ⟨⟨⟨hnext, h.records.kept⟩, h.slots, fun _ => congrArg (· + 1) (h.receivers rfl),
      h.closed⟩, rfl⟩
  subscribe_closed {q es n} h := by
    have hnext : q.published = es.length := h.records.published
    show q.subscribe.1 = q ∧ q.subscribe.2 = _
    rw [subscribe, if_pos h.closed, hnext]
    exact ⟨rfl, rfl⟩
  publish_open {q es n} h e := by
    refine ⟨es ++ [e], ⟨h.records.publish h.closed e, ?_, fun hopen => ?_, ?_⟩, .inl rfl⟩
    · exact (slots_publish q e).trans h.slots
    · exact (receivers_publish q e).trans (h.receivers hopen)
    · exact (closed_publish q e).trans h.closed
  publish_closed {q es n} h e := by
    show q.publish e = q
    rw [publish, if_pos h.closed]
  close {q es n closed} h :=
    ⟨⟨h.records.published, h.records.kept⟩, h.slots, fun hf => absurd hf.symm Bool.false_ne_true,
      rfl⟩
  receive {q es n closed} h {next} hnext := by
    show q.receive next = _
    have holdest := h.records.oldest_eq
    rw [h.slots] at holdest
    have hlags : next < q.oldest ↔ next + C < es.length := by omega
    rw [receive, Channel.newest]
    by_cases hlt : next < q.oldest
    · rw [if_pos hlt, if_pos (hlags.mp hlt), holdest]
    · rw [if_neg hlt, if_neg (mt hlags.mpr hlt), h.records.getElem?_kept (Nat.not_lt.mp hlt)]
      cases es[next]? with
      | some e => rfl
      | none =>
        exact congrArg (fun closed : Bool => (next, if closed then Look.closed else Look.empty))
          h.closed

end EventQueue

/-! ### The ring -/

/-- A ring of slots, written round and round. -/
structure Ring (α : Type) where
  /-- What each slot was last written: an event, with its number. -/
  slots : List (Option (Nat × α))
  /-- The number of the event to be written next. -/
  tail : Nat
  receivers : Nat
  closed : Bool

namespace Ring

/-- An empty ring with as many slots as the next power of two. -/
def ofCapacity (capacity : Nat) : Ring α :=
  ⟨List.replicate (powerOfTwoFrom (max capacity 1)) none, 0, 0, false⟩

/-- Adds a receiver that begins with the next event. -/
def subscribe (b : Ring α) : Ring α × Receiver :=
  if b.closed then (b, { next := b.tail, finished := true })
  else ({ b with receivers := b.receivers + 1 }, { next := b.tail })

/-- Writes an event over the oldest one, if there is somebody to receive it. -/
def publish (b : Ring α) (e : α) : Ring α :=
  if b.closed || b.receivers == 0 then b
  else
    { b with
      slots := b.slots.set (b.tail % b.slots.length) (some (b.tail, e))
      tail := b.tail + 1 }

def close (b : Ring α) : Ring α := { b with closed := true }

/-- Looks into the slot of the event with a number. -/
def receive (b : Ring α) (next : Nat) : Nat × Look α :=
  let nothing := if b.closed then .closed else .empty
  match b.slots[next % b.slots.length]? with
  | some (some (number, e)) =>
    if number = next then (next + 1, .event e)
    else if number + b.slots.length = next then (next, nothing)
    else
      -- the slot has been written again since
      let oldest := b.tail - b.slots.length
      if oldest = next then (next + 1, .event e) else (oldest, .lagged (oldest - next))
  | _ => (next, nothing)

/-- The ring as a channel. -/
def channel : Channel (Ring α) α where
  subscribe := subscribe
  publish := publish
  close := close
  receive := receive

/-- The ring holds the newest events of a record. -/
structure Holds (C : Nat) (b : Ring α) (es : List α) (n : Nat) (closed : Bool) : Prop where
  length : b.slots.length = C
  tail : b.tail = es.length
  receivers : b.receivers = n
  closed : b.closed = closed
  /-- Each of the newest events is in its slot. -/
  written : ∀ p e, es[p]? = some e → es.length ≤ p + C → b.slots[p % C]? = some (some (p, e))
  /-- The slots that the events have not reached are empty. -/
  unwritten : ∀ k, es.length ≤ k → k < C → b.slots[k]? = some none

/-- Some number of the last turn round the ring has the slot of a given number. -/
theorem exists_same_slot {C next tail : Nat} (hC : 0 < C) (h : next < tail) :
    ∃ p, p < tail ∧ tail ≤ p + C ∧ p % C = next % C := by
  have hdistance := Nat.div_add_mod (tail - 1 - next) C
  have hlt := Nat.mod_lt (tail - 1 - next) hC
  refine ⟨next + C * ((tail - 1 - next) / C), ?_, ?_, Nat.add_mul_mod_self_left _ _ _⟩ <;> omega

/-- Two numbers less than a turn apart have different slots. -/
theorem mod_ne_of_lt {C p tail : Nat} (h : p < tail) (hC : tail < p + C) : p % C ≠ tail % C := by
  intro heq
  have hdvd : C ∣ tail - p := Nat.dvd_of_mod_eq_zero (Nat.sub_mod_eq_zero_of_mod_eq heq.symm)
  have := Nat.le_of_dvd (by omega) hdvd
  omega

/-- A new event takes the slot of the oldest one, and of no other that is kept. -/
theorem Holds.publish {C n : Nat} {b : Ring α} {es : List α} (hC : 0 < C)
    (h : b.Holds C es n false) (hn : n ≠ 0) (e : α) :
    (b.publish e).Holds C (es ++ [e]) n false := by
  have hpublish : b.publish e =
      { b with
        slots := b.slots.set (es.length % C) (some (es.length, e)), tail := es.length + 1 } := by
    have hsomebody : (b.closed || b.receivers == 0) = false := by
      rw [h.closed, h.receivers, Bool.false_or]
      exact beq_eq_false_iff_ne.mpr hn
    rw [Ring.publish, hsomebody, if_neg Bool.false_ne_true, h.length, h.tail]
  rw [hpublish]
  refine ⟨?_, ?_, h.receivers, h.closed, ?_, ?_⟩
  · rw [List.length_set]
    exact h.length
  · rw [List.length_append]
    rfl
  · intro p e' he hkept
    rw [List.length_append, List.length_singleton] at hkept
    have hlt : es.length % C < b.slots.length := h.length.symm ▸ Nat.mod_lt _ hC
    rcases Nat.lt_trichotomy p es.length with hp | rfl | hp
    · rw [List.getElem?_append_left hp] at he
      rw [List.getElem?_set_ne (mod_ne_of_lt hp (by omega)).symm]
      exact h.written p e' he (by omega)
    · rw [List.getElem?_concat_length] at he
      obtain rfl := Option.some.inj he
      exact List.getElem?_set_self hlt
    · have hlength : (es ++ [e]).length ≤ p := by rwa [List.length_append]
      exact absurd (he.symm.trans (List.getElem?_eq_none hlength)) (Option.some_ne_none _)
  · intro k hle hk
    rw [List.length_append, List.length_singleton] at hle
    have hslot : es.length % C = es.length := Nat.mod_eq_of_lt (by omega)
    rw [List.getElem?_set_ne (by omega)]
    exact h.unwritten k (by omega) hk

/-- A slot that has been written says what a receiver gets by the number in it. -/
theorem receive_of_written {b : Ring α} {next number : Nat} {e : α}
    (h : b.slots[next % b.slots.length]? = some (some (number, e))) :
    b.receive next =
      if number = next then (next + 1, .event e)
      else if number + b.slots.length = next then (next, if b.closed then .closed else .empty)
      else if b.tail - b.slots.length = next then (next + 1, .event e)
      else (b.tail - b.slots.length, .lagged (b.tail - b.slots.length - next)) := by
  rw [receive, h]

/-- A slot that has not been written has nothing for anybody. -/
theorem receive_of_unwritten {b : Ring α} {next : Nat}
    (h : b.slots[next % b.slots.length]? = some none) :
    b.receive next = (next, if b.closed then .closed else .empty) := by
  rw [receive, h]

/-- **What the ring hands out** is what the newest events say. -/
theorem Holds.receive {C n next : Nat} {b : Ring α} {es : List α} {closed : Bool} (hC : 0 < C)
    (h : b.Holds C es n closed) (hnext : next ≤ es.length) :
    b.receive next = Channel.newest C closed es next := by
  rw [Channel.newest]
  rcases Nat.lt_or_eq_of_le hnext with hlt | rfl
  · rw [List.getElem?_eq_getElem hlt]
    rcases Nat.lt_or_ge (next + C) es.length with hlags | hkept
    · -- the slot has been written again since
      obtain ⟨p, hp, hnewest, hslot⟩ := exists_same_slot hC hlt
      have hwritten := h.written p es[p] (List.getElem?_eq_getElem hp) hnewest
      rw [hslot, ← h.length] at hwritten
      have hlater : p ≠ next ∧ p + C ≠ next ∧ es.length - C ≠ next := by omega
      rw [if_pos hlags, receive_of_written hwritten, h.length, h.tail, if_neg hlater.1,
        if_neg hlater.2.1, if_neg hlater.2.2]
    · have hwritten := h.written next es[next] (List.getElem?_eq_getElem hlt) hkept
      rw [← h.length] at hwritten
      rw [if_neg (Nat.not_lt.mpr hkept), receive_of_written hwritten, if_pos rfl]
  · rw [if_neg (Nat.not_lt.mpr (Nat.le_add_right _ _)), List.getElem?_eq_none (Nat.le_refl _)]
    rcases Nat.lt_or_ge es.length C with hfirst | hround
    · -- the first turn round the ring has not reached the slot
      have hslot : b.slots[es.length % b.slots.length]? = some none := by
        rw [h.length, Nat.mod_eq_of_lt hfirst]
        exact h.unwritten es.length (Nat.le_refl _) hfirst
      rw [receive_of_unwritten hslot, h.closed]
    · -- the slot has the event that comes next to be overwritten
      have hlt : es.length - C < es.length := by omega
      obtain ⟨e, he⟩ : ∃ e, es[es.length - C]? = some e := ⟨_, List.getElem?_eq_getElem hlt⟩
      have hwritten := h.written (es.length - C) e he (by omega)
      rw [← Nat.mod_eq_sub_mod hround, ← h.length] at hwritten
      have hearlier : es.length - b.slots.length ≠ es.length ∧
          es.length - b.slots.length + b.slots.length = es.length := by
        rw [h.length]
        omega
      rw [receive_of_written hwritten, if_neg hearlier.1, if_pos hearlier.2, h.closed]

/-- **The ring keeps the newest events.** -/
theorem keeps {C : Nat} (hC : 0 < C) : (channel (α := α)).Keeps C (Holds C) where
  subscribe_open {b es n} h := by
    show Holds C b.subscribe.1 es (n + 1) false ∧ b.subscribe.2 = _
    rw [subscribe, if_neg (by rw [h.closed]; exact Bool.false_ne_true), ← h.tail]
    exact ⟨⟨h.length, h.tail, congrArg (· + 1) h.receivers, h.closed, h.written, h.unwritten⟩, rfl⟩
  subscribe_closed {b es n} h := by
    show b.subscribe.1 = b ∧ b.subscribe.2 = _
    rw [subscribe, if_pos h.closed, h.tail]
    exact ⟨rfl, rfl⟩
  publish_open {b es n} h e := by
    by_cases hn : n = 0
    · refine ⟨es, ?_, .inr hn⟩
      have hnobody : (b.closed || b.receivers == 0) = true := by
        rw [h.receivers, hn]
        exact Bool.or_true _
      show Holds C (b.publish e) es n false
      rw [publish, if_pos hnobody]
      exact h
    · exact ⟨es ++ [e], h.publish hC hn e, .inl rfl⟩
  publish_closed {b es n} h e := by
    show b.publish e = b
    rw [publish, h.closed, Bool.true_or, if_pos rfl]
  close {b es n closed} h := ⟨h.length, h.tail, h.receivers, rfl, h.written, h.unwritten⟩
  receive {b es n closed} h {next} hnext := h.receive hC hnext

/-- A new ring holds the newest of no events. -/
theorem holds_ofCapacity {capacity C : Nat} (hC : powerOfTwoFrom (max capacity 1) = C) :
    (ofCapacity capacity : Ring α).Holds C [] 0 false where
  length := by rw [ofCapacity, List.length_replicate, hC]
  tail := rfl
  receivers := rfl
  closed := rfl
  written p e he := by cases he
  unwritten k _ hk := by
    rw [ofCapacity, hC, List.getElem?_replicate, if_pos hk]

end Ring

/-! ### Delivery -/

/-- A call returns in one way. -/
theorem Channel.Returns.unique {χ : Type} {ch : Channel χ α} {c : χ} {d : Demand}
    {r r' r'' : Receiver} {reply reply' : Reply α} (h : ch.Returns c d r r' reply)
    (h' : ch.Returns c d r r'' reply') : r' = r'' ∧ reply = reply' := by
  induction h with
  | now hlook hl =>
    cases h' with
    | now hlook' =>
      obtain ⟨rfl, rfl⟩ := Prod.ext_iff.mp (hlook.symm.trans hlook')
      exact ⟨rfl, rfl⟩
    | again hlook' => exact absurd (congrArg Prod.snd (hlook.symm.trans hlook')) (hl _)
  | again hlook _ ih =>
    cases h' with
    | now hlook' hl => exact absurd (congrArg Prod.snd (hlook'.symm.trans hlook)) (hl _)
    | again hlook' hrest =>
      obtain ⟨rfl, -⟩ := Prod.ext_iff.mp (hlook.symm.trans hlook')
      exact ih hrest

/-- The answer to a try tells whether there was an event, and which. -/
theorem Demand.answer_tryRecv_inj {closed closed' : Bool} {e e' : Option α}
    (h : Demand.tryRecv.answer closed e = Demand.tryRecv.answer closed' e') : e = e' := by
  cases e <;> cases e' <;> cases closed <;> cases closed' <;> cases h <;> rfl

namespace EventQueue

theorem holds_ofCapacity {capacity C : Nat} (hC : powerOfTwoFrom (max capacity 1) = C) :
    (ofCapacity capacity : EventQueue α).Holds C [] 0 false :=
  ⟨⟨rfl, List.drop_nil.symm⟩, hC, fun _ => rfl, rfl⟩

/-- **The queue delivers what is due.**  Every receiver gets a part of the events published between
its subscription and the close, in their order and each once.  What it takes next is the event at
the place that it is past, counting what it has lost, and it loses an event only if `C` newer ones
are there.  No receiver matters to another, and nothing is left out of the count in the end.  A ring
of `C` slots, where a call can be interrupted after each notice of lag, delivers the same. -/
theorem delivers_what_is_due {capacity : Nat} (hcapacity : capacity ≤ 2 ^ 63 - 1)
    (moves : List (Move α)) {i : Nat} (hi : i < Move.subscriptions moves) :
    ∃ k k' : Client α,
      channel.Delivers (ofCapacity capacity) (2 ^ Nat.clog 2 (max capacity 1)) moves i k ∧
      ((channel.run (ofCapacity capacity) moves).channel.take k.receiver).2 =
        (Move.due i moves)[k.got.length +
          ((channel.run (ofCapacity capacity) moves).channel.take k.receiver).1.dropped]? ∧
      ((channel.run (ofCapacity capacity) moves).channel.take k.receiver).1.dropped =
        k.receiver.dropped +
          ((Move.due i moves).length - 2 ^ Nat.clog 2 (max capacity 1) - k.past) ∧
      Ring.channel.Delivers (Ring.ofCapacity capacity) (2 ^ Nat.clog 2 (max capacity 1)) moves i
        k' ∧
      k'.view = k.view := by
  have hC := powerOfTwoFrom_eq (n := max capacity 1) (by omega)
  have hqueue := keeps (α := α) (2 ^ Nat.clog 2 (max capacity 1))
  have hring := Ring.keeps (α := α) (C := 2 ^ Nat.clog 2 (max capacity 1)) (Nat.two_pow_pos _)
  obtain ⟨k, hk⟩ := hqueue.delivers (holds_ofCapacity hC) moves hi
  obtain ⟨k', hk'⟩ := hring.delivers (Ring.holds_ofCapacity hC) moves hi
  have hviews := hring.view_run hqueue (Ring.holds_ofCapacity hC) (holds_ofCapacity hC) moves
  have hview : k'.view = k.view := by
    have hsame := congrArg (·[i]?) hviews
    simpa [hk.client, hk'.client] using hsame
  obtain ⟨r, hreturns, hdropped⟩ := hk.call .tryRecv
  obtain ⟨htake, hanswer⟩ := (returns_take _ k.receiver .tryRecv).unique hreturns
  refine ⟨k, k', hk, ?_, ?_, hk', hview⟩
  · rw [htake]
    exact Demand.answer_tryRecv_inj hanswer
  · rw [htake]
    exact hdropped

/-- Five events, of which a receiver that asks for none of them misses three, and another none. -/
def fiveEvents : List (Move Nat) :=
  [.subscribe, .subscribe, .publish 1, .ask 1 .recv, .publish 2, .ask 1 .recv, .publish 3,
    .ask 1 .recv, .publish 4, .ask 1 .tryRecv, .publish 5, .ask 1 .recv, .close]

/-- The receiver that asks for none of the five events, at a capacity of two. -/
theorem delivers_what_is_due_to_the_slow :
    (2 ≤ 2 ^ 63 - 1 ∧ 0 < Move.subscriptions fiveEvents) ∧
      ∃ k k' : Client Nat,
        channel.Delivers (ofCapacity 2) (2 ^ Nat.clog 2 (max 2 1)) fiveEvents 0 k ∧
        ((channel.run (ofCapacity 2) fiveEvents).channel.take k.receiver).2 =
          (Move.due 0 fiveEvents)[k.got.length +
            ((channel.run (ofCapacity 2) fiveEvents).channel.take k.receiver).1.dropped]? ∧
        ((channel.run (ofCapacity 2) fiveEvents).channel.take k.receiver).1.dropped =
          k.receiver.dropped +
            ((Move.due 0 fiveEvents).length - 2 ^ Nat.clog 2 (max 2 1) - k.past) ∧
        Ring.channel.Delivers (Ring.ofCapacity 2) (2 ^ Nat.clog 2 (max 2 1)) fiveEvents 0 k' ∧
        k'.view = k.view :=
  ⟨⟨by decide, by decide⟩, delivers_what_is_due (by decide) fiveEvents (by decide)⟩

end EventQueue

end VirtualTerminal
