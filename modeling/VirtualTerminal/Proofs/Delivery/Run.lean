import Mathlib.Data.List.Induction
import VirtualTerminal.Proofs.Delivery.Basic

/-!
# Delivery — Run

What receivers get from a channel that keeps the newest `C` events (`Keeps`), whatever moves are made
in whatever order.

* `Stands`: where a client stands in the events due to it.  `Stands.ask`: one turn of a call shows
  the event at that place, or tells of the events that are gone, and the client stands on.
* `kept_run`: every client stands somewhere after every run.

**Delivery** (`Keeps.delivers`): what a client gets, how its next call ends, and what it loses is
determined by the events due to it alone (`Delivers`).
-/

namespace VirtualTerminal.Channel

variable {χ α : Type} {ch : Channel χ α} {C n : Nat} {closed : Bool} {c : χ} {es due : List α}
  {k : Client α} {Holds : χ → List α → Nat → Bool → Prop}

/-! ### Channels that keep the newest events -/

/-- What the newest `C` events of a record show to somebody who looks for the one with a number, and
the number to look for next. -/
def newest (C : Nat) (closed : Bool) (es : List α) (next : Nat) : Nat × Look α :=
  if next + C < es.length then (es.length - C, .lagged (es.length - C - next))
  else
    match es[next]? with
    | some e => (next + 1, .event e)
    | none => (next, if closed then .closed else .empty)

/-- The channel keeps the newest `C` events of a record, while so many have subscribed and until it
is closed.  Events that nobody could receive may be left out of the record. -/
structure Keeps (ch : Channel χ α) (C : Nat) (Holds : χ → List α → Nat → Bool → Prop) : Prop where
  subscribe_open {c : χ} {es : List α} {n : Nat} (h : Holds c es n false) :
    Holds (ch.subscribe c).1 es (n + 1) false ∧ (ch.subscribe c).2 = { next := es.length }
  subscribe_closed {c : χ} {es : List α} {n : Nat} (h : Holds c es n true) :
    (ch.subscribe c).1 = c ∧ (ch.subscribe c).2 = { next := es.length, finished := true }
  publish_open {c : χ} {es : List α} {n : Nat} (h : Holds c es n false) (e : α) :
    ∃ es', Holds (ch.publish c e) es' n false ∧ (es' = es ++ [e] ∨ n = 0)
  publish_closed {c : χ} {es : List α} {n : Nat} (h : Holds c es n true) (e : α) :
    ch.publish c e = c
  close {c : χ} {es : List α} {n : Nat} {closed : Bool} (h : Holds c es n closed) :
    Holds (ch.close c) es n true
  receive {c : χ} {es : List α} {n : Nat} {closed : Bool} (h : Holds c es n closed) {next : Nat}
    (hnext : next ≤ es.length) : ch.receive c next = newest C closed es next

/-! ### One turn of a call -/

/-- What a look shows to a client that is past so many of the events due to it, and how many of them
the client learns to have lost. -/
inductive Shows (C : Nat) (closed : Bool) (due : List α) (past : Nat) : Nat → Look α → Prop
  /-- The next event, which is among the newest. -/
  | event {e : α} (hkept : due.length ≤ past + C) (he : due[past]? = some e) :
      Shows C closed due past 0 (.event e)
  /-- The next events are gone: after the last of them, `C` newer ones were published. -/
  | lagged {missed : Nat} (hpos : 0 < missed) (hnewer : past + missed + C = due.length) :
      Shows C closed due past missed (.lagged missed)
  | empty (hall : past = due.length) (hopen : closed = false) : Shows C closed due past 0 .empty
  | closed (hall : past = due.length) (hclosed : closed = true) : Shows C closed due past 0 .closed

/-- A look that is not behind shows the event that is due next, if there is one. -/
theorem Shows.answer {past missed : Nat} {l : Look α} (h : Shows C closed due past missed l)
    (hl : ∀ missed, l ≠ .lagged missed) (d : Demand) :
    missed = 0 ∧ due.length ≤ past + C ∧ d.reply l = d.answer closed due[past]? := by
  cases h with
  | event hkept he =>
    rw [he]
    exact ⟨rfl, hkept, rfl⟩
  | lagged => exact absurd rfl (hl _)
  | empty hall hopen =>
    rw [hall, List.getElem?_eq_none (Nat.le_refl _), hopen]
    exact ⟨rfl, Nat.le_add_right _ _, rfl⟩
  | closed hall hclosed =>
    rw [hall, List.getElem?_eq_none (Nat.le_refl _), hclosed]
    exact ⟨rfl, Nat.le_add_right _ _, rfl⟩

/-- What is due determines what is shown. -/
theorem Shows.unique {past missed missed' : Nat} {l l' : Look α}
    (h : Shows C closed due past missed l) (h' : Shows C closed due past missed' l') :
    missed = missed' ∧ l = l' := by
  have hlt : ∀ {e}, due[past]? = some e → past < due.length := fun he =>
    (List.getElem?_eq_some_iff.mp he).1
  cases h with
  | event hkept he =>
    cases h' with
    | event _ he' => exact ⟨rfl, congrArg Look.event (Option.some.inj (he.symm.trans he'))⟩
    | lagged => omega
    | empty hall | closed hall => exact absurd (hlt he) (by omega)
  | lagged hpos hnewer =>
    cases h' with
    | lagged =>
      have hsame : missed = missed' := by omega
      exact ⟨hsame, congrArg Look.lagged hsame⟩
    | event | empty | closed => omega
  | empty hall hopen =>
    cases h' with
    | empty => exact ⟨rfl, rfl⟩
    | event _ he => exact absurd (hlt he) (by omega)
    | lagged => omega
    | closed _ hclosed => exact absurd (hopen.symm.trans hclosed) Bool.false_ne_true
  | closed hall hclosed =>
    cases h' with
    | closed => exact ⟨rfl, rfl⟩
    | event _ he => exact absurd (hlt he) (by omega)
    | lagged => omega
    | empty _ hopen => exact absurd (hopen.symm.trans hclosed) Bool.false_ne_true

/-- Who gets nothing is past all that is due. -/
theorem Shows.past_eq_of_none {past missed : Nat} {l : Look α}
    (h : Shows C closed due past missed l) {d : Demand} (hnone : d.reply l = .none) :
    past = due.length := by
  cases h with
  | event | lagged => cases d <;> cases hnone
  | empty hall | closed hall => exact hall

/-- Where a client stands in the events due to it, which are the last of a record. -/
structure Stands (closed : Bool) (es due : List α) (k : Client α) : Prop where
  suffix : due <:+ es
  next_eq : k.receiver.next + due.length = es.length + k.past
  past_le : k.past ≤ due.length
  inOrder : k.got.Sublist (due.take k.past)
  finished : k.receiver.finished = true → closed = true ∧ k.past = due.length

theorem Stands.next_le (h : Stands closed es due k) : k.receiver.next ≤ es.length := by
  have := h.next_eq
  have := h.past_le
  omega

/-- A client looks for the event that is due next. -/
theorem Stands.getElem?_next (h : Stands closed es due k) :
    es[k.receiver.next]? = due[k.past]? := by
  obtain ⟨before, hes⟩ := h.suffix
  have hnext := h.next_eq
  rw [← hes, List.length_append] at hnext
  have hplace : k.receiver.next = before.length + k.past := by omega
  rw [← hes, hplace, List.getElem?_append_right (Nat.le_add_right _ _), Nat.add_sub_cancel_left]

theorem got_concat (r : Receiver) (replies : List (Reply α)) (reply : Reply α) :
    (Client.mk r (replies ++ [reply])).got =
      (Client.mk r replies).got ++ reply.event?.toList := by
  rw [Client.got, List.filterMap_append]
  cases h : reply.event? <;> simp [h, Client.got]

/-- No event comes of a look that shows none. -/
theorem event?_reply (d : Demand) {l : Look α} (hl : ∀ e, l ≠ .event e) :
    (d.reply l).event? = none := by
  cases l with
  | event e => exact absurd rfl (hl e)
  | lagged | empty | closed => cases d <;> rfl

/-- The client after a look that gives no event, and tells how many are lost. -/
theorem Stands.silent (hk : Stands closed es due k) {r : Receiver} {l : Look α} (missed : Nat)
    (hl : ∀ e, l ≠ .event e) (d : Demand) (hdropped : r.dropped = k.receiver.dropped + missed)
    (hnext : r.next + due.length = es.length + (k.past + missed))
    (hpast : k.past + missed ≤ due.length)
    (hfinished : r.finished = true → closed = true ∧ k.past + missed = due.length) :
    Stands closed es due ⟨r, k.replies ++ [d.reply l]⟩ := by
  have hgot : (Client.mk r (k.replies ++ [d.reply l])).got = k.got := by
    rw [got_concat, event?_reply d hl]
    exact List.append_nil _
  have hplace : (Client.mk r (k.replies ++ [d.reply l])).past = k.past + missed := by
    rw [Client.past, hgot, hdropped, Client.past, Nat.add_assoc]
  refine ⟨hk.suffix, ?_, ?_, ?_, ?_⟩
  · rw [hplace]
    exact hnext
  · rw [hplace]
    exact hpast
  · rw [hplace, hgot]
    exact hk.inOrder.trans (List.take_sublist_take_left (Nat.le_add_right _ _))
  · rw [hplace]
    exact hfinished

/-- The client after a look that gives it the next event due to it. -/
theorem Stands.give (hk : Stands closed es due k) {e : α} (he : due[k.past]? = some e)
    (hopen : k.receiver.finished = false) :
    Stands closed es due
      ⟨{ k.receiver with next := k.receiver.next + 1 }, k.replies ++ [.event e]⟩ := by
  have hgot : (Client.mk { k.receiver with next := k.receiver.next + 1 }
      (k.replies ++ [.event e])).got = k.got ++ [e] := got_concat _ _ _
  have hplace : (Client.mk { k.receiver with next := k.receiver.next + 1 }
      (k.replies ++ [.event e])).past = k.past + 1 := by
    rw [Client.past, hgot, List.length_append, List.length_singleton, Client.past]
    exact Nat.add_right_comm _ _ _
  have hnext := hk.next_eq
  refine ⟨hk.suffix, ?_, ?_, ?_, ?_⟩
  · show k.receiver.next + 1 + due.length = _
    omega
  · rw [hplace]
    exact (List.getElem?_eq_some_iff.mp he).1
  · rw [hplace, hgot, List.take_add_one, he]
    exact hk.inOrder.append (List.Sublist.refl _)
  · intro h
    exact absurd (hopen.symm.trans h) Bool.false_ne_true

/-- **A turn of a call** shows a client what is due to it. -/
theorem Stands.ask (hkeeps : ch.Keeps C Holds) (hc : Holds c es n closed)
    (hk : Stands closed es due k) (d : Demand) :
    ∃ missed, (ch.look c k.receiver).1.dropped = k.receiver.dropped + missed ∧
      Shows C closed due k.past missed (ch.look c k.receiver).2 ∧
      Stands closed es due (ch.ask c d k) := by
  have hsuffix := hk.suffix.length_le
  have hnext := hk.next_eq
  have hpast := hk.past_le
  rw [Channel.ask]
  cases hfinished : k.receiver.finished with
  | true =>
    obtain ⟨hclosed, hall⟩ := hk.finished hfinished
    have hlook : ch.look c k.receiver = (k.receiver, .closed) := if_pos hfinished
    rw [hlook]
    exact ⟨0, rfl, .closed hall hclosed, hk.silent 0 (by simp) d rfl hnext hpast hk.finished⟩
  | false =>
    have hreceive := hkeeps.receive hc hk.next_le
    rw [newest, hk.getElem?_next] at hreceive
    rw [Channel.look, if_neg (by rw [hfinished]; exact Bool.false_ne_true), hreceive]
    by_cases hlags : k.receiver.next + C < es.length
    · rw [if_pos hlags]
      refine ⟨_, rfl, .lagged (by omega) (by omega), hk.silent _ (by simp) d rfl ?_ (by omega)
        fun h => ?_⟩
      · show es.length - C + due.length = _
        omega
      exact absurd (hfinished.symm.trans h) Bool.false_ne_true
    · rw [if_neg hlags]
      cases he : due[k.past]? with
      | some e => exact ⟨0, rfl, .event (by omega) he, hk.give he hfinished⟩
      | none =>
        have hall : k.past = due.length := Nat.le_antisymm hpast (List.getElem?_eq_none_iff.mp he)
        cases closed with
        | true =>
          exact ⟨0, rfl, .closed hall rfl,
            hk.silent 0 (by simp) d rfl hnext hpast fun _ => ⟨rfl, hall⟩⟩
        | false =>
          refine ⟨0, rfl, .empty hall rfl, hk.silent 0 (by simp) d rfl hnext hpast fun h => ?_⟩
          exact absurd (hfinished.symm.trans h) Bool.false_ne_true

/-- **A call that nobody interrupts** gives the first event that is still kept. -/
theorem Stands.call (hkeeps : ch.Keeps C Holds) (hc : Holds c es n closed)
    (hk : Stands closed es due k) (d : Demand) :
    ∃ r, ch.Returns c d k.receiver r (d.answer closed due[k.got.length + r.dropped]?) ∧
      r.dropped = k.receiver.dropped + (due.length - C - k.past) := by
  obtain ⟨missed, hdropped, hshows, hk'⟩ := hk.ask hkeeps hc d
  by_cases hlags : ∃ missed, (ch.look c k.receiver).2 = .lagged missed
  · -- the next look is at the oldest event that is kept, so it shows no lag
    obtain ⟨missed', hlook⟩ := hlags
    rw [hlook] at hshows
    cases hshows with | lagged hpos hnewer =>
    have hgot : (ch.ask c d k).got = k.got := by
      rw [Channel.ask, got_concat, event?_reply d (by simp [hlook])]
      exact List.append_nil _
    have hplace : (ch.ask c d k).past = k.past + missed := by
      rw [Client.past, hgot, Client.past, Nat.add_assoc]
      exact congrArg (k.got.length + ·) hdropped
    obtain ⟨more, hdropped', hshows', -⟩ := hk'.ask hkeeps hc d
    have hl : ∀ missed, (ch.look c (ch.ask c d k).receiver).2 ≠ .lagged missed := by
      intro missed' hlook'
      rw [hlook', hplace] at hshows'
      cases hshows'
      omega
    obtain ⟨rfl, -, hanswer⟩ := hshows'.answer hl d
    have hall : (ch.look c (ch.ask c d k).receiver).1.dropped = k.receiver.dropped + missed :=
      hdropped'.trans hdropped
    refine ⟨(ch.look c (ch.ask c d k).receiver).1, ?_, ?_⟩
    · rw [hall, ← Nat.add_assoc, ← Client.past, ← hplace]
      exact .again (Prod.ext rfl hlook) (hanswer ▸ .now rfl hl)
    · rw [hall]
      omega
  · have hl : ∀ missed, (ch.look c k.receiver).2 ≠ .lagged missed := not_exists.mp hlags
    obtain ⟨rfl, hkept, hanswer⟩ := hshows.answer hl d
    rw [Nat.add_zero] at hdropped
    refine ⟨(ch.look c k.receiver).1, ?_, ?_⟩
    · rw [hdropped]
      exact hanswer ▸ .now rfl hl
    · rw [hdropped, Nat.sub_eq_zero_of_le (by omega), Nat.add_zero]

/-! ### Runs -/

/-- The client stands after an event is published. -/
theorem Stands.publish (hk : Stands false es due k) (e : α) :
    Stands false (es ++ [e]) (due ++ [e]) k := by
  refine ⟨?_, ?_, ?_, ?_, fun h => absurd (hk.finished h).1 Bool.false_ne_true⟩
  · obtain ⟨before, rfl⟩ := hk.suffix
    exact ⟨before, (List.append_assoc _ _ _).symm⟩
  · have := hk.next_eq
    simp only [List.length_append, List.length_singleton]
    omega
  · rw [List.length_append]
    exact Nat.le_add_right_of_le hk.past_le
  · rw [List.take_append_of_le_length hk.past_le]
    exact hk.inOrder

/-- The close leaves a client where it stands. -/
theorem Stands.close (hk : Stands closed es due k) : Stands true es due k :=
  ⟨hk.suffix, hk.next_eq, hk.past_le, hk.inOrder, fun h => ⟨rfl, (hk.finished h).2⟩⟩

/-- The record of a channel that may be closed, and the place of each of its clients in what is due
to it. -/
structure Kept (Holds : χ → List α → Nat → Bool → Prop) (closed : Bool) (dues : Nat → List α)
    (s : Traffic χ α) (es : List α) (n : Nat) : Prop where
  holds : Holds s.channel es n closed
  subscribed : closed = false → n = s.clients.length
  stands : ∀ i k, s.clients[i]? = some k → Stands closed es (dues i) k

variable {s : Traffic χ α} {dues dues' : Nat → List α}

/-- A client who has just subscribed. -/
theorem stands_new (finished : Bool) (h : finished = true → closed = true) :
    Stands closed es [] ⟨{ next := es.length, finished := finished }, []⟩ :=
  ⟨List.nil_suffix, rfl, Nat.le_refl _, List.nil_sublist _, fun hf => ⟨h hf, rfl⟩⟩

/-- A new client, to whom nothing is due yet, beside the others. -/
theorem stands_concat {clients : List (Client α)} (hnew : dues clients.length = [])
    (hstands : ∀ i k, clients[i]? = some k → Stands closed es (dues i) k)
    (hk : Stands closed es [] k) (i : Nat) (k' : Client α) (hi : (clients ++ [k])[i]? = some k') :
    Stands closed es (dues i) k' := by
  rcases Nat.lt_trichotomy i clients.length with hlt | rfl | hgt
  · rw [List.getElem?_append_left hlt] at hi
    exact hstands i k' hi
  · rw [List.getElem?_concat_length] at hi
    obtain rfl := Option.some.inj hi
    exact hnew.symm ▸ hk
  · have hle : (clients ++ [k]).length ≤ i := by rwa [List.length_append]
    exact absurd (hi.symm.trans (List.getElem?_eq_none hle)) (Option.some_ne_none _)

/-- A client who subscribes stands at the end of the record. -/
theorem Kept.subscribe (hkeeps : ch.Keeps C Holds) (h : Kept Holds closed dues s es n)
    (hnew : dues s.clients.length = []) :
    ∃ n', Kept Holds closed dues (ch.step s .subscribe) es n' := by
  cases closed with
  | true =>
    obtain ⟨hsame, hreceiver⟩ := hkeeps.subscribe_closed h.holds
    refine ⟨n, ?_, fun hopen => absurd hopen.symm Bool.false_ne_true, ?_⟩
    · rw [step, hsame]
      exact h.holds
    · exact stands_concat hnew h.stands (hreceiver ▸ stands_new true fun _ => rfl)
  | false =>
    obtain ⟨hholds, hreceiver⟩ := hkeeps.subscribe_open h.holds
    refine ⟨n + 1, hholds, fun _ => ?_, ?_⟩
    · rw [h.subscribed rfl, step, List.length_append, List.length_singleton]
    · exact stands_concat hnew h.stands (hreceiver ▸ stands_new false fun hf => hf)

/-- Behind the close nothing is published. -/
theorem Kept.publish_closed (hkeeps : ch.Keeps C Holds) (h : Kept Holds true dues s es n) (e : α) :
    Kept Holds true dues (ch.step s (.publish e)) es n := by
  rw [step, hkeeps.publish_closed h.holds]
  exact h

/-- Before the close an event is due to all who have subscribed. -/
theorem Kept.publish_open (hkeeps : ch.Keeps C Holds) (h : Kept Holds false dues s es n) {e : α}
    (hdues : ∀ i < s.clients.length, dues' i = dues i ++ [e]) :
    ∃ es', Kept Holds false dues' (ch.step s (.publish e)) es' n := by
  obtain ⟨es', hholds, hrecord⟩ := hkeeps.publish_open h.holds e
  refine ⟨es', hholds, h.subscribed, fun i k hk => ?_⟩
  have hlt : i < s.clients.length := (List.getElem?_eq_some_iff.mp hk).1
  -- the event is in the record, since there is somebody who could receive it
  have hsome : n ≠ 0 := h.subscribed rfl ▸ Nat.ne_zero_of_lt hlt
  rw [hdues i hlt, hrecord.resolve_right hsome]
  exact (h.stands i k hk).publish e

/-- A call moves its own client only. -/
theorem Kept.ask (hkeeps : ch.Keeps C Holds) (h : Kept Holds closed dues s es n) (i : Nat)
    (d : Demand) : Kept Holds closed dues (ch.step s (.ask i d)) es n := by
  refine ⟨h.holds, fun hopen => ?_, fun j k hk => ?_⟩
  · rw [h.subscribed hopen]
    exact (List.length_modify _ _ _).symm
  · rw [step, List.getElem?_modify] at hk
    obtain ⟨k', hk', rfl⟩ := Option.map_eq_some_iff.mp hk
    split
    · obtain ⟨-, -, -, hstands⟩ := (h.stands j k' hk').ask hkeeps h.holds d
      exact hstands
    · exact h.stands j k' hk'

/-- The close leaves everybody where they stand. -/
theorem Kept.close (hkeeps : ch.Keeps C Holds) (h : Kept Holds closed dues s es n) :
    Kept Holds true dues (ch.step s .close) es n :=
  ⟨hkeeps.close h.holds, fun hopen => absurd hopen.symm Bool.false_ne_true,
    fun i k hk => (h.stands i k hk).close⟩

/-- **Every client stands somewhere** in the events due to it, after every run. -/
theorem Keeps.kept_run (hkeeps : ch.Keeps C Holds) (hstart : Holds c [] 0 false)
    (moves : List (Move α)) :
    ∃ es n, Kept Holds (Move.isClosed moves) (Move.due · moves) (ch.run c moves) es n := by
  induction moves using List.reverseRecOn with
  | nil => exact ⟨[], 0, hstart, fun _ => rfl, fun i k hk => absurd hk (by simp)⟩
  | append_singleton moves m ih =>
    obtain ⟨es, n, h⟩ := ih
    have hlength := ch.length_clients c moves
    rw [run_concat, Move.isClosed_append]
    cases m with
    | subscribe =>
      have hnew := Move.due_of_le moves (Nat.le_of_eq hlength.symm)
      obtain ⟨n', h'⟩ := h.subscribe hkeeps hnew
      simp only [Move.due_concat_of_silent moves _ (m := .subscribe) rfl]
      exact ⟨es, n', (Bool.or_false _).symm ▸ h'⟩
    | publish e =>
      cases hclosed : Move.isClosed moves with
      | true =>
        rw [hclosed] at h
        simp only [Move.due_concat, hclosed, true_or, if_true, List.append_nil]
        exact ⟨es, n, h.publish_closed hkeeps e⟩
      | false =>
        rw [hclosed] at h
        have hdues : ∀ i < (ch.run c moves).clients.length,
            Move.due i (moves ++ [.publish e]) = Move.due i moves ++ [e] := by
          intro i hi
          rw [Move.due_concat, hclosed, if_neg (by simp; omega)]
          rfl
        obtain ⟨es', h'⟩ := h.publish_open hkeeps hdues
        exact ⟨es', n, h'⟩
    | ask i d =>
      simp only [Move.due_concat_of_silent moves _ (m := .ask i d) rfl]
      exact ⟨es, n, (Bool.or_false _).symm ▸ h.ask hkeeps i d⟩
    | close =>
      simp only [Move.due_concat_of_silent moves _ (m := .close) rfl]
      exact ⟨es, n, (Bool.or_true _).symm ▸ h.close hkeeps⟩

/-- A client that is past all that is due to it learns that the channel is closed. -/
theorem Stands.ask_drained (hkeeps : ch.Keeps C Holds) (hc : Holds c es n true)
    (hk : Stands true es due k) (hall : k.past = due.length) (d : Demand) :
    ∃ r, r.dropped = k.receiver.dropped ∧ ch.ask c d k = ⟨r, k.replies ++ [.none]⟩ := by
  obtain ⟨missed, hdropped, hshows, -⟩ := hk.ask hkeeps hc d
  rw [Channel.ask]
  generalize (ch.look c k.receiver).1 = r at hdropped
  generalize (ch.look c k.receiver).2 = l at hshows
  cases hshows with
  | event _ he => exact absurd (List.getElem?_eq_some_iff.mp he).1 (by omega)
  | lagged => omega
  | empty _ hopen => exact absurd hopen.symm Bool.false_ne_true
  | closed => exact ⟨r, hdropped, by cases d <;> rfl⟩

/-- Replies without events do not move a client. -/
theorem past_replicate_none (r : Receiver) (replies : List (Reply α)) (m : Nat) :
    (Client.mk r (replies ++ List.replicate m .none)).past = (Client.mk r replies).past := by
  rw [Client.past, Client.got, List.filterMap_append, List.filterMap_replicate_of_none rfl,
    List.append_nil]
  rfl

/-- A client that is past all that was due to it before the close gets nothing from then on. -/
theorem Keeps.run_drained (hkeeps : ch.Keeps C Holds) (hstart : Holds c [] 0 false)
    {moves : List (Move α)} (hclosed : Move.isClosed moves = true) {i : Nat}
    (hk : (ch.run c moves).clients[i]? = some k) (hall : k.past = (Move.due i moves).length)
    (more : List (Move α)) :
    ∃ r, r.dropped = k.receiver.dropped ∧ (ch.run c (moves ++ more)).clients[i]? =
      some ⟨r, k.replies ++ List.replicate (more.countP (Move.asks i)) .none⟩ := by
  induction more using List.reverseRecOn with
  | nil =>
    rw [List.append_nil, List.countP_nil, List.replicate_zero, List.append_nil]
    exact ⟨k.receiver, rfl, hk⟩
  | append_singleton more m ih =>
    obtain ⟨r, hdropped, hclient⟩ := ih
    rw [← List.append_assoc, run_concat, List.countP_append, List.countP_singleton]
    cases m with
    | subscribe =>
      refine ⟨r, hdropped, ?_⟩
      rw [step, List.getElem?_append_left (List.getElem?_eq_some_iff.mp hclient).1]
      exact hclient
    | publish | close => exact ⟨r, hdropped, hclient⟩
    | ask j d =>
      by_cases hj : j = i
      · subst hj
        obtain ⟨es, n, h⟩ := hkeeps.kept_run hstart (moves ++ more)
        rw [Move.isClosed_append, hclosed, Bool.true_or] at h
        have hstands := h.stands j _ hclient
        rw [Move.due_append_of_isClosed j hclosed] at hstands
        have hplace := (past_replicate_none r k.replies (more.countP (Move.asks j))).trans
          ((congrArg (k.got.length + ·) hdropped).trans hall)
        obtain ⟨r', hdropped', hask⟩ := hstands.ask_drained hkeeps h.holds hplace d
        refine ⟨r', hdropped'.trans hdropped, ?_⟩
        have hasks : Move.asks j (.ask j d : Move α) = true := beq_self_eq_true j
        rw [step, List.getElem?_modify, hclient, Option.map_eq_map, Option.map_some, if_pos rfl,
          hask, if_pos hasks, List.replicate_succ', ← List.append_assoc]
      · have hasks : Move.asks i (.ask j d : Move α) = false := beq_eq_false_iff_ne.mpr hj
        rw [step, List.getElem?_modify_ne _ _ hj, if_neg (by rw [hasks]; exact Bool.false_ne_true)]
        exact ⟨r, hdropped, hclient⟩

/-! ### Channels that cannot be told apart -/

section Same

variable {χ' : Type} {ch' : Channel χ' α} {c' : χ'} {n' : Nat} {es' : List α} {k' : Client α}
  {Holds' : χ' → List α → Nat → Bool → Prop}

/-- Clients that look the same are past as many events. -/
theorem past_eq_of_view (h : k.view = k'.view) : k.past = k'.past := by
  obtain ⟨hreplies, hdropped⟩ := Prod.ext_iff.mp h
  rw [Client.past, Client.past, Client.got, Client.got]
  exact congrArg₂ (fun replies dropped => (List.filterMap Reply.event? replies).length + dropped)
    hreplies hdropped

/-- One turn of a call looks the same in both channels. -/
theorem view_ask (hkeeps : ch.Keeps C Holds) (hkeeps' : ch'.Keeps C Holds')
    (hc : Holds c es n closed) (hc' : Holds' c' es' n' closed) (hk : Stands closed es due k)
    (hk' : Stands closed es' due k') (d : Demand) (h : k.view = k'.view) :
    (ch.ask c d k).view = (ch'.ask c' d k').view := by
  obtain ⟨missed, hdropped, hshows, -⟩ := hk.ask hkeeps hc d
  obtain ⟨missed', hdropped', hshows', -⟩ := hk'.ask hkeeps' hc' d
  rw [← past_eq_of_view h] at hshows'
  obtain ⟨rfl, hlook⟩ := hshows.unique hshows'
  obtain ⟨hreplies, hcount⟩ := Prod.ext_iff.mp h
  refine Prod.ext ?_ ?_
  · exact congrArg₂ (· ++ [d.reply ·]) hreplies hlook
  · exact (hdropped.trans (congrArg (· + missed) hcount)).trans hdropped'.symm

theorem Keeps.dropped_subscribe (hkeeps : ch.Keeps C Holds) (hc : Holds c es n closed) :
    (ch.subscribe c).2.dropped = 0 := by
  cases closed with
  | true => rw [(hkeeps.subscribe_closed hc).2]
  | false => rw [(hkeeps.subscribe_open hc).2]

/-- **Channels that keep as many events cannot be told apart** by their clients. -/
theorem Keeps.view_run (hkeeps : ch.Keeps C Holds) (hkeeps' : ch'.Keeps C Holds')
    (hstart : Holds c [] 0 false) (hstart' : Holds' c' [] 0 false) (moves : List (Move α)) :
    (ch.run c moves).clients.map Client.view = (ch'.run c' moves).clients.map Client.view := by
  induction moves using List.reverseRecOn with
  | nil => rfl
  | append_singleton moves m ih =>
    obtain ⟨es, n, h⟩ := hkeeps.kept_run hstart moves
    obtain ⟨es', n', h'⟩ := hkeeps'.kept_run hstart' moves
    rw [run_concat, run_concat]
    cases m with
    | subscribe =>
      rw [step, step, List.map_append, List.map_append, ih]
      refine congrArg (_ ++ [·]) (Prod.ext rfl ?_)
      exact (hkeeps.dropped_subscribe h.holds).trans (hkeeps'.dropped_subscribe h'.holds).symm
    | publish | close => exact ih
    | ask j d =>
      refine List.ext_getElem? fun i => ?_
      have hsame := congrArg (·[i]?) ih
      simp only [List.getElem?_map] at hsame
      rw [step, step, List.getElem?_map, List.getElem?_map, List.getElem?_modify,
        List.getElem?_modify]
      cases hk : (ch.run c moves).clients[i]? with
      | none =>
        cases hk' : (ch'.run c' moves).clients[i]? with
        | none => rfl
        | some k' => simp [hk, hk'] at hsame
      | some k =>
        cases hk' : (ch'.run c' moves).clients[i]? with
        | none => simp [hk, hk'] at hsame
        | some k' =>
          have hview : k.view = k'.view := by simpa [hk, hk'] using hsame
          by_cases hj : j = i
          · simp only [hj, if_true, Option.map_eq_map, Option.map_some]
            exact congrArg some (view_ask hkeeps hkeeps' h.holds h'.holds (h.stands i k hk)
              (h'.stands i k' hk') d hview)
          · simp only [hj, if_false, Option.map_eq_map, Option.map_some]
            exact congrArg some hview

end Same

/-! ### Delivery -/

/-- What a client with a place in the order of subscriptions gets. -/
structure Delivers (ch : Channel χ α) (c : χ) (C : Nat) (moves : List (Move α)) (i : Nat)
    (k : Client α) : Prop where
  client : (ch.run c moves).clients[i]? = some k
  /-- It has got events due to it, in their order and each once; the others up to its place are
  lost. -/
  inOrder : k.got.Sublist ((Move.due i moves).take k.past)
  past_le : k.past ≤ (Move.due i moves).length
  /-- Its next look shows it the event at its place, or that events are gone, and what is gone is
  counted. -/
  look : ∃ missed,
    (ch.look (ch.run c moves).channel k.receiver).1.dropped = k.receiver.dropped + missed ∧
      Shows C (Move.isClosed moves) (Move.due i moves) k.past missed
        (ch.look (ch.run c moves).channel k.receiver).2
  /-- Its next call, if nobody interrupts it, gives the event at its place once the gone ones are
  counted. -/
  call (d : Demand) : ∃ r,
    ch.Returns (ch.run c moves).channel d k.receiver r
        (d.answer (Move.isClosed moves) (Move.due i moves)[k.got.length + r.dropped]?) ∧
      r.dropped = k.receiver.dropped + ((Move.due i moves).length - C - k.past)
  /-- Nothing that others ask for makes a difference to it. -/
  alone : (ch.run c (moves.filter (Move.isFor i))).clients[i]? = some k
  /-- After the close, a call that gives nothing shows that all is accounted for, and then no call
  gives anything. -/
  drained (hclosed : Move.isClosed moves = true) (d : Demand)
    (hnone : d.reply (ch.look (ch.run c moves).channel k.receiver).2 = .none) :
    k.past = (Move.due i moves).length ∧ ∀ more,
      Move.due i (moves ++ more) = Move.due i moves ∧
      ∃ r, r.dropped = k.receiver.dropped ∧ (ch.run c (moves ++ more)).clients[i]? =
        some ⟨r, k.replies ++ List.replicate (more.countP (Move.asks i)) .none⟩

/-- **Delivery.**  Everybody who has subscribed to a channel that keeps the newest events gets what
is due, whatever has happened. -/
theorem Keeps.delivers (hkeeps : ch.Keeps C Holds) (hstart : Holds c [] 0 false)
    (moves : List (Move α)) {i : Nat} (hi : i < Move.subscriptions moves) :
    ∃ k, ch.Delivers c C moves i k := by
  have hlt : i < (ch.run c moves).clients.length := (ch.length_clients c moves).symm ▸ hi
  have hclient := List.getElem?_eq_getElem hlt
  obtain ⟨es, n, h⟩ := hkeeps.kept_run hstart moves
  have hstands := h.stands i _ hclient
  refine ⟨_, hclient, hstands.inOrder, hstands.past_le, ?_, hstands.call hkeeps h.holds, ?_, ?_⟩
  · obtain ⟨missed, hdropped, hshows, -⟩ := hstands.ask hkeeps h.holds .recv
    exact ⟨missed, hdropped, hshows⟩
  · exact (ch.run_filter_isFor c moves i).2.1.trans hclient
  · intro hclosed d hnone
    obtain ⟨missed, -, hshows, -⟩ := hstands.ask hkeeps h.holds d
    have hall := hshows.past_eq_of_none hnone
    exact ⟨hall, fun more => ⟨Move.due_append_of_isClosed i hclosed more,
      hkeeps.run_drained hstart hclosed hclient hall more⟩⟩

end VirtualTerminal.Channel
