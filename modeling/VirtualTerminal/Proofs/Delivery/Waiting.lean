import VirtualTerminal.Proofs.Delivery.Run

/-!
# Delivery — Waiting

A client that only ever waits for the next event loses events like any other, but never the newest
one.

* `Turned`: what one turn of its call does to it.
* `Reads`: once it is past all that is due to it, the last event it got is the last one due, and it
  is told that nothing is left only then.  `Keeps.reads_run`: so it is after every run.
* `Keeps.told_run`: after the close every turn brings it on, until it is told.
-/

namespace VirtualTerminal

namespace Channel

variable {χ α : Type} {ch : Channel χ α} {C n i : Nat} {closed : Bool} {c : χ} {es due : List α}
  {k k' : Client α} {Holds : χ → List α → Nat → Bool → Prop} {moves : List (Move α)}

/-! ### One turn -/

/-- What a turn of a call that waits does to a client with events due to it. -/
inductive Turned (C : Nat) (closed : Bool) (due : List α) (k k' : Client α) : Prop
  | event {e : α} (he : due[k.past]? = some e) (hreplies : k'.replies = k.replies ++ [.event e])
    (hpast : k'.past = k.past + 1)
  /-- Events are gone, but not the newest `C`. -/
  | lagged {missed : Nat} (hpos : 0 < missed) (hnewer : k.past + missed + C = due.length)
    (hreplies : k'.replies = k.replies ++ [.again]) (hpast : k'.past = k.past + missed)
  | empty (hall : k.past = due.length) (hopen : closed = false)
    (hreplies : k'.replies = k.replies ++ [.waiting]) (hpast : k'.past = k.past)
  | closed (hall : k.past = due.length) (hclosed : closed = true)
    (hreplies : k'.replies = k.replies ++ [.none]) (hpast : k'.past = k.past)

theorem got_of_replies {reply : Reply α} (h : k'.replies = k.replies ++ [reply]) :
    k'.got = k.got ++ reply.event?.toList := by
  rw [Client.got, h]
  exact got_concat k.receiver k.replies reply

/-- **A turn of a call that waits.** -/
theorem Stands.turned (hkeeps : ch.Keeps C Holds) (hc : Holds c es n closed)
    (hk : Stands closed es due k) : Turned C closed due k (ch.ask c .recv k) := by
  obtain ⟨missed, hdropped, hshows, -⟩ := hk.ask hkeeps hc .recv
  have hpast : ∀ {l : Look α}, (ch.look c k.receiver).2 = l →
      (ch.ask c .recv k).past = k.past + (Demand.recv.reply l).event?.toList.length + missed := by
    intro l hl
    have hgot : (ch.ask c .recv k).got = k.got ++ (Demand.recv.reply l).event?.toList :=
      hl ▸ got_concat _ _ _
    rw [Client.past, hgot, List.length_append, Client.past]
    have hsame : (ch.ask c .recv k).receiver.dropped = k.receiver.dropped + missed := hdropped
    omega
  have hreplies : ∀ {l : Look α}, (ch.look c k.receiver).2 = l →
      (ch.ask c .recv k).replies = k.replies ++ [Demand.recv.reply l] := fun hl => hl ▸ rfl
  generalize hlook : (ch.look c k.receiver).2 = l at hshows
  cases hshows with
  | event _ he => exact .event he (hreplies hlook) (hpast hlook)
  | lagged hpos hnewer => exact .lagged hpos hnewer (hreplies hlook) (hpast hlook)
  | empty hall hopen => exact .empty hall hopen (hreplies hlook) (hpast hlook)
  | closed hall hclosed => exact .closed hall hclosed (hreplies hlook) (hpast hlook)

/-! ### What a client that waits has read -/

/-- What a client that only waits has read of the events due to it. -/
structure Reads (closed : Bool) (due : List α) (k : Client α) : Prop where
  past_le : k.past ≤ due.length
  /-- At the end of what is due, the last event it got is the last one due. -/
  latest : k.past = due.length → k.got.getLast? = due.getLast?
  /-- It is told that nothing is left only at the end, and from then on. -/
  told : ∃ before m, k.replies = before ++ List.replicate m .none ∧ .none ∉ before ∧
    (0 < m → closed = true ∧ k.past = due.length)

theorem reads_new (closed : Bool) (r : Receiver) (h : r.dropped = 0) :
    Reads closed ([] : List α) ⟨r, []⟩ where
  past_le := Nat.le_of_eq ((Nat.zero_add _).trans h)
  latest _ := rfl
  told := ⟨[], 0, rfl, List.not_mem_nil, fun hm => absurd hm (Nat.lt_irrefl 0)⟩

theorem Reads.publish (h : Reads false due k) (e : α) : Reads false (due ++ [e]) k := by
  have hlength : (due ++ [e]).length = due.length + 1 := List.length_append
  have hpast := h.past_le
  refine ⟨by omega, fun hall => absurd hall (by omega), ?_⟩
  obtain ⟨before, m, hreplies, hbefore, hnone⟩ := h.told
  exact ⟨before, m, hreplies, hbefore, fun hm => absurd (hnone hm).1 Bool.false_ne_true⟩

theorem Reads.close (h : Reads closed due k) : Reads true due k := by
  obtain ⟨before, m, hreplies, hbefore, hnone⟩ := h.told
  exact ⟨h.past_le, h.latest, before, m, hreplies, hbefore, fun hm => ⟨rfl, (hnone hm).2⟩⟩

/-- One more reply that gives or promises something: nothing was told to be left before. -/
theorem Reads.told_concat (h : Reads closed due k) {reply : Reply α}
    (hreplies : k'.replies = k.replies ++ [reply]) (hreply : reply ≠ .none)
    (hmore : k.past = due.length → closed = false) {p : Prop} :
    ∃ before m, k'.replies = before ++ List.replicate m .none ∧ .none ∉ before ∧ (0 < m → p) := by
  obtain ⟨before, m, htold, hbefore, hnone⟩ := h.told
  have hzero : m = 0 := by
    by_contra hm
    obtain ⟨hclosed, hall⟩ := hnone (Nat.pos_of_ne_zero hm)
    exact Bool.false_ne_true ((hmore hall).symm.trans hclosed)
  rw [hzero, List.replicate_zero, List.append_nil] at htold
  refine ⟨k'.replies, 0, (List.append_nil _).symm, ?_, fun hm => absurd hm (Nat.lt_irrefl 0)⟩
  rw [hreplies, htold, List.mem_append, List.mem_singleton, not_or]
  exact ⟨hbefore, hreply.symm⟩

/-- **A turn keeps what was read**, as long as the channel keeps at least one event. -/
theorem Reads.turned (hC : 0 < C) (h : Reads closed due k) (hturn : Turned C closed due k k') :
    Reads closed due k' := by
  have hpast_le := h.past_le
  cases hturn with
  | @event e he hreplies hpast =>
    have hlt := (List.getElem?_eq_some_iff.mp he).1
    refine ⟨by omega, fun hall => ?_, ?_⟩
    · -- the event that it gets is then the last one due
      rw [got_of_replies hreplies, Reply.event?, Option.toList_some, List.getLast?_concat,
        List.getLast?_eq_getElem?, ← hall, hpast, Nat.add_sub_cancel, he]
    · exact h.told_concat hreplies (by simp) fun hall => absurd hall (by omega)
  | lagged hpos hnewer hreplies hpast =>
    -- `C` events are still to come, so the newest is not among those that are gone
    refine ⟨by omega, fun hall => absurd hall (by omega), ?_⟩
    exact h.told_concat hreplies (by simp) fun hall => absurd hall (by omega)
  | empty hall hopen hreplies hpast =>
    have hgot : k'.got = k.got := (got_of_replies hreplies).trans (List.append_nil _)
    refine ⟨by omega, fun _ => hgot ▸ h.latest hall, ?_⟩
    exact h.told_concat hreplies (by simp) fun _ => hopen
  | closed hall hclosed hreplies hpast =>
    have hgot : k'.got = k.got := (got_of_replies hreplies).trans (List.append_nil _)
    refine ⟨by omega, fun _ => hgot ▸ h.latest hall, ?_⟩
    obtain ⟨before, m, htold, hbefore, -⟩ := h.told
    refine ⟨before, m + 1, ?_, hbefore, fun _ => ⟨hclosed, hpast.trans hall⟩⟩
    rw [hreplies, htold, List.append_assoc, List.replicate_succ']

/-! ### Runs -/

/-- All that a receiver asks for is by the call that waits. -/
def Waits (i : Nat) (moves : List (Move α)) : Prop := ∀ d, Move.ask i d ∈ moves → d = .recv

/-- What a move does to a client that is there: it takes a turn, or nothing happens to it. -/
theorem client_step (ch : Channel χ α) {s : Traffic χ α} (hk : s.clients[i]? = some k)
    (m : Move α) :
    ∃ k', (ch.step s m).clients[i]? = some k' ∧
      ((∃ d, m = .ask i d ∧ k' = ch.ask s.channel d k) ∨ (k' = k ∧ Move.asks i m = false)) := by
  cases m with
  | subscribe =>
    have hlt := (List.getElem?_eq_some_iff.mp hk).1
    exact ⟨k, (List.getElem?_append_left hlt).trans hk, .inr ⟨rfl, rfl⟩⟩
  | publish | close => exact ⟨k, hk, .inr ⟨rfl, rfl⟩⟩
  | ask j d =>
    by_cases hj : j = i
    · subst hj
      refine ⟨ch.ask s.channel d k, ?_, .inl ⟨d, rfl, rfl⟩⟩
      rw [step, List.getElem?_modify, hk, Option.map_eq_map, Option.map_some, if_pos rfl]
    · refine ⟨k, ?_, .inr ⟨rfl, beq_eq_false_iff_ne.mpr hj⟩⟩
      rw [step, List.getElem?_modify_ne _ _ hj]
      exact hk

/-- A client after one more move: it has just subscribed, or it was there before. -/
theorem client_concat {m : Move α} (hk' : (ch.run c (moves ++ [m])).clients[i]? = some k') :
    (m = .subscribe ∧ i = Move.subscriptions moves ∧
        k' = ⟨(ch.subscribe (ch.run c moves).channel).2, []⟩) ∨
      ∃ k, (ch.run c moves).clients[i]? = some k ∧
        ((∃ d, m = .ask i d ∧ k' = ch.ask (ch.run c moves).channel d k) ∨
          (k' = k ∧ Move.asks i m = false)) := by
  rw [run_concat] at hk'
  cases hk : (ch.run c moves).clients[i]? with
  | some k =>
    obtain ⟨k'', hk'', hmove⟩ := ch.client_step hk m
    obtain rfl := Option.some.inj (hk'.symm.trans hk'')
    exact .inr ⟨k, rfl, hmove⟩
  | none =>
    have hge := List.getElem?_eq_none_iff.mp hk
    have hlt := (List.getElem?_eq_some_iff.mp hk').1
    cases m with
    | subscribe =>
      rw [step, List.length_append, List.length_singleton] at hlt
      obtain rfl : i = (ch.run c moves).clients.length := by omega
      rw [step, List.getElem?_concat_length] at hk'
      exact .inl ⟨rfl, ch.length_clients c moves, (Option.some.inj hk').symm⟩
    | publish | close => exact absurd hlt (Nat.not_lt.mpr hge)
    | ask j d =>
      rw [step, List.length_modify] at hlt
      exact absurd hlt (Nat.not_lt.mpr hge)

/-- A move that is no turn of the client's. -/
theorem Reads.untouched {m : Move α} (h : Reads (Move.isClosed moves) (Move.due i moves) k)
    (hi : i < Move.subscriptions moves) :
    Reads (Move.isClosed (moves ++ [m])) (Move.due i (moves ++ [m])) k := by
  rw [Move.isClosed_append]
  cases m with
  | subscribe | ask =>
    rw [Move.due_concat_of_silent moves i rfl]
    exact (Bool.or_false _).symm ▸ h
  | close =>
    rw [Move.due_concat_of_silent moves i rfl]
    exact (Bool.or_true _).symm ▸ h.close
  | publish e =>
    have hsame : (Move.isClosed moves || Move.isClosed [Move.publish e]) = Move.isClosed moves :=
      Bool.or_false _
    rw [hsame, Move.due_concat]
    cases hclosed : Move.isClosed moves with
    | true =>
      rw [if_pos (.inl rfl), List.append_nil]
      exact hclosed ▸ h
    | false =>
      rw [hclosed] at h
      rw [if_neg (by simp; omega)]
      exact h.publish e

/-- **After every run** a client that only waits has read what `Reads` says. -/
theorem Keeps.reads_run (hkeeps : ch.Keeps C Holds) (hC : 0 < C) (hstart : Holds c [] 0 false)
    (hwaits : Waits i moves) (hk : (ch.run c moves).clients[i]? = some k) :
    Reads (Move.isClosed moves) (Move.due i moves) k := by
  induction moves using List.reverseRecOn generalizing k with
  | nil => cases hk
  | append_singleton moves m ih =>
    obtain ⟨es, n, h⟩ := hkeeps.kept_run hstart moves
    have hbefore : Waits i moves := fun d hd => hwaits d (List.mem_append_left _ hd)
    rcases client_concat hk with ⟨rfl, hi, rfl⟩ | ⟨k₀, hk₀, ⟨d, rfl, rfl⟩ | ⟨rfl, -⟩⟩
    · rw [Move.due_concat_of_silent moves i rfl, Move.due_of_le moves (Nat.le_of_eq hi.symm)]
      exact reads_new _ _ (hkeeps.dropped_subscribe h.holds)
    · obtain rfl := hwaits d (List.mem_append_right _ List.mem_cons_self)
      have hread := (ih hbefore hk₀).turned hC ((h.stands i k₀ hk₀).turned hkeeps h.holds)
      rw [Move.due_concat_of_silent moves i rfl, Move.isClosed_append]
      exact (Bool.or_false _).symm ▸ hread
    · have hlt := (List.getElem?_eq_some_iff.mp hk₀).1
      rw [ch.length_clients c moves] at hlt
      exact (ih hbefore hk₀).untouched hlt

/-- A turn after the close tells the client that nothing is left, or brings it on. -/
theorem Turned.told_or_past_lt (hturn : Turned C true due k k') :
    .none ∈ k'.replies ∨ k.past + 1 ≤ k'.past := by
  cases hturn with
  | event he hreplies hpast => exact .inr (Nat.le_of_eq hpast.symm)
  | lagged hpos hnewer hreplies hpast => exact .inr (by omega)
  | empty hall hopen => exact absurd hopen.symm Bool.false_ne_true
  | closed hall hclosed hreplies =>
    rw [hreplies]
    exact .inl (List.mem_append_right _ List.mem_cons_self)

/-- **After the close** a client that only waits is told that nothing is left, or every turn of it
has brought it on. -/
theorem Keeps.told_run (hkeeps : ch.Keeps C Holds) (hstart : Holds c [] 0 false)
    (hclosed : Move.isClosed moves = true) (hk : (ch.run c moves).clients[i]? = some k)
    {more : List (Move α)} (hwaits : Waits i more) :
    ∃ k', (ch.run c (moves ++ more)).clients[i]? = some k' ∧
      (.none ∈ k'.replies ∨ k.past + more.countP (Move.asks i) ≤ k'.past) := by
  induction more using List.reverseRecOn with
  | nil => exact ⟨k, (List.append_nil moves).symm ▸ hk, .inr (Nat.le_refl _)⟩
  | append_singleton more m ih =>
    obtain ⟨k₀, hk₀, hbefore⟩ := ih fun d hd => hwaits d (List.mem_append_left _ hd)
    obtain ⟨k', hk', hmove⟩ := ch.client_step hk₀ m
    rw [← List.append_assoc, run_concat, List.countP_append, List.countP_singleton]
    refine ⟨k', hk', ?_⟩
    rcases hmove with ⟨d, rfl, rfl⟩ | ⟨rfl, hasks⟩
    · obtain rfl := hwaits d (List.mem_append_right _ List.mem_cons_self)
      -- what it was told before it stays told
      rcases hbefore with htold | hpast
      · exact .inl (List.mem_append_left _ htold)
      · obtain ⟨es, n, h⟩ := hkeeps.kept_run hstart (moves ++ more)
        rw [Move.isClosed_append, hclosed, Bool.true_or] at h
        have hturn := ((h.stands i k₀ hk₀).turned hkeeps h.holds).told_or_past_lt
        have hasks : Move.asks i (.ask i .recv : Move α) = true := beq_self_eq_true i
        rw [if_pos hasks]
        exact hturn.imp_right fun hlt => by omega
    · rw [hasks, if_neg Bool.false_ne_true, Nat.add_zero]
      exact hbefore

end Channel

end VirtualTerminal
