import Mathlib.Data.List.Induction
import VirtualTerminal.EventQueue

/-!
# Delivery — Basic

Events are published to a channel that keeps only the newest ones, and receivers take them, each at
its own pace.  What happens is a sequence of moves, any sequence: somebody subscribes, an event is
published, a call of a receiver takes one more turn, the channel is closed (`Move`, `Channel.run`).

* `Channel.look`: a turn of a call.  A call that learns of lost events counts them and looks again,
  so a call can take several turns, with moves of others between them.
* `Channel.Returns`: what a call comes to if no others move.  For the queue that is what it takes
  (`EventQueue.returns_take`).
* `published`, `due`: what is published before the close, and how much of it comes after the
  subscription of a receiver, as functions of the moves alone.
* `run_filter_isFor`: what other receivers ask for changes nothing for a receiver.
-/

namespace VirtualTerminal

/-! ### Turns of a call -/

/-- What a look for the next event shows. -/
inductive Look (α : Type) where
  | event (e : α)
  /-- So many events were overwritten before they were taken. -/
  | lagged (missed : Nat)
  | empty
  | closed
deriving DecidableEq, Repr

/-- How a call goes on after a look. -/
inductive Reply (α : Type) where
  /-- The call gives an event. -/
  | event (e : α)
  /-- The call gives none. -/
  | none
  /-- The call waits for a change, and then looks again. -/
  | waiting
  /-- The call looks again at once. -/
  | again
deriving DecidableEq, Repr

/-- The event that a reply gives. -/
def Reply.event? {α : Type} : Reply α → Option α
  | .event e => some e
  | _ => Option.none

/-- The two kinds of call for the next event. -/
inductive Demand where
  /-- The call that waits for an event. -/
  | recv
  /-- The call that does not wait. -/
  | tryRecv
deriving DecidableEq, Repr

/-- How a call of this kind goes on. -/
def Demand.reply {α : Type} : Demand → Look α → Reply α
  | _, .event e => .event e
  | _, .lagged _ => .again
  | .recv, .empty => .waiting
  | .tryRecv, .empty => .none
  | _, .closed => .none

/-- How a call goes on that finds an event or none, in a channel that may be closed. -/
def Demand.answer {α : Type} (d : Demand) (closed : Bool) : Option α → Reply α
  | some e => .event e
  | none => d.reply (if closed then .closed else .empty)

/-- A channel for events, by what can be done with it. -/
structure Channel (χ α : Type) where
  /-- Adds a receiver; of a closed channel, one that is finished. -/
  subscribe : χ → χ × Receiver
  publish : χ → α → χ
  close : χ → χ
  /-- Looks for the event with a number, and gives the number to look for next. -/
  receive : χ → Nat → Nat × Look α

namespace Channel

variable {χ α : Type} (ch : Channel χ α)

/-- One turn of a call.  Events that were lost are counted, and at the end of the channel the
receiver lets go of it. -/
def look (c : χ) (r : Receiver) : Receiver × Look α :=
  if r.finished then (r, .closed)
  else
    match ch.receive c r.next with
    | (next, .event e) => ({ r with next := next }, .event e)
    | (next, .lagged missed) =>
      ({ r with next := next, dropped := r.dropped + missed }, .lagged missed)
    | (next, .empty) => ({ r with next := next }, .empty)
    | (next, .closed) => ({ r with next := next, finished := true }, .closed)

/-- What a call comes to that nobody interrupts. -/
inductive Returns (c : χ) (d : Demand) : Receiver → Receiver → Reply α → Prop
  | now {r r' : Receiver} {l : Look α} (hlook : ch.look c r = (r', l))
      (hl : ∀ missed, l ≠ .lagged missed) : Returns c d r r' (d.reply l)
  | again {r r' r'' : Receiver} {missed : Nat} {reply : Reply α}
      (hlook : ch.look c r = (r', .lagged missed)) (hrest : Returns c d r' r'' reply) :
      Returns c d r r'' reply

end Channel

/-! ### The queue as a channel -/

namespace EventQueue

variable {α : Type}

/-- Looks for the event with a number. -/
def receive (q : EventQueue α) (next : Nat) : Nat × Look α :=
  if next < q.oldest then (q.oldest, .lagged (q.oldest - next))
  else
    match q.kept[next - q.oldest]? with
    | some e => (next + 1, .event e)
    | none => (next, if q.closed then .closed else .empty)

/-- The queue as a channel. -/
def channel : Channel (EventQueue α) α where
  subscribe := subscribe
  publish := publish
  close := close
  receive := receive

/-- A receiver that has let go of the channel finds it closed. -/
theorem look_of_finished (q : EventQueue α) {r : Receiver} (h : r.finished = true) :
    channel.look q r = (r, .closed) := if_pos h

/-- A receiver that is behind counts what it has lost and catches up. -/
theorem look_of_lt (q : EventQueue α) {r : Receiver} (hopen : r.finished = false)
    (h : r.next < q.oldest) :
    channel.look q r =
      ({ r with next := q.oldest, dropped := r.dropped + (q.oldest - r.next) },
        .lagged (q.oldest - r.next)) := by
  rw [Channel.look, hopen, if_neg Bool.false_ne_true]
  simp only [channel, receive, if_pos h]

/-- A receiver that is not behind takes in one look. -/
theorem look_of_le (q : EventQueue α) {r : Receiver} (hopen : r.finished = false)
    (h : q.oldest ≤ r.next) (d : Demand) :
    ∃ l, channel.look q r = ((q.take r).1, l) ∧ (∀ missed, l ≠ .lagged missed) ∧
      d.reply l = d.answer (q.take r).1.finished (q.take r).2 := by
  rw [Channel.look, take, hopen, if_neg Bool.false_ne_true, if_neg Bool.false_ne_true]
  simp only [channel, receive, if_neg (Nat.not_lt.mpr h), Nat.max_eq_left h, Nat.sub_self,
    Nat.add_zero]
  cases q.kept[r.next - q.oldest]? with
  | some e => exact ⟨_, rfl, by simp, rfl⟩
  | none =>
    cases hclosed : q.closed with
    | true => exact ⟨_, rfl, by simp, rfl⟩
    | false =>
      exact ⟨.empty, by simp, by simp, rfl⟩

/-- A receiver that is behind takes as it does once it has caught up. -/
theorem take_of_lt (q : EventQueue α) {r : Receiver} (hopen : r.finished = false)
    (h : r.next < q.oldest) :
    q.take r =
      q.take { r with next := q.oldest, dropped := r.dropped + (q.oldest - r.next) } := by
  simp only [take, hopen, Bool.false_eq_true, if_false, Nat.max_eq_right (Nat.le_of_lt h),
    Nat.max_self, Nat.sub_self, Nat.add_zero]

/-- **A call that nobody interrupts takes from the queue.** -/
theorem returns_take (q : EventQueue α) (r : Receiver) (d : Demand) :
    channel.Returns q d r (q.take r).1 (d.answer (q.take r).1.finished (q.take r).2) := by
  cases hopen : r.finished with
  | true =>
    have htake : q.take r = (r, none) := if_pos hopen
    rw [htake, Demand.answer, if_pos hopen]
    exact .now (look_of_finished q hopen) (by simp)
  | false =>
    rcases Nat.lt_or_ge r.next q.oldest with hlt | hge
    · refine .again (look_of_lt q hopen hlt) ?_
      rw [take_of_lt q hopen hlt]
      obtain ⟨l, hlook, hl, hreply⟩ := look_of_le q
        (r := { r with next := q.oldest, dropped := r.dropped + (q.oldest - r.next) })
        hopen (Nat.le_refl _) d
      exact hreply ▸ .now hlook hl
    · obtain ⟨l, hlook, hl, hreply⟩ := look_of_le q hopen hge d
      exact hreply ▸ .now hlook hl

end EventQueue

/-! ### Moves -/

/-- Something that happens to a channel. -/
inductive Move (α : Type) where
  | subscribe
  | publish (e : α)
  /-- A call of a receiver takes a turn; receivers are counted in the order of subscription. -/
  | ask (i : Nat) (d : Demand)
  | close
deriving DecidableEq, Repr

namespace Move

variable {α : Type}

/-- The event that is published. -/
def event? : Move α → Option α
  | .publish e => some e
  | _ => none

/-- The move is no turn of a call of another receiver. -/
def isFor (i : Nat) : Move α → Bool
  | .ask j _ => j == i
  | _ => true

/-- The move is a turn of a call of a receiver. -/
def asks (i : Nat) : Move α → Bool
  | .ask j _ => j == i
  | _ => false

/-- The channel has been closed. -/
def isClosed : List (Move α) → Bool
  | [] => false
  | .close :: _ => true
  | _ :: ms => isClosed ms

/-- How many have subscribed. -/
def subscriptions : List (Move α) → Nat
  | [] => 0
  | .subscribe :: ms => subscriptions ms + 1
  | _ :: ms => subscriptions ms

/-- The events published until the close. -/
def published : List (Move α) → List α
  | [] => []
  | .publish e :: ms => e :: published ms
  | .close :: _ => []
  | _ :: ms => published ms

/-- The events published between the subscription of a receiver and the close. -/
def due : Nat → List (Move α) → List α
  | _, [] => []
  | 0, .subscribe :: ms => published ms
  | i + 1, .subscribe :: ms => due i ms
  | _, .close :: _ => []
  | i, _ :: ms => due i ms

variable (ms : List (Move α)) (m : Move α)

theorem isClosed_append (more : List (Move α)) :
    isClosed (ms ++ more) = (isClosed ms || isClosed more) := by
  induction ms with
  | nil => rfl
  | cons m ms ih => cases m with
    | close => rfl
    | subscribe | publish | ask => exact ih

theorem subscriptions_concat :
    subscriptions (ms ++ [m]) = subscriptions ms + if m matches .subscribe then 1 else 0 := by
  induction ms with
  | nil => cases m <;> rfl
  | cons m' ms ih => cases m' with
    | subscribe =>
      rw [List.cons_append, subscriptions, ih, subscriptions]
      omega
    | publish | ask | close => exact ih

/-- What is published behind the close does not count. -/
theorem published_concat :
    published (ms ++ [m]) = published ms ++ if isClosed ms then [] else m.event?.toList := by
  induction ms with
  | nil => cases m <;> rfl
  | cons m' ms ih => cases m' with
    | publish e => exact congrArg (e :: ·) ih
    | close => rfl
    | subscribe | ask => exact ih

/-- A receiver is due what is published after it subscribed and before the close. -/
theorem due_concat (i : Nat) : due i (ms ++ [m]) =
    due i ms ++ if isClosed ms ∨ subscriptions ms ≤ i then [] else m.event?.toList := by
  induction ms generalizing i with
  | nil => cases m <;> cases i <;> rfl
  | cons m' ms ih => cases m' with
    | publish | ask => cases i <;> exact ih _
    | close => cases i <;> rfl
    | subscribe => cases i with
      | zero =>
        show published (ms ++ [m]) =
          published ms ++ if isClosed ms ∨ subscriptions ms + 1 ≤ 0 then [] else m.event?.toList
        rw [published_concat]
        simp
      | succ i =>
        show due i (ms ++ [m]) = due i ms ++
          if isClosed ms ∨ subscriptions ms + 1 ≤ i + 1 then [] else m.event?.toList
        rw [ih]
        simp only [Nat.add_le_add_iff_right]

theorem due_concat_of_silent (i : Nat) {m : Move α} (h : m.event? = none) :
    due i (ms ++ [m]) = due i ms := by
  rw [due_concat, h, Option.toList_none, ite_self, List.append_nil]

/-- Nothing is due to a receiver that has not subscribed yet. -/
theorem due_of_le {i : Nat} (h : subscriptions ms ≤ i) : due i ms = [] := by
  induction ms generalizing i with
  | nil => cases i <;> rfl
  | cons m ms ih => cases m with
    | publish | ask => cases i <;> exact ih h
    | close => cases i <;> rfl
    | subscribe => cases i with
      | zero => exact absurd h (Nat.not_succ_le_zero _)
      | succ i => exact ih (Nat.le_of_succ_le_succ h)

/-- Nothing is due that comes after the close. -/
theorem due_append_of_isClosed (i : Nat) {ms : List (Move α)} (h : isClosed ms = true)
    (more : List (Move α)) : due i (ms ++ more) = due i ms := by
  induction more using List.reverseRecOn with
  | nil => rw [List.append_nil]
  | append_singleton more m ih =>
    have hclosed : isClosed (ms ++ more) = true := by rw [isClosed_append, h, Bool.true_or]
    rw [← List.append_assoc, due_concat, ih, if_pos (.inl hclosed), List.append_nil]

end Move

/-! ### Runs -/

/-- A receiver, and how its calls have gone on after each of their turns. -/
structure Client (α : Type) where
  receiver : Receiver
  replies : List (Reply α)

/-- The events that a client has been given. -/
def Client.got {α : Type} (k : Client α) : List α := k.replies.filterMap Reply.event?

/-- The events that a client will not be given any more, be it that it has them or that it lost
them. -/
def Client.past {α : Type} (k : Client α) : Nat := k.got.length + k.receiver.dropped

/-- What a client can tell others of the channel: how its calls went and what it counted. -/
def Client.view {α : Type} (k : Client α) : List (Reply α) × Nat := (k.replies, k.receiver.dropped)

/-- A channel with its clients, in the order of their subscriptions. -/
structure Traffic (χ α : Type) where
  channel : χ
  clients : List (Client α)

namespace Channel

variable {χ α : Type} (ch : Channel χ α)

/-- The client after a turn of a call. -/
def ask (c : χ) (d : Demand) (k : Client α) : Client α :=
  ⟨(ch.look c k.receiver).1, k.replies ++ [d.reply (ch.look c k.receiver).2]⟩

/-- What a move leaves. -/
def step (s : Traffic χ α) : Move α → Traffic χ α
  | .subscribe => ⟨(ch.subscribe s.channel).1, s.clients ++ [⟨(ch.subscribe s.channel).2, []⟩]⟩
  | .publish e => { s with channel := ch.publish s.channel e }
  | .ask i d => { s with clients := s.clients.modify i (ch.ask s.channel d) }
  | .close => { s with channel := ch.close s.channel }

/-- What a sequence of moves leaves. -/
def run (c : χ) (moves : List (Move α)) : Traffic χ α := moves.foldl ch.step ⟨c, []⟩

variable (c : χ) (moves : List (Move α))

@[simp] theorem run_nil : ch.run c [] = ⟨c, []⟩ := rfl

theorem run_concat (m : Move α) : ch.run c (moves ++ [m]) = ch.step (ch.run c moves) m := by
  rw [run, List.foldl_append]
  rfl

/-- There are as many clients as subscriptions. -/
theorem length_clients : (ch.run c moves).clients.length = Move.subscriptions moves := by
  induction moves using List.reverseRecOn with
  | nil => rfl
  | append_singleton moves m ih =>
    rw [run_concat, Move.subscriptions_concat, ← ih]
    cases m with
    | subscribe => exact List.length_append
    | publish | close => rfl
    | ask i d => exact List.length_modify _ _ _

/-- **Other receivers do not matter.**  Without the calls of all others, a client comes to stand
where it stands with them. -/
theorem run_filter_isFor (i : Nat) :
    (ch.run c (moves.filter (Move.isFor i))).channel = (ch.run c moves).channel ∧
      (ch.run c (moves.filter (Move.isFor i))).clients[i]? = (ch.run c moves).clients[i]? ∧
      (ch.run c (moves.filter (Move.isFor i))).clients.length =
        (ch.run c moves).clients.length := by
  induction moves using List.reverseRecOn with
  | nil => exact ⟨rfl, rfl, rfl⟩
  | append_singleton moves m ih =>
    obtain ⟨hchannel, hclient, hlength⟩ := ih
    rw [List.filter_append, List.filter_cons, List.filter_nil]
    cases m with
    | subscribe =>
      simp only [Move.isFor, if_true, run_concat, step, hchannel, List.length_append, hlength,
        List.getElem?_append, hclient, and_self]
    | publish e | close =>
      simp only [Move.isFor, if_true, run_concat, step, hchannel, hclient, hlength, and_self]
    | ask j d =>
      by_cases hj : j = i
      · subst hj
        simp only [Move.isFor, beq_self_eq_true, if_true, run_concat, step, hchannel, hclient,
          List.getElem?_modify, List.length_modify, hlength, and_self]
      · have hother : Move.isFor i (.ask j d : Move α) = false := beq_eq_false_iff_ne.mpr hj
        simp only [hother, Bool.false_eq_true, if_false, List.append_nil, run_concat, step,
          List.getElem?_modify_ne _ _ hj, List.length_modify]
        exact ⟨hchannel, hclient, hlength⟩

end Channel

end VirtualTerminal
