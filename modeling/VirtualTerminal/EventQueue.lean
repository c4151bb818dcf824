/-!
# EventQueue — delivery that never waits

A queue hands every event to all its receivers and keeps only the newest ones.  A receiver that
falls behind by more than the queue keeps loses the oldest events and counts them.  After the queue
is closed nothing more is published, and a receiver finishes once it has taken what is left.
-/

namespace VirtualTerminal

/-- The least power of two that is at least `n`, for `n` up to `2 ^ 64`. -/
def powerOfTwoFrom (n : Nat) : Nat :=
  ((List.range 65).map (Nat.pow 2)).find? (fun p => n ≤ p) |>.getD UInt64.size

/-- A queue of events. -/
structure EventQueue (α : Type) where
  /-- The most events kept. -/
  slots : Nat
  /-- The newest events, oldest first. -/
  kept : Array α
  /-- The number of events ever published. -/
  published : Nat
  /-- The receivers that still take part. -/
  receivers : Nat
  closed : Bool

/-- A receiver, by the number of the event it takes next. -/
structure Receiver where
  next : Nat
  /-- The events lost by falling behind. -/
  dropped : Nat := 0
  /-- Nothing more will come. -/
  finished : Bool := false
deriving DecidableEq, Repr, Inhabited

namespace EventQueue

variable {α : Type}

/-- A queue that keeps at least `capacity` events: as many as the next power of two. -/
def ofCapacity (capacity : Nat) : EventQueue α :=
  { slots := powerOfTwoFrom (max capacity 1), kept := #[], published := 0, receivers := 0,
    closed := false }

/-- The number of the oldest event kept. -/
def oldest (q : EventQueue α) : Nat := q.published - q.kept.size

/-- Adds a receiver of the events published from now on; of a closed queue nothing more comes. -/
def subscribe (q : EventQueue α) : EventQueue α × Receiver :=
  if q.closed then (q, { next := q.published, finished := true })
  else ({ q with receivers := q.receivers + 1 }, { next := q.published })

/-- Removes a receiver. -/
def unsubscribe (q : EventQueue α) (r : Receiver) : EventQueue α :=
  if r.finished then q else { q with receivers := q.receivers - 1 }

/-- Publishes an event, unless the queue is closed. -/
def publish (q : EventQueue α) (e : α) : EventQueue α :=
  if q.closed then q
  else
    let kept := q.kept.push e
    { q with
      kept := if q.slots < kept.size then kept.extract 1 kept.size else kept
      published := q.published + 1 }

/-- The number of receivers that a publication reaches. -/
def audience (q : EventQueue α) : Nat := if q.closed then 0 else q.receivers

/-- Closes the queue. -/
def close (q : EventQueue α) : EventQueue α := { q with closed := true }

/-- The next event for a receiver, if one is there.  A receiver that fell behind goes on with the
oldest event kept. -/
def take (q : EventQueue α) (r : Receiver) : Receiver × Option α :=
  if r.finished then (r, none)
  else
    let next := max r.next q.oldest
    let r := { r with next := next, dropped := r.dropped + (next - r.next) }
    match q.kept[next - q.oldest]? with
    | some e => ({ r with next := next + 1 }, some e)
    | none => ({ r with finished := q.closed }, none)

/-- All events that are there for a receiver, with the receiver after each has been taken. -/
def takeAll (q : EventQueue α) (r : Receiver) : Receiver × List α :=
  go (q.published + 1) r
where
  /-- Takes at most so many events. -/
  go : Nat → Receiver → Receiver × List α
    | 0, r => (r, [])
    | fuel + 1, r =>
      match q.take r with
      | (r, some e) =>
        let (r, rest) := go fuel r
        (r, e :: rest)
      | (r, none) => (r, [])

end EventQueue

end VirtualTerminal
