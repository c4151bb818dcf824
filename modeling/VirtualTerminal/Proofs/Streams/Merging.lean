import VirtualTerminal.Backend.Merge
import VirtualTerminal.Proofs.Streams.Reads

/-!
# Merging — two pipes read as one stream

The pumps of two pipes tell what they read, each in its own order, while the reader takes messages
as they arrive (`Merging.step`).  What a pipe brings is told without the pump: its blocks, and its
end or an error (`PipeScript.ofReads`); the messages of the pump are those (`pump_eq_messages`).

The messages that have been told are a history of both pipes, of which the reader has taken a front
(`Merging.History`).  The pipes counted as open are those whose last message has not been taken; so
the reader is at its end exactly if it has taken all messages of both (`History.openPipes_iff`).

**The pipes are interleaved** (`Merging.run_interleaves`).
-/

namespace VirtualTerminal

/-- The pipes whose output is merged. -/
inductive Pipe where
  | output
  | errors
deriving DecidableEq, Repr

/-! ### What a pipe brings -/

namespace ReadResult

/-- The error that a pump tells. -/
def reason? : ReadResult → Option String
  | .hangup => some "Input/output error (os error 5)"
  | .failed reason => some reason
  | .data _ | .interrupted => none

end ReadResult

namespace PipeMessage

/-- Whether a message is the last of its pump. -/
def isLast : PipeMessage → Bool
  | .data _ => false
  | .closed | .failed _ => true

/-- What a message comes to, once it is taken. -/
def result? : PipeMessage → Option ChunkResult
  | .data bytes => some (.ok (some bytes))
  | .closed => none
  | .failed reason => some (.error reason)

end PipeMessage

/-- What a pipe brings: blocks of bytes, and then its end or an error. -/
structure PipeScript where
  blocks : List (List UInt8)
  failure : Option String
deriving DecidableEq, Repr

namespace PipeScript

/-- The blocks and the error of a pipe whose reads give these results. -/
def ofReads (size : Nat) (reads : List ReadResult) : PipeScript where
  blocks :=
    (reads.takeWhile (!·.isLast)).flatMap fun r => VirtualTerminal.blocks (max size 1) r.bytes
  failure := (reads.find? (·.isLast)).bind ReadResult.reason?

/-- The last message about a pipe. -/
def lastMessage (s : PipeScript) : PipeMessage := s.failure.elim .closed .failed

/-- The messages about a pipe. -/
def messages (s : PipeScript) : List PipeMessage := s.blocks.map .data ++ [s.lastMessage]

/-- What is to be read of a pipe: its blocks, and then its error. -/
def results (s : PipeScript) : List ChunkResult :=
  (s.blocks.map fun block => .ok (some block)) ++ s.failure.toList.map .error

/-- The blocks are the bytes that the pipe delivers. -/
theorem flatten_blocks_ofReads (size : Nat) (reads : List ReadResult) :
    (ofReads size reads).blocks.flatten = ReadResult.delivered reads := by
  have hcut : ∀ rs : List ReadResult,
      (rs.flatMap fun r => VirtualTerminal.blocks (max size 1) r.bytes).flatten =
        rs.flatMap ReadResult.bytes := by
    intro rs
    induction rs with
    | nil => rfl
    | cons r rs ih =>
      rw [List.flatMap_cons, List.flatten_append, ih, List.flatMap_cons,
        flatten_blocks (Nat.le_max_right size 1)]
  exact hcut _

/-- A read that is not the last adds its blocks. -/
theorem ofReads_cons {r : ReadResult} (h : r.isLast = false) (size : Nat)
    (reads : List ReadResult) :
    ofReads size (r :: reads) =
      ⟨VirtualTerminal.blocks (max size 1) r.bytes ++ (ofReads size reads).blocks,
        (ofReads size reads).failure⟩ := by
  rw [ofReads, List.takeWhile_cons, List.find?_cons, h]
  rfl

/-- The last read adds no block; it closes the pipe or fails. -/
theorem ofReads_cons_last {r : ReadResult} (h : r.isLast = true) (size : Nat)
    (reads : List ReadResult) : ofReads size (r :: reads) = ⟨[], r.reason?⟩ := by
  rw [ofReads, List.takeWhile_cons, List.find?_cons, h]
  rfl

/-- **A pump tells what the pipe brings.** -/
theorem pump_eq_messages (size : Nat) (reads : List ReadResult) :
    PipeMessage.pump size reads = (ofReads size reads).messages := by
  induction reads with
  | nil => rfl
  | cons r reads ih =>
    cases r with
    | interrupted => rw [PipeMessage.pump, ih, ofReads_cons rfl]; rfl
    | hangup | failed reason => rw [PipeMessage.pump, ofReads_cons_last rfl]; rfl
    | data bytes =>
      rw [PipeMessage.pump]
      split
      · rw [ofReads_cons_last ‹_›]
        rfl
      · rename_i hne
        have hmore : (ReadResult.data bytes).isLast = false := Bool.eq_false_iff.mpr hne
        rw [ih, ofReads_cons hmore, messages, messages, List.map_append, List.append_assoc]
        rfl

theorem filterMap_messages (s : PipeScript) :
    s.messages.filterMap PipeMessage.result? = s.results := by
  obtain ⟨blocks, failure⟩ := s
  induction blocks with
  | nil => cases failure <;> rfl
  | cons block blocks ih => exact congrArg (.ok (some block) :: ·) ih

theorem isLast_lastMessage (s : PipeScript) : s.lastMessage.isLast = true := by
  obtain ⟨blocks, failure⟩ := s
  cases failure <;> rfl

/-- Of a front of the messages, one is the last if they are all there, and none otherwise. -/
theorem countP_isLast {s : PipeScript} {front : List PipeMessage} (h : front <+: s.messages) :
    front.countP PipeMessage.isLast = if front = s.messages then 1 else 0 := by
  have hblocks : ∀ m ∈ s.blocks.map PipeMessage.data, ¬ m.isLast = true := by
    intro m hm
    obtain ⟨block, -, rfl⟩ := List.mem_map.mp hm
    exact Bool.false_ne_true
  rw [messages] at h ⊢
  rcases List.prefix_concat_iff.mp h with hall | hfront
  · rw [if_pos hall, hall, List.countP_append, List.countP_eq_zero.mpr hblocks,
      List.countP_singleton, if_pos s.isLast_lastMessage]
  · have hless : ¬ front = s.blocks.map .data ++ [s.lastMessage] := by
      rintro rfl
      have hlength := hfront.length_le
      rw [List.length_append, List.length_singleton] at hlength
      omega
    rw [if_neg hless, List.countP_eq_zero.mpr fun m hm => hblocks m (hfront.subset hm)]

end PipeScript

/-! ### The part of one pipe -/

/-- What one pipe has in a history of both. -/
def part {α : Type} (p : Pipe) (history : List (Pipe × α)) : List α :=
  history.filterMap fun x => if x.1 = p then some x.2 else none

/-- A history of what the entries of another come to. -/
def translated {α β : Type} (f : α → Option β) (history : List (Pipe × α)) : List (Pipe × β) :=
  history.filterMap fun x => (f x.2).map (x.1, ·)

section Part
variable {α β : Type} {p q : Pipe}

theorem part_nil : part p ([] : List (Pipe × α)) = [] := rfl

theorem part_append (l l' : List (Pipe × α)) : part p (l ++ l') = part p l ++ part p l' :=
  List.filterMap_append

theorem part_cons_self (a : α) (l : List (Pipe × α)) : part p ((p, a) :: l) = a :: part p l :=
  List.filterMap_cons_some (if_pos rfl)

theorem part_cons_of_ne (h : q ≠ p) (a : α) (l : List (Pipe × α)) :
    part p ((q, a) :: l) = part p l :=
  List.filterMap_cons_none (if_neg h)

/-- A history in which neither pipe has a part is empty. -/
theorem eq_nil_of_part {l : List (Pipe × α)} (h : ∀ p, part p l = []) : l = [] := by
  cases l with
  | nil => rfl
  | cons x l =>
    obtain ⟨q, a⟩ := x
    have hq := h q
    rw [part_cons_self] at hq
    cases hq

/-- An entry is counted in the part of its pipe. -/
theorem countP_part (f : α → Bool) (l : List (Pipe × α)) :
    (l.map Prod.snd).countP f = (part .output l).countP f + (part .errors l).countP f := by
  induction l with
  | nil => rfl
  | cons x l ih =>
    obtain ⟨q, a⟩ := x
    rw [List.map_cons, List.countP_cons, ih]
    cases q with
    | output =>
      rw [part_cons_self, part_cons_of_ne (by decide), List.countP_cons]
      exact Nat.add_right_comm _ _ _
    | errors =>
      rw [part_cons_self, part_cons_of_ne (by decide), List.countP_cons]
      exact Nat.add_assoc _ _ _

theorem map_snd_translated (f : α → Option β) (l : List (Pipe × α)) :
    (translated f l).map Prod.snd = (l.map Prod.snd).filterMap f := by
  rw [translated, List.map_filterMap, List.filterMap_map]
  refine congrArg (l.filterMap ·) (funext fun x => ?_)
  rw [Option.map_map]
  exact Option.map_id'

theorem part_translated (f : α → Option β) (l : List (Pipe × α)) :
    part p (translated f l) = (part p l).filterMap f := by
  rw [part, part, translated, List.filterMap_filterMap, List.filterMap_filterMap]
  refine congrArg (l.filterMap ·) (funext fun x => ?_)
  by_cases h : x.1 = p
  · rw [if_pos h, Option.bind_some]
    cases f x.2 with
    | none => rfl
    | some b => exact if_pos h
  · rw [if_neg h, Option.bind_none]
    cases f x.2 with
    | none => rfl
    | some b => exact if_neg h

end Part

/-! ### One read -/

namespace MergedReader

/-- What a read makes of the messages that it takes, and how it leaves the reader. -/
inductive Takes (front : List PipeMessage) (r : MergedReader) : Option ChunkResult → Prop
  /-- It has taken all that arrived, and waits for a pipe that is open. -/
  | waits (h : front.filterMap PipeMessage.result? = []) (harrived : r.arrived = [])
      (hopen : 0 < r.openPipes) : Takes front r none
  /-- It returns the one result that they hold. -/
  | returns {result : ChunkResult} (h : front.filterMap PipeMessage.result? = [result]) :
      Takes front r (some result)
  /-- No pipe is open. -/
  | ends (h : front.filterMap PipeMessage.result? = []) (hopen : r.openPipes = 0) :
      Takes front r (some (.ok none))

section Takes
variable {front : List PipeMessage} {r : MergedReader} {out : Option ChunkResult}

/-- The end of one pipe holds no result. -/
theorem Takes.closed (h : Takes front r out) : Takes (.closed :: front) r out := by
  cases h with
  | waits h harrived hopen => exact .waits h harrived hopen
  | returns h => exact .returns h
  | ends h hopen => exact .ends h hopen

/-- A read returns what it takes, or it takes no result and returns the end of the stream. -/
theorem Takes.result_or_end (h : Takes front r out) :
    front.filterMap PipeMessage.result? = out.toList ∨
      front.filterMap PipeMessage.result? = [] ∧ out = some (.ok none) ∧ r.openPipes = 0 := by
  cases h with
  | waits h => exact .inl h
  | returns h => exact .inl h
  | ends h hopen => exact .inr ⟨h, rfl, hopen⟩

end Takes

/-- **A read takes a front of the messages that have arrived**, and counts those that are the last
of their pipe. -/
theorem exists_takes (n : Nat) (messages : List PipeMessage) :
    ∃ front, messages = front ++ (readFrom n messages).2.arrived ∧
      (readFrom n messages).2.openPipes + front.countP PipeMessage.isLast = n ∧
      Takes front (readFrom n messages).2 (readFrom n messages).1 := by
  induction messages generalizing n with
  | nil =>
    cases n with
    | zero => exact ⟨[], rfl, rfl, .ends rfl rfl⟩
    | succ n => exact ⟨[], rfl, rfl, .waits rfl rfl (Nat.succ_pos n)⟩
  | cons m messages ih =>
    cases n with
    | zero => exact ⟨[], rfl, rfl, .ends rfl rfl⟩
    | succ n =>
      cases m with
      | data bytes => exact ⟨[.data bytes], rfl, rfl, .returns rfl⟩
      | failed reason => exact ⟨[.failed reason], rfl, rfl, .returns rfl⟩
      | closed =>
        obtain ⟨front, hfront, hcount, htakes⟩ := ih n
        refine ⟨.closed :: front, congrArg _ hfront, ?_, htakes.closed⟩
        rw [List.countP_cons_of_pos rfl, ← Nat.add_assoc]
        exact congrArg (· + 1) hcount

end MergedReader

/-! ### Runs -/

/-- The pumps of two pipes, with the messages that they have yet to tell, and their reader. -/
structure Merging where
  untold : Pipe → List PipeMessage
  reader : MergedReader

namespace Merging

/-- What can happen next. -/
inductive Move where
  /-- The pump of a pipe tells its next message. -/
  | tell (p : Pipe)
  /-- The reader is called, or goes on waiting. -/
  | read
deriving DecidableEq, Repr

/-- Both pipes are open, and the pumps have told nothing. -/
def start (size : Nat) (reads : Pipe → List ReadResult) : Merging where
  untold p := PipeMessage.pump size (reads p)
  reader := {}

/-- A pump tells its next message, if it has any. -/
def tell (m : Merging) (p : Pipe) : Merging :=
  match m.untold p with
  | [] => m
  | message :: rest =>
    { untold := fun q => if q = p then rest else m.untold q
      reader := m.reader.send message }

/-- The result of a move, if it is a read that returns, and what it leads to. -/
def step (m : Merging) : Move → Option ChunkResult × Merging
  | .tell p => (none, m.tell p)
  | .read => (m.reader.readChunk.1, { m with reader := m.reader.readChunk.2 })

/-- The results that are returned along some moves, and what they lead to. -/
def run : List Move → Merging → List ChunkResult × Merging
  | [], m => ([], m)
  | move :: rest, m =>
    ((m.step move).1.toList ++ (run rest (m.step move).2).1, (run rest (m.step move).2).2)

/-- What has been told of two pipes: messages that the reader has taken, and behind them those
that have arrived.  The pumps have yet to tell the rest, and a pipe is open until its last message
is taken. -/
structure History (scripts : Pipe → PipeScript) (taken queue : List (Pipe × PipeMessage))
    (m : Merging) : Prop where
  arrived : m.reader.arrived = queue.map Prod.snd
  messages : ∀ p, part p taken ++ part p queue ++ m.untold p = (scripts p).messages
  openPipes : m.reader.openPipes + (taken.map Prod.snd).countP PipeMessage.isLast = 2

namespace History

variable {scripts : Pipe → PipeScript} {taken queue : List (Pipe × PipeMessage)} {m : Merging}

theorem part_isPrefix (h : History scripts taken queue m) (p : Pipe) :
    part p taken <+: (scripts p).messages :=
  ⟨part p queue ++ m.untold p, by rw [← List.append_assoc, h.messages p]⟩

/-- **No pipe is open exactly if all messages of both are taken.** -/
theorem openPipes_iff (h : History scripts taken queue m) :
    m.reader.openPipes = 0 ↔ ∀ p, part p taken = (scripts p).messages := by
  have hcount := h.openPipes
  rw [countP_part, PipeScript.countP_isLast (h.part_isPrefix .output),
    PipeScript.countP_isLast (h.part_isPrefix .errors)] at hcount
  constructor
  · intro hzero p
    -- two last messages have been taken, and there is no more than one of each pipe
    split at hcount
    · split at hcount
      · cases p <;> assumption
      · omega
    · split at hcount <;> omega
  · intro hall
    rw [if_pos (hall .output), if_pos (hall .errors)] at hcount
    omega

/-- Where no pipe is open, nothing is left to tell. -/
theorem untold_eq_nil (h : History scripts taken queue m) (hopen : m.reader.openPipes = 0)
    (p : Pipe) : m.untold p = [] := by
  have hall := h.openPipes_iff.mp hopen p
  rw [← h.messages p, List.append_assoc] at hall
  exact (List.append_eq_nil_iff.mp (List.append_right_eq_self.mp hall.symm)).2

/-- Where a pipe is open and nothing has arrived, a pump has a message to tell. -/
theorem exists_untold (h : History scripts taken [] m) (hopen : 0 < m.reader.openPipes) :
    ∃ p, m.untold p ≠ [] := by
  refine Classical.byContradiction fun hnone => Nat.ne_of_gt hopen (h.openPipes_iff.mpr fun p => ?_)
  have hp : m.untold p = [] := Classical.byContradiction fun hne => hnone ⟨p, hne⟩
  have hmessages := h.messages p
  rwa [hp, List.append_nil, part_nil, List.append_nil] at hmessages

/-- In the beginning nothing is told. -/
theorem start (size : Nat) (reads : Pipe → List ReadResult) :
    History (fun p => .ofReads size (reads p)) [] [] (start size reads) where
  arrived := rfl
  messages p := PipeScript.pump_eq_messages size (reads p)
  openPipes := rfl

/-- What a pump tells arrives behind what has arrived. -/
theorem tell (h : History scripts taken queue m) (p : Pipe) :
    ∃ queue', History scripts taken queue' (m.tell p) := by
  unfold Merging.tell
  split
  · exact ⟨queue, h⟩
  · rename_i message rest huntold
    refine ⟨queue ++ [(p, message)], ?_, fun q => ?_, h.openPipes⟩
    · rw [MergedReader.send, h.arrived, List.map_append]
      rfl
    · rw [part_append, ← h.messages q]
      dsimp only
      by_cases hq : q = p
      · subst hq
        rw [if_pos rfl, huntold, part_cons_self, part_nil, List.append_assoc, List.append_assoc,
          List.append_assoc, List.singleton_append]
      · rw [if_neg hq, part_cons_of_ne (Ne.symm hq), part_nil, List.append_nil]

/-- **A read takes a front of the queue.** -/
theorem read (h : History scripts taken queue m) :
    ∃ front rest, History scripts (taken ++ front) rest (m.step .read).2 ∧
      MergedReader.Takes (front.map Prod.snd) m.reader.readChunk.2 m.reader.readChunk.1 := by
  obtain ⟨front, hfront, hcount, htakes⟩ :=
    MergedReader.exists_takes m.reader.openPipes m.reader.arrived
  obtain ⟨tagged, rest, rfl, rfl, hrest⟩ := List.map_eq_append_iff.mp (h.arrived.symm.trans hfront)
  refine ⟨tagged, rest, ⟨hrest.symm, fun p => ?_, ?_⟩, htakes⟩
  · rw [← h.messages p, part_append, part_append, List.append_assoc (part p taken)]
    rfl
  · rw [List.map_append, List.countP_append]
    have hopen := h.openPipes
    change m.reader.readChunk.2.openPipes + _ = _ at hcount
    change m.reader.readChunk.2.openPipes + _ = _
    omega

/-- A history that goes on where no pipe is open has nothing more. -/
theorem eq_nil_of_append {m' : Merging} {new queue' : List (Pipe × PipeMessage)}
    (h : History scripts taken queue m) (hopen : m.reader.openPipes = 0)
    (h' : History scripts (taken ++ new) queue' m') : new = [] := by
  refine eq_nil_of_part fun p => ?_
  have hlength := (h'.part_isPrefix p).length_le
  rw [part_append, h.openPipes_iff.mp hopen p, List.length_append] at hlength
  exact List.eq_nil_of_length_eq_zero (by omega)

/-- **A run takes more of the queue, and returns what that holds**; and it returns ends of the
stream behind that, if all has been taken. -/
theorem run (h : History scripts taken queue m) (moves : List Move) :
    ∃ new queue' ends, History scripts (taken ++ new) queue' (m.run moves).2 ∧
      (m.run moves).1 =
        (new.map Prod.snd).filterMap PipeMessage.result? ++ List.replicate ends (Except.ok none) ∧
      (0 < ends → (m.run moves).2.reader.openPipes = 0) := by
  induction moves generalizing m taken queue with
  | nil => exact ⟨[], queue, 0, by rwa [List.append_nil], rfl, nofun⟩
  | cons move moves ih =>
    cases move with
    | tell p =>
      obtain ⟨queue₁, h₁⟩ := h.tell p
      exact ih h₁
    | read =>
      obtain ⟨front, queue₁, h₁, htakes⟩ := h.read
      obtain ⟨new, queue', ends, h', hresults, hends⟩ := ih h₁
      have hall : (m.run (.read :: moves)).1 = m.reader.readChunk.1.toList ++
          ((new.map Prod.snd).filterMap PipeMessage.result? ++
            List.replicate ends (Except.ok none)) := hresults ▸ rfl
      rcases htakes.result_or_end with hout | ⟨hnone, hout, hopen⟩
      · refine ⟨front ++ new, queue', ends, List.append_assoc .. ▸ h', ?_, hends⟩
        rw [hall, ← hout, List.map_append, List.filterMap_append, List.append_assoc]
      · -- all has been taken, so the rest of the run returns nothing but ends
        obtain rfl := h₁.eq_nil_of_append hopen h'
        rw [List.append_nil] at h'
        refine ⟨front, queue', ends + 1, h', ?_, fun _ => ?_⟩
        · rw [hall, hout, hnone]
          rfl
        · exact h'.openPipes_iff.mpr (h₁.openPipes_iff.mp hopen)

end History

/-- **Two pipes are interleaved.**  Let the pumps of two pipes tell what they read, and call for
chunks, in any order.  What the calls return is a history of both pipes, and behind it ends of the
stream.

* Each pipe's part of the history is a front of what the pipe brings: its blocks in their order,
  none of them left out or twice, and then its error, if it fails.  The blocks are the bytes that
  the pipe delivers.
* If there is an end of the stream, each part is whole, and the pumps have nothing left to tell.
* A call waits only while a pump has a message to tell; so it never waits for pumps that have both
  gone, and behind an end of the stream every call returns. -/
theorem run_interleaves (size : Nat) (reads : Pipe → List ReadResult) (moves : List Move) :
    ∃ (history : List (Pipe × ChunkResult)) (ends : Nat),
      ((start size reads).run moves).1 =
          history.map Prod.snd ++ List.replicate ends (Except.ok none) ∧
        (∀ p, part p history <+: (PipeScript.ofReads size (reads p)).results ∧
          (PipeScript.ofReads size (reads p)).blocks.flatten = ReadResult.delivered (reads p)) ∧
        (0 < ends → ∀ p, part p history = (PipeScript.ofReads size (reads p)).results ∧
          ((start size reads).run moves).2.untold p = []) ∧
        (((start size reads).run moves).2.reader.readChunk.1 = none →
          ∃ p, ((start size reads).run moves).2.untold p ≠ []) := by
  obtain ⟨taken, queue, ends, h, hresults, hends⟩ := (History.start size reads).run moves
  rw [List.nil_append] at h
  refine ⟨translated PipeMessage.result? taken, ends, ?_, fun p => ⟨?_, ?_⟩, fun hend p => ?_, ?_⟩
  · rw [map_snd_translated, hresults]
  · rw [part_translated, ← PipeScript.filterMap_messages]
    exact (h.part_isPrefix p).filterMap _
  · exact PipeScript.flatten_blocks_ofReads size (reads p)
  · have hopen := hends hend
    refine ⟨?_, h.untold_eq_nil hopen p⟩
    rw [part_translated, h.openPipes_iff.mp hopen p, PipeScript.filterMap_messages]
  · intro hwaits
    obtain ⟨front, rest, h', htakes⟩ := h.read
    rw [hwaits] at htakes
    cases htakes with
    | waits hnone harrived hopen =>
      obtain rfl := List.map_eq_nil_iff.mp (h'.arrived.symm.trans harrived)
      exact h'.exists_untold hopen

/-- A pipe fails while the other is read to its end, and the reader waits for it. -/
example :
    ((start 4 fun
        | .output => [.interrupted, .data [0x61, 0x62, 0x63, 0x64, 0x65]]
        | .errors => [.data [0x78], .failed "broken", .data [0x79]]).run
      [.tell .errors, .tell .errors, .read, .read, .read, .tell .output, .read, .tell .output,
        .tell .output, .read, .read, .read]).1 =
      [.ok (some [0x78]), .error "broken", .ok (some [0x61, 0x62, 0x63, 0x64]),
        .ok (some [0x65]), .ok none, .ok none] := rfl

end Merging

end VirtualTerminal
