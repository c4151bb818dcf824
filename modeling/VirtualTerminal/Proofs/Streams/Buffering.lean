import VirtualTerminal.Proofs.Streams.Reads

/-!
# Buffering — the chunks of a stream

Chunks are read one call after another (`ReadResult.readChunks`).  A call takes what the stream
gives next, past the reads that were interrupted; so the calls together give what each read comes
to (`ReadResult.outcomes`), and the end of the stream from then on (`ReadResult.readChunks_eq`).

The bytes of every read go into one buffer, over those of the reads before (`BufferedReader`).
Nothing that was in the buffer gets into a chunk (`BufferedReader.readChunks_eq`).

**Chunks transcribe the stream** (`ReadResult.readChunks_transcribes`).
-/

namespace VirtualTerminal

/-- The chunks up to the first result that is none. -/
def chunksBefore : List ChunkResult → List (List UInt8)
  | .ok (some chunk) :: rest => chunk :: chunksBefore rest
  | .ok none :: _ | .error _ :: _ | [] => []

section ChunksBefore
variable {results results' : List ChunkResult}

theorem chunksBefore_map_append (chunks : List (List UInt8)) (results : List ChunkResult) :
    chunksBefore ((chunks.map fun chunk => .ok (some chunk)) ++ results) =
      chunks ++ chunksBefore results := by
  induction chunks with
  | nil => rfl
  | cons chunk chunks ih => exact congrArg (chunk :: ·) ih

/-- Ends of the stream add no chunk. -/
theorem chunksBefore_append_ends (results : List ChunkResult) (n : Nat) :
    chunksBefore (results ++ List.replicate n (.ok none)) = chunksBefore results := by
  induction results with
  | nil => cases n <;> rfl
  | cons r results ih =>
    match r with
    | .ok (some chunk) => exact congrArg (chunk :: ·) ih
    | .ok none | .error _ => rfl

/-- Fewer results have fewer chunks. -/
theorem chunksBefore_isPrefix (h : results <+: results') :
    chunksBefore results <+: chunksBefore results' := by
  obtain ⟨rest, rfl⟩ := h
  induction results with
  | nil => exact List.nil_prefix
  | cons r results ih =>
    match r with
    | .ok (some chunk) => exact List.cons_prefix_cons.mpr ⟨rfl, ih⟩
    | .ok none | .error _ => exact List.prefix_refl _

/-- Behind a result that is no chunk, no result matters. -/
theorem chunksBefore_eq_of_isPrefix (h : results <+: results')
    (hend : ∃ r ∈ results, ∀ chunk, r ≠ .ok (some chunk)) :
    chunksBefore results = chunksBefore results' := by
  obtain ⟨rest, rfl⟩ := h
  induction results with
  | nil =>
    obtain ⟨r, hr, -⟩ := hend
    cases hr
  | cons r results ih =>
    match r with
    | .ok (some chunk) =>
      obtain ⟨r, hr, hnone⟩ := hend
      rcases List.mem_cons.mp hr with rfl | hr
      · exact absurd rfl (hnone chunk)
      · exact congrArg (chunk :: ·) (ih ⟨r, hr, hnone⟩)
    | .ok none | .error _ => rfl

end ChunksBefore

namespace ReadResult

variable {size : Nat}

/-! ### What reads come to -/

/-- What a read comes to, where its bytes are cut to a size: nothing if it is interrupted, the end
of the stream if it has no byte or the other side is gone, and else chunks or an error. -/
def outcomes (size : Nat) : ReadResult → List ChunkResult
  | .interrupted => []
  | .hangup => [.ok none]
  | .failed reason => [.error reason]
  | .data bytes =>
    if bytes.isEmpty then [.ok none] else (blocks size bytes).map fun block => .ok (some block)

/-- What a read comes to, where its bytes fit: at most one result. -/
def outcome? : ReadResult → Option ChunkResult
  | .interrupted => none
  | .hangup => some (.ok none)
  | .failed reason => some (.error reason)
  | .data bytes => some (.ok (if bytes.isEmpty then none else some bytes))

theorem outcomes_of_fits (h : 0 < size) {r : ReadResult}
    (hfits : ∀ bytes, r = .data bytes → bytes.length ≤ size) :
    r.outcomes size = r.outcome?.toList := by
  cases r with
  | interrupted | hangup | failed reason => rfl
  | data bytes =>
    rw [outcomes, outcome?]
    split
    · rfl
    · rename_i hne
      rw [blocks_of_length_le h (fun hnil => hne (List.isEmpty_iff.mpr hnil)) (hfits bytes rfl)]
      rfl

theorem flatMap_outcomes_of_fits (h : 0 < size) {reads : List ReadResult}
    (hfits : ∀ bytes, .data bytes ∈ reads → bytes.length ≤ size) :
    reads.flatMap (outcomes size) = reads.filterMap outcome? := by
  induction reads with
  | nil => rfl
  | cons r reads ih =>
    have hfirst := outcomes_of_fits h (r := r)
      fun bytes hr => hfits bytes (hr ▸ List.mem_cons_self)
    rw [List.flatMap_cons, hfirst, ih fun bytes hr => hfits bytes (List.mem_cons_of_mem r hr)]
    cases hr : r.outcome? with
    | none => rw [List.filterMap_cons_none hr]; rfl
    | some result => rw [List.filterMap_cons_some hr]; rfl

/-- No chunk is empty or longer than the size. -/
theorem mem_outcomes (h : 0 < size) {reads : List ReadResult} {chunk : List UInt8}
    (hchunk : .ok (some chunk) ∈ reads.flatMap (outcomes size)) :
    chunk ≠ [] ∧ chunk.length ≤ size := by
  obtain ⟨r, -, hr⟩ := List.mem_flatMap.mp hchunk
  cases r with
  | interrupted => cases hr
  | hangup | failed reason => cases List.mem_singleton.mp hr
  | data bytes =>
    rw [outcomes] at hr
    split at hr
    · cases List.mem_singleton.mp hr
    · obtain ⟨block, hblock, heq⟩ := List.mem_map.mp hr
      obtain rfl := Option.some.inj (Except.ok.inj heq)
      exact mem_blocks h hblock

/-- The chunks before the first end or error are what was delivered. -/
theorem flatten_chunksBefore_outcomes (h : 0 < size) (reads : List ReadResult) :
    (chunksBefore (reads.flatMap (outcomes size))).flatten = delivered reads := by
  induction reads with
  | nil => rfl
  | cons r reads ih =>
    cases r with
    | interrupted => exact ih
    | hangup | failed reason => exact (delivered_cons_last rfl reads).symm
    | data bytes =>
      rw [List.flatMap_cons, outcomes]
      split
      · exact (delivered_cons_last ‹_› reads).symm
      · rename_i hne
        have hmore : (ReadResult.data bytes).isLast = false := Bool.eq_false_iff.mpr hne
        rw [chunksBefore_map_append, List.flatten_append, flatten_blocks h, ih,
          delivered_cons hmore]
        rfl

/-! ### Calls -/

/-- The results of so many calls, one after another. -/
def readChunks (size : Nat) : Nat → List ReadResult → List ChunkResult
  | 0, _ => []
  | n + 1, reads => (readChunk size reads).1 :: readChunks size n (readChunk size reads).2

/-- **One call** takes the next result, or gives the end of the stream where none is left. -/
theorem readChunk_cases (h : 0 < size) (reads : List ReadResult) :
    reads.flatMap (outcomes size) =
        (readChunk size reads).1 :: (readChunk size reads).2.flatMap (outcomes size) ∨
      reads.flatMap (outcomes size) = [] ∧ readChunk size reads = (Except.ok none, []) := by
  induction reads with
  | nil => exact .inr ⟨rfl, rfl⟩
  | cons r reads ih =>
    cases r with
    | interrupted => exact ih
    | hangup | failed reason => exact .inl rfl
    | data bytes =>
      left
      rw [List.flatMap_cons, outcomes, readChunk]
      split
      · rfl
      · rename_i hempty
        have hne : bytes ≠ [] := fun hnil => hempty (List.isEmpty_iff.mpr hnil)
        rw [blocks_of_ne_nil h hne]
        split
        · rename_i hfits
          rw [List.drop_eq_nil_iff.mpr hfits]
          rfl
        · rename_i hlong
          have hrest : ¬ (bytes.drop size).isEmpty = true := by
            rw [List.isEmpty_iff, List.drop_eq_nil_iff]
            exact hlong
          rw [List.flatMap_cons, outcomes, if_neg hrest]
          rfl

/-- **Calls one after another** give what the reads come to, and the end of the stream from then
on. -/
theorem readChunks_eq (h : 0 < size) {n m : Nat} (hn : n ≤ m) (reads : List ReadResult) :
    readChunks size n reads =
      (reads.flatMap (outcomes size) ++ List.replicate m (Except.ok none)).take n := by
  induction n generalizing m reads with
  | zero => rfl
  | succ n ih =>
    rw [readChunks]
    rcases readChunk_cases h reads with hnext | ⟨hnone, hend⟩
    · rw [hnext, List.cons_append, List.take_succ_cons, ih (Nat.le_of_succ_le hn)]
    · obtain ⟨m, rfl⟩ : ∃ k, m = k + 1 := ⟨m - 1, by omega⟩
      rw [hnone, hend, ih (Nat.le_of_succ_le_succ hn)]
      rfl

end ReadResult

/-! ### The buffer -/

/-- A stream that is read through one buffer. -/
structure BufferedReader where
  buffer : List UInt8
  source : List ReadResult

namespace BufferedReader

/-- Bytes are written over the front of the buffer, as many as fit. -/
def fill (buffer bytes : List UInt8) : List UInt8 :=
  bytes.take buffer.length ++ buffer.drop bytes.length

/-- The next chunk is the part of the buffer that a read has filled. -/
def readFrom (buffer : List UInt8) : List ReadResult → ChunkResult × BufferedReader
  | [] => (.ok none, ⟨buffer, []⟩)
  | .interrupted :: rest => readFrom buffer rest
  | .hangup :: rest => (.ok none, ⟨buffer, rest⟩)
  | .failed reason :: rest => (.error reason, ⟨buffer, rest⟩)
  | .data bytes :: rest =>
    let count := min bytes.length buffer.length
    (.ok (if count = 0 then none else some ((fill buffer bytes).take count)),
      ⟨fill buffer bytes,
        if bytes.length ≤ buffer.length then rest
        else .data (bytes.drop buffer.length) :: rest⟩)

/-- The results of so many calls, one after another. -/
def readChunks : Nat → BufferedReader → List ChunkResult
  | 0, _ => []
  | n + 1, r => (readFrom r.buffer r.source).1 :: readChunks n (readFrom r.buffer r.source).2

variable {buffer bytes : List UInt8}

theorem length_fill : (fill buffer bytes).length = buffer.length := by
  rw [fill, List.length_append, List.length_take, List.length_drop]
  omega

/-- The filled part of the buffer holds the bytes that were read, and no others. -/
theorem take_fill :
    (fill buffer bytes).take (min bytes.length buffer.length) = bytes.take buffer.length := by
  have hlength : min bytes.length buffer.length = (bytes.take buffer.length).length := by
    rw [List.length_take, Nat.min_comm]
  rw [fill, hlength, List.take_left]

/-- A call gives the chunk that it gives without a buffer. -/
theorem readFrom_eq (h : 0 < buffer.length) (reads : List ReadResult) :
    (readFrom buffer reads).1 = (ReadResult.readChunk buffer.length reads).1 ∧
      (readFrom buffer reads).2.source = (ReadResult.readChunk buffer.length reads).2 ∧
      (readFrom buffer reads).2.buffer.length = buffer.length := by
  induction reads with
  | nil => exact ⟨rfl, rfl, rfl⟩
  | cons r reads ih =>
    cases r with
    | interrupted => exact ih
    | hangup | failed reason => exact ⟨rfl, rfl, rfl⟩
    | data bytes =>
      rw [readFrom, ReadResult.readChunk]
      refine ⟨?_, ?_, length_fill⟩
      · cases bytes with
        | nil => rfl
        | cons b bytes =>
          have hcount : ¬ min (b :: bytes).length buffer.length = 0 := by
            rw [List.length_cons]
            omega
          dsimp only
          rw [if_neg hcount, take_fill]
          rfl
      · cases bytes with
        | nil => rfl
        | cons b bytes => rfl

/-- **The buffer does not show**: whatever it holds at first, the chunks are the same. -/
theorem readChunks_eq (n : Nat) (h : 0 < buffer.length) (reads : List ReadResult) :
    readChunks n ⟨buffer, reads⟩ = ReadResult.readChunks buffer.length n reads := by
  induction n generalizing buffer reads with
  | zero => rfl
  | succ n ih =>
    obtain ⟨hresult, hsource, hlength⟩ := readFrom_eq h reads
    have hrest := ih (hlength.symm ▸ h) (readFrom buffer reads).2.source
    rw [hlength] at hrest
    rw [readChunks, ReadResult.readChunks, hresult, ← hsource]
    exact congrArg _ hrest

end BufferedReader

/-! ### Chunks of a stream -/

namespace ReadResult

theorem bufferSize_pos (chunkSize : Nat) : 0 < bufferSize chunkSize := Nat.le_max_right chunkSize 1

/-- **Chunks transcribe the stream.**  Take reads in any order, none of which brings more bytes than
the buffer holds, and call for chunks any number of times.

* The results are those of the reads, one for each: interrupted reads are left out, a read without a
  byte and a hang-up are each one end of the stream, other errors are in their places, and behind
  the last read there is the end of the stream from then on.
* No chunk is empty or longer than the size that was asked for, or than one byte if that is zero.
* The chunks before the first end or error are bytes that were delivered before it, and all of
  them once there has been an end or an error.
* Whatever the buffer holds at first, it does not show. -/
theorem readChunks_transcribes (chunkSize : Nat) {reads : List ReadResult}
    (hfits : ∀ bytes, .data bytes ∈ reads → bytes.length ≤ bufferSize chunkSize) (n : Nat)
    {results : List ChunkResult} (hresults : results = readChunks (bufferSize chunkSize) n reads) :
    results = (reads.filterMap outcome? ++ List.replicate n (Except.ok none)).take n ∧
      (∀ chunk, .ok (some chunk) ∈ results → chunk ≠ [] ∧ chunk.length ≤ max chunkSize 1) ∧
      (chunksBefore results).flatten <+: delivered reads ∧
      ((∃ r ∈ results, ∀ chunk, r ≠ .ok (some chunk)) →
        (chunksBefore results).flatten = delivered reads) ∧
      ∀ buffer, buffer.length = bufferSize chunkSize →
        BufferedReader.readChunks n ⟨buffer, reads⟩ = results := by
  have hpos := bufferSize_pos chunkSize
  have houtcomes := flatMap_outcomes_of_fits hpos hfits
  have heq : results = (reads.flatMap (outcomes (bufferSize chunkSize)) ++
      List.replicate n (Except.ok none)).take n :=
    hresults.trans (readChunks_eq hpos (Nat.le_refl n) reads)
  have hfront : results <+: reads.flatMap (outcomes (bufferSize chunkSize)) ++
      List.replicate n (Except.ok none) := heq ▸ List.take_prefix n _
  have hall : (chunksBefore (reads.flatMap (outcomes (bufferSize chunkSize)) ++
      List.replicate n (Except.ok none))).flatten = delivered reads := by
    rw [chunksBefore_append_ends, flatten_chunksBefore_outcomes hpos]
  refine ⟨houtcomes ▸ heq, fun chunk hchunk => ?_, ?_, fun hend => ?_, fun buffer hbuffer => ?_⟩
  · rcases List.mem_append.mp (hfront.subset hchunk) with hchunk | hchunk
    · exact mem_outcomes hpos hchunk
    · cases List.eq_of_mem_replicate hchunk
  · obtain ⟨rest, hrest⟩ := chunksBefore_isPrefix hfront
    rw [← hall, ← hrest, List.flatten_append]
    exact List.prefix_append _ _
  · rw [chunksBefore_eq_of_isPrefix hfront hend, hall]
  · rw [BufferedReader.readChunks_eq n (hbuffer ▸ hpos), hbuffer, hresults]

/-- Reads with interruptions, an error, bytes behind it, a hang-up and a read without a byte. -/
def unsteadyReads : List ReadResult :=
  [.interrupted, .data [0x61, 0x62, 0x63], .interrupted, .interrupted, .data [0x64],
    .failed "broken", .data [0x65, 0x66], .hangup, .data []]

/-- The error comes behind four bytes; from the hang-up on, the stream is at its end. -/
theorem readChunks_transcribes_unsteady :
    (∀ bytes, .data bytes ∈ unsteadyReads → bytes.length ≤ bufferSize 3) ∧
      readChunks (bufferSize 3) 7 unsteadyReads =
        [.ok (some [0x61, 0x62, 0x63]), .ok (some [0x64]), .error "broken",
          .ok (some [0x65, 0x66]), .ok none, .ok none, .ok none] ∧
      delivered unsteadyReads = [0x61, 0x62, 0x63, 0x64] ∧
      (chunksBefore (readChunks (bufferSize 3) 7 unsteadyReads)).flatten =
        delivered unsteadyReads ∧
      BufferedReader.readChunks 7 ⟨[0xff, 0xff, 0xff], unsteadyReads⟩ =
        readChunks (bufferSize 3) 7 unsteadyReads := by
  have hfits : ∀ bytes, .data bytes ∈ unsteadyReads → bytes.length ≤ bufferSize 3 := by
    simp [unsteadyReads, bufferSize]
  have hresults : readChunks (bufferSize 3) 7 unsteadyReads =
      [.ok (some [0x61, 0x62, 0x63]), .ok (some [0x64]), .error "broken",
        .ok (some [0x65, 0x66]), .ok none, .ok none, .ok none] := rfl
  have hend : ∃ r ∈ readChunks (bufferSize 3) 7 unsteadyReads,
      ∀ chunk, r ≠ .ok (some chunk) := by
    refine ⟨.error "broken", ?_, nofun⟩
    rw [hresults]
    simp
  obtain ⟨-, -, -, hbytes, hbuffer⟩ := readChunks_transcribes 3 hfits 7 rfl
  exact ⟨hfits, hresults, rfl, hbytes hend, hbuffer _ rfl⟩

end ReadResult

end VirtualTerminal
