import AsrClient.RingBuffer
import AsrClient.Library.BoundedQueue

/-!
# The audio source fed by the application

A producer writes chunks, a consumer reads everything stored so far, and `finish`
marks the end of the stream. Each call is one critical section here, so a run is a
sequence of calls in the order in which they took the mutex.

`write` discards the count that the ring buffer returns and answers `true` whatever
it was. The refinement below shows that a run is a sequence of transfers of a
bounded queue whose capacity is one byte less than the buffer size, so accepted
audio reaches the consumer exactly when each accepted chunk fitted in the free space.
-/

namespace AsrClient

/-- The implementation object: the ring buffer and the two flags. -/
structure BufferAudioSource where
  ringBuffer : RingBuffer
  finished : Bool
  toRead : Bool
deriving DecidableEq

namespace BufferAudioSource

/-- The constructor. The `size_t` argument is narrowed to 32 bits. -/
def create (bufferSize : Nat) : BufferAudioSource :=
  ⟨RingBuffer.create (UInt32.ofNat bufferSize), false, false⟩

/-- Take all stored bytes. The return value is -1 at the end of the stream, and the
number of bytes taken otherwise. -/
def read (source : BufferAudioSource) (buffer : Bytes) :
    Option (Int32 × Bytes × BufferAudioSource) :=
  if source.finished && !source.toRead then some (-1, buffer, source)
  else do
    let (ret, buffer, ringBuffer) ← source.ringBuffer.readAll buffer
    pure (ret.toInt32, buffer, { source with ringBuffer, toRead := false })

/-- Offer a chunk. The answer says only that the stream was not finished. -/
def write (source : BufferAudioSource) (buffer : Bytes) : Option (Bool × BufferAudioSource) :=
  if source.finished then some (false, source)
  else do
    let (_, ringBuffer) ← source.ringBuffer.write (some buffer) (UInt32.ofNat buffer.length)
    pure (true, { source with ringBuffer, toRead := true })

/-- Mark the end of the stream. -/
def finish (source : BufferAudioSource) : BufferAudioSource := { source with finished := true }

/-- One call of the application or of the sender. -/
inductive Operation where
  | write (data : Bytes)
  | read (buffer : Bytes)
  | finish
deriving DecidableEq

/-- What a call returned, with the chunk offered or the buffer as it was left. -/
inductive Outcome where
  | wrote (data : Bytes) (accepted : Bool)
  | read (ret : Int32) (buffer : Bytes)
  | finished
deriving DecidableEq

/-- Execute one call. -/
def step (source : BufferAudioSource) : Operation → Option (Outcome × BufferAudioSource)
  | .write data => do
      let (accepted, source) ← source.write data
      pure (.wrote data accepted, source)
  | .read buffer => do
      let (ret, buffer, source) ← source.read buffer
      pure (.read ret buffer, source)
  | .finish => pure (.finished, source.finish)

/-- Execute calls in order and collect what they returned. -/
def run : BufferAudioSource → List Operation → Option (List Outcome × BufferAudioSource)
  | source, [] => some ([], source)
  | source, operation :: rest => do
      let (outcome, source) ← source.step operation
      let (outcomes, source) ← run source rest
      pure (outcome :: outcomes, source)

/-- The bytes that reads returned, block after block. -/
def delivered : List Outcome → Bytes
  | [] => []
  | .read ret buffer :: rest => buffer.take ret.toNatClampNeg ++ delivered rest
  | _ :: rest => delivered rest

/-- The full data of the writes that answered `true`, in order. -/
def accepted : List Outcome → Bytes
  | [] => []
  | .wrote data true :: rest => data ++ accepted rest
  | _ :: rest => accepted rest

/-- A write to an unfinished stream fits in the space that is free before it. -/
def Fits (source : BufferAudioSource) : Operation → Prop
  | .write data =>
      source.finished = false → data.length ≤ source.ringBuffer.getWriteAvail.toNat
  | _ => True

/-- Each write of a sequence of calls fits when it is made. -/
def AllFit : BufferAudioSource → List Operation → Prop
  | _, [] => True
  | source, operation :: rest =>
      Fits source operation ∧
        ∀ outcome after, source.step operation = some (outcome, after) → AllFit after rest

/-- How many bytes of a chunk the ring buffer keeps: all of a chunk that fits, and
otherwise as many as the chunk's size, narrowed to 32 bits, and the room admit. -/
def ringAdmission : BoundedQueue.Admission where
  kept room offered := if offered ≤ room then offered else min (offered % 2 ^ 32) room
  fitting room offered fits := if_pos fits
  bounded room offered := by
    split_ifs with fits
    · exact fits
    · exact Nat.min_le_right _ _

/-- The queue transfers that a list of outcomes stands for. Refused writes, reads at
the end of the stream and `finish` transfer nothing. -/
def transfers : List Outcome → List (BoundedQueue.Transfer Byte)
  | [] => []
  | .wrote data true :: rest => .offer data :: transfers rest
  | .wrote _ false :: rest => transfers rest
  | .read ret _ :: rest => if ret = -1 then transfers rest else .drain :: transfers rest
  | .finished :: rest => transfers rest

/-- The source holds this queue, and bytes in it are announced to the next read. -/
structure Holds (source : BufferAudioSource) (queue : Bytes) : Prop where
  ring : source.ringBuffer.Represents queue
  announced : queue ≠ [] → source.toRead = true

/-- The capacity of the queue behind a source. -/
def capacity (source : BufferAudioSource) : Nat := source.ringBuffer.size.toNat - 1

/-- A new source of an admitted size holds the empty queue. -/
theorem create_holds (bufferSize : Nat) (positive : 1 ≤ bufferSize) (bounded : bufferSize ≤ 2 ^ 31) :
    Holds (create bufferSize) [] where
  ring := by
    have exact : (UInt32.ofNat bufferSize).toNat = bufferSize := UInt32.toNat_ofNat_of_lt' (by
      show bufferSize < 2 ^ 32
      omega)
    exact RingBuffer.create_represents _ (by omega) (by omega)
  announced := by simp

/-- A count of stored bytes is returned unchanged through the signed result. -/
theorem signed_count (count : UInt32) (small : count.toNat < 2 ^ 31) :
    count.toInt32.toNatClampNeg = count.toNat := by
  have unchanged : count.toInt32.toInt = count.toNat := by
    show count.toBitVec.toInt = count.toNat
    exact BitVec.toInt_eq_toNat_of_lt (by
      show 2 * count.toNat < 2 ^ 32
      omega)
  rw [← Int32.toNat_toInt, unchanged]
  rfl

/-- No count of stored bytes is mistaken for the end of the stream. -/
theorem signed_count_ne (count : UInt32) (small : count.toNat < 2 ^ 31) :
    count.toInt32 ≠ -1 := by
  intro same
  have ended : count = (-1 : Int32).toUInt32 := congrArg Int32.toUInt32 same
  subst ended
  exact absurd small (by decide)

section Holding

variable (source : BufferAudioSource) (queue : Bytes) (holds : Holds source queue)

include holds

/-- A write to an unfinished source offers the whole chunk to the queue. -/
theorem write_offers (data : Bytes) (open_ : source.finished = false) :
    ∃ after, source.write data = some (true, after) ∧ after.capacity = source.capacity ∧
      Holds after (BoundedQueue.offer ringAdmission source.capacity queue data) := by
  have narrowed : (UInt32.ofNat data.length).toNat = data.length % 2 ^ 32 := UInt32.toNat_ofNat'
  obtain ⟨count, ring, written, exactCount, size, represents⟩ :=
    RingBuffer.write_exact source.ringBuffer queue holds.ring data (UInt32.ofNat data.length)
      (by omega)
  have kept : count.toNat =
      ringAdmission.kept (source.capacity - queue.length) data.length := by
    have bounded := holds.ring.bounded
    simp only [ringAdmission, capacity]
    rw [exactCount, narrowed]
    split_ifs with fits
    · rw [Nat.mod_eq_of_lt (by omega)]
      omega
    · rfl
  refine ⟨{ source with ringBuffer := ring, toRead := true }, ?_, ?_, ?_⟩
  · simp [write, open_, written]
  · simp only [capacity, size]
  · rw [BoundedQueue.offer, ← kept]
    exact ⟨represents, fun _ => rfl⟩

/-- A read that does not answer -1 drains the queue: the bytes it returns are the
whole queue, in order. -/
theorem read_drains (buffer : Bytes) (more : (source.finished && !source.toRead) = false) :
    ∃ ret taken after, source.read buffer = some (ret, taken, after) ∧ ret ≠ -1 ∧
      taken.take ret.toNatClampNeg = queue ∧ after.capacity = source.capacity ∧ Holds after [] := by
  obtain ⟨count, ring, emptied, exactCount, size, represents⟩ :=
    RingBuffer.read_all_exact source.ringBuffer queue holds.ring buffer
  have stored := holds.ring.stored
  have bounded := holds.ring.bounded
  refine ⟨count.toInt32, if queue = [] then buffer else queue,
    { source with ringBuffer := ring, toRead := false }, ?_, signed_count_ne count (by omega), ?_,
    ?_, ⟨represents, by simp⟩⟩
  · simp [read, more, emptied]
  · rw [signed_count count (by omega), exactCount]
    split_ifs with nothing
    · simp [nothing]
    · exact List.take_length
  · simp only [capacity, size]

/-- A read answers -1 only when nothing is stored. -/
theorem end_of_stream_empty (ended : (source.finished && !source.toRead) = true) : queue = [] := by
  by_contra some_stored
  simp [holds.announced some_stored] at ended

/-- A write fits in the ring buffer exactly when the queue has room for it. -/
theorem fits_iff (data : Bytes) (open_ : source.finished = false) :
    Fits source (.write data) ↔ data.length ≤ source.capacity - queue.length := by
  have available := RingBuffer.write_avail_exact source.ringBuffer queue holds.ring
  simp only [Fits, open_, forall_const, available, capacity]

/-- What a call can do: a refused write, a read at the end of the stream and `finish` leave the
queue alone; the other calls are transfers. -/
inductive Performs : Operation → Outcome → BufferAudioSource → Prop where
  | refused (data : Bytes) (closed : source.finished = true) :
      Performs (.write data) (.wrote data false) source
  | offered (data : Bytes) (after : BufferAudioSource) (open_ : source.finished = false)
      (sameCapacity : after.capacity = source.capacity)
      (held : Holds after (BoundedQueue.offer ringAdmission source.capacity queue data)) :
      Performs (.write data) (.wrote data true) after
  | ended (buffer : Bytes) (atEnd : (source.finished && !source.toRead) = true) :
      Performs (.read buffer) (.read (-1) buffer) source
  | drained (buffer taken : Bytes) (ret : Int32) (after : BufferAudioSource) (notEnd : ret ≠ -1)
      (block : taken.take ret.toNatClampNeg = queue)
      (sameCapacity : after.capacity = source.capacity) (held : Holds after []) :
      Performs (.read buffer) (.read ret taken) after
  | finish : Performs .finish .finished source.finish

/-- Every call has a result, and does one of these things. -/
theorem step_performs (operation : Operation) :
    ∃ outcome after, source.step operation = some (outcome, after) ∧
      Performs source queue operation outcome after := by
  cases operation with
  | write data =>
    cases open_ : source.finished with
    | true =>
      exact ⟨.wrote data false, source, by simp [step, write, open_], .refused data open_⟩
    | false =>
      obtain ⟨after, written, sameCapacity, held⟩ := write_offers source queue holds data open_
      exact ⟨.wrote data true, after, by simp [step, written],
        .offered data after open_ sameCapacity held⟩
  | read buffer =>
    cases atEnd : (source.finished && !source.toRead) with
    | true =>
      exact ⟨.read (-1) buffer, source, by simp [step, read, atEnd], .ended buffer atEnd⟩
    | false =>
      obtain ⟨ret, taken, after, drained, notEnd, block, sameCapacity, held⟩ :=
        read_drains source queue holds buffer atEnd
      exact ⟨.read ret taken, after, by simp [step, drained],
        .drained buffer taken ret after notEnd block sameCapacity held⟩
  | finish => exact ⟨.finished, source.finish, rfl, .finish⟩

/-- A source holds a queue behind every call. -/
theorem Performs.keeps {operation : Operation} {outcome : Outcome} {after : BufferAudioSource}
    (performs : Performs source queue operation outcome after) : ∃ left, Holds after left := by
  cases performs with
  | refused | ended => exact ⟨queue, holds⟩
  | offered data after open_ sameCapacity held => exact ⟨_, held⟩
  | drained buffer taken ret after notEnd block sameCapacity held => exact ⟨[], held⟩
  | finish => exact ⟨queue, holds.ring, holds.announced⟩

end Holding

/-- Every sequence of calls has a result, and it is a run of the bounded queue: what
reads deliver is what its drains take out, accepted data is what was offered to it,
and the calls fit exactly when its offers do. The induction is on the calls, and the cases are
what the first of them does. -/
theorem run_simulates (operations : List Operation) (source : BufferAudioSource) (queue : Bytes)
    (holds : Holds source queue) :
    ∃ outcomes after, run source operations = some (outcomes, after) ∧
      Holds after (BoundedQueue.contents ringAdmission source.capacity queue (transfers outcomes)) ∧
      delivered outcomes =
        BoundedQueue.drained ringAdmission source.capacity queue (transfers outcomes) ∧
      accepted outcomes = BoundedQueue.offered (transfers outcomes) ∧
      (AllFit source operations ↔
        BoundedQueue.AllFit ringAdmission source.capacity queue (transfers outcomes)) := by
  induction operations generalizing source queue with
  | nil => exact ⟨[], source, rfl, holds, rfl, rfl, Iff.rfl⟩
  | cons operation rest inductionHypothesis =>
    obtain ⟨outcome, next, stepped, performs⟩ := step_performs source queue holds operation
    cases performs with
    | refused data closed =>
      obtain ⟨outcomes, after, ran, held, out, offers, fit⟩ := inductionHypothesis source queue holds
      refine ⟨.wrote data false :: outcomes, after, ?_, held, out, offers, ?_⟩
      · simp [run, stepped, ran]
      · simp [AllFit, Fits, closed, stepped, fit, transfers]
    | offered data next open_ sameCapacity nextHolds =>
      obtain ⟨outcomes, after, ran, held, out, offers, fit⟩ := inductionHypothesis next _ nextHolds
      rw [sameCapacity] at held out fit
      refine ⟨.wrote data true :: outcomes, after, ?_, held, out, ?_, ?_⟩
      · simp [run, stepped, ran]
      · simp [accepted, transfers, BoundedQueue.offered, offers]
      · simp [AllFit, fits_iff source queue holds data open_, stepped, fit, transfers,
          BoundedQueue.AllFit]
    | ended buffer atEnd =>
      obtain ⟨outcomes, after, ran, held, out, offers, fit⟩ := inductionHypothesis source queue holds
      refine ⟨.read (-1) buffer :: outcomes, after, ?_, held, ?_, offers, ?_⟩
      · simp [run, stepped, ran]
      · simpa [delivered, transfers] using out
      · simp [AllFit, Fits, stepped, fit, transfers]
    | drained buffer taken ret next notEnd block sameCapacity nextHolds =>
      obtain ⟨outcomes, after, ran, held, out, offers, fit⟩ := inductionHypothesis next _ nextHolds
      rw [sameCapacity] at held out fit
      refine ⟨.read ret taken :: outcomes, after, ?_, ?_, ?_, ?_, ?_⟩
      · simp [run, stepped, ran]
      · simpa [transfers, notEnd, BoundedQueue.contents] using held
      · simp [delivered, transfers, notEnd, BoundedQueue.drained, block, out]
      · simp [accepted, transfers, notEnd, BoundedQueue.offered, offers]
      · simp [AllFit, Fits, stepped, fit, transfers, notEnd, BoundedQueue.AllFit]
    | finish =>
      obtain ⟨outcomes, after, ran, held, out, offers, fit⟩ :=
        inductionHypothesis source.finish queue ⟨holds.ring, holds.announced⟩
      have sameCapacity : source.finish.capacity = source.capacity := rfl
      rw [sameCapacity] at fit
      refine ⟨.finished :: outcomes, after, ?_, held, out, offers, ?_⟩
      · simp [run, stepped, ran]
      · simpa [AllFit, Fits, stepped, transfers] using fit

/-- Calls can be executed in two parts, one after the other. -/
theorem run_append (first second : List Operation) (source : BufferAudioSource) :
    run source (first ++ second) = (run source first).bind fun (outcomes, middle) =>
      (run middle second).map fun (others, after) => (outcomes ++ others, after) := by
  induction first generalizing source with
  | nil => simp [run]
  | cons operation rest inductionHypothesis =>
    simp only [List.cons_append, run, inductionHypothesis]
    cases source.step operation with
    | none => rfl
    | some result =>
      cases ran : run result.2 rest with
      | none => simp [ran]
      | some others => cases ranSecond : run others.2 second <;> simp [ran, ranSecond]

/-- A call that answers -1 found the stream finished and nothing announced, and
leaves the source as it was. -/
theorem step_ended (source after : BufferAudioSource) (operation : Operation) (buffer queue : Bytes)
    (holds : Holds source queue)
    (stepped : source.step operation = some (.read (-1) buffer, after)) :
    (after.finished && !after.toRead) = true := by
  obtain ⟨outcome, next, performed, performs⟩ := step_performs source queue holds operation
  obtain ⟨rfl, rfl⟩ := Prod.mk.inj (Option.some.inj (performed.symm.trans stepped))
  cases performs with
  | ended _ atEnd => exact atEnd
  | drained _ _ _ _ notEnd => exact absurd rfl notEnd

/-- After a run whose last call answered -1, nothing is stored. -/
theorem ended_run_empty (operations : List Operation) (source after : BufferAudioSource)
    (queue left buffer : Bytes) (outcomes : List Outcome) (holds : Holds source queue)
    (ran : run source operations = some (outcomes, after))
    (ended : outcomes.getLast? = some (.read (-1) buffer)) (held : Holds after left) :
    left = [] := by
  apply end_of_stream_empty after left held
  rcases List.eq_nil_or_concat operations with rfl | ⟨earlier, last, rfl⟩
  · simp only [run, Option.some.injEq, Prod.mk.injEq] at ran
    simp [← ran.1] at ended
  · obtain ⟨others, middle, ranEarlier, middleHolds, _⟩ := run_simulates earlier source queue holds
    rw [List.concat_eq_append, run_append, ranEarlier, Option.bind_some] at ran
    obtain ⟨⟨lastOutcomes, ending⟩, ranLast, result⟩ := Option.map_eq_some_iff.mp ran
    obtain ⟨⟨outcome, _⟩, stepped, only⟩ := Option.bind_eq_some_iff.mp ranLast
    obtain ⟨rfl, rfl⟩ := Prod.mk.inj result
    obtain ⟨rfl, rfl⟩ := Prod.mk.inj (Option.some.inj only)
    have lastOutcome : outcome = .read (-1) buffer := by simpa using ended
    subst lastOutcome
    exact step_ended middle _ last buffer _ middleHolds stepped

/-- In every run that ends with a read answering -1, the blocks returned by the reads
are the data of the accepted writes exactly when each accepted write fitted in the
free space. Otherwise bytes of an accepted write are missing. -/
theorem accepted_audio_delivered_iff (bufferSize : Nat) (positive : 1 ≤ bufferSize)
    (bounded : bufferSize ≤ 2 ^ 31) (operations : List Operation) (outcomes : List Outcome)
    (after : BufferAudioSource) (buffer : Bytes)
    (ran : run (create bufferSize) operations = some (outcomes, after))
    (ended : outcomes.getLast? = some (.read (-1) buffer)) :
    delivered outcomes = accepted outcomes ↔ AllFit (create bufferSize) operations := by
  have holds := create_holds bufferSize positive bounded
  obtain ⟨outcomes', after', ran', held, out, offers, fit⟩ :=
    run_simulates operations (create bufferSize) [] holds
  obtain ⟨rfl, rfl⟩ := Prod.mk.inj (Option.some.inj (ran.symm.trans ran'))
  have nothingLeft := ended_run_empty operations (create bufferSize) after [] _ buffer outcomes
    holds ran ended held
  have conserved := BoundedQueue.conserved_iff_fit ringAdmission (create bufferSize).capacity []
    (transfers outcomes)
  rw [nothingLeft, List.append_nil, List.nil_append] at conserved
  rw [out, offers, fit, conserved]

/-- A source of four bytes holds three; a chunk of three is delivered entirely. -/
theorem accepted_audio_delivered_fitting :
    delivered [.wrote [1, 2, 3] true, .finished, .read 3 [1, 2, 3], .read (-1) []] =
      accepted [.wrote [1, 2, 3] true, .finished, .read 3 [1, 2, 3], .read (-1) []] ↔
    AllFit (create 4) [.write [1, 2, 3], .finish, .read [], .read []] :=
  accepted_audio_delivered_iff 4 (by decide) (by decide)
    [.write [1, 2, 3], .finish, .read [], .read []] _ _ [] rfl rfl

/-- A chunk as long as the buffer is accepted, and its last byte never arrives. -/
theorem full_buffer_loses_audio :
    ¬ ∀ bufferSize : Nat, 1 ≤ bufferSize → bufferSize ≤ 2 ^ 31 →
      ∀ (operations : List Operation) (outcomes : List Outcome) (after : BufferAudioSource)
        (buffer : Bytes), run (create bufferSize) operations = some (outcomes, after) →
        outcomes.getLast? = some (.read (-1) buffer) →
        delivered outcomes = accepted outcomes := by
  intro always
  have lossless := always 4 (by decide) (by decide)
    [.write [1, 2, 3, 4], .finish, .read [], .read []] _ _ [] rfl rfl
  exact absurd lossless (by decide)

end BufferAudioSource

end AsrClient
