import AsrClient.BufferAudioSource
import AsrClient.RingBufferCalls
import AsrClient.Library.Transitions

/-!
# The end of an audio stream

`write` and `read` hold the mutex from their first statement to their last; `finish`
does not take it. Here the statements of a critical section are steps of their own, so
the flag that `finish` sets may change between any two of them. Only the thread that
holds the mutex has a position; the others wait for it.

What carries the proof is that bytes in the ring are announced by the second flag, but
for the moment between the store of a write and its announcement, when no read can run.
So a read that finds the stream finished and nothing announced finds the ring empty,
and a write that was let in before `finish` still announces what it stores.
-/

namespace AsrClient.BufferAudioSource

open Transitions

/-- The next statement of the thread that holds the mutex. Both overloads of `write`
store a number of bytes from a pointer. -/
inductive Section where
  | writeTest (dataPtr : Option Bytes) (size : Nat)
  | writeStore (dataPtr : Option Bytes) (size : Nat)
  | writeAnnounce
  | writeReturn (accepted : Bool)
  | readTestFinished (buffer : Bytes)
  | readTestToRead (buffer : Bytes)
  | readTake (buffer : Bytes)
  | readClear (ret : Int32) (buffer : Bytes)
  | readReturn (ret : Int32) (buffer : Bytes)
deriving DecidableEq

/-- What the history of a source records. The bytes that the ring took from a write are
recorded when they are stored, and the other calls when they return. -/
inductive Event where
  | finish
  | stored (block : Bytes)
  | wrote (accepted : Bool)
  | read (ret : Int32) (buffer : Bytes)
deriving DecidableEq

/-- The source with its mutex, and the history in order. -/
structure Shared where
  source : BufferAudioSource
  mutex : Option Section := none
  log : List Event := []
deriving DecidableEq

/-- Perform one statement of a critical section: the statement that follows, unless the
mutex is released, the source, and what is recorded. -/
def perform (source : BufferAudioSource) :
    Section → Option (Option Section × BufferAudioSource × Option Event)
  | .writeTest dataPtr size =>
      if source.finished then some (some (.writeReturn false), source, none)
      else some (some (.writeStore dataPtr size), source, none)
  | .writeStore dataPtr size => do
      let (count, ringBuffer) ← source.ringBuffer.write dataPtr (UInt32.ofNat size)
      pure (some .writeAnnounce, { source with ringBuffer },
        some (.stored ((dataPtr.getD []).take count.toNat)))
  | .writeAnnounce => some (some (.writeReturn true), { source with toRead := true }, none)
  | .writeReturn accepted => some (none, source, some (.wrote accepted))
  | .readTestFinished buffer =>
      if source.finished then some (some (.readTestToRead buffer), source, none)
      else some (some (.readTake buffer), source, none)
  | .readTestToRead buffer =>
      if source.toRead then some (some (.readTake buffer), source, none)
      else some (some (.readReturn (-1) buffer), source, none)
  | .readTake buffer => do
      let (ret, buffer, ringBuffer) ← source.ringBuffer.readAll buffer
      pure (some (.readClear ret.toInt32 buffer), { source with ringBuffer }, none)
  | .readClear ret buffer =>
      some (some (.readReturn ret buffer), { source with toRead := false }, none)
  | .readReturn ret buffer => some (none, source, some (.read ret buffer))

/-- A step: a thread takes the mutex, the holder performs its next statement, or some
thread marks the end of the stream. -/
inductive Action where
  | write (dataPtr : Option Bytes) (size : Nat)
  | read (buffer : Bytes)
  | inside
  | finish
deriving DecidableEq

/-- Perform one step. -/
def move (shared : Shared) : Action → Option Shared
  | .write dataPtr size =>
      if shared.mutex = none then some { shared with mutex := some (.writeTest dataPtr size) }
      else none
  | .read buffer =>
      if shared.mutex = none then some { shared with mutex := some (.readTestFinished buffer) }
      else none
  | .inside =>
      match shared.mutex with
      | none => none
      | some next => (perform shared.source next).map fun result =>
          { source := result.2.1
            mutex := result.1
            log := shared.log ++ result.2.2.toList }
  | .finish => some { shared with source := shared.source.finish, log := shared.log ++ [.finish] }

/-- Every step is allowed. -/
def anyStep : Shared → Action → Prop := fun _ _ => True

instance (shared : Shared) (action : Action) : Decidable (anyStep shared action) :=
  inferInstanceAs (Decidable True)

/-- Everything that was stored in the ring, in order. -/
def stored : List Event → Bytes
  | [] => []
  | .stored block :: log => block ++ stored log
  | _ :: log => stored log

/-- Everything that reads returned, in order. -/
def returned : List Event → Bytes
  | [] => []
  | .read ret buffer :: log => buffer.take ret.toNatClampNeg ++ returned log
  | _ :: log => returned log

/-- What may still happen after a read has returned -1. -/
def Event.AfterEnd : Event → Prop
  | .finish => True
  | .stored _ => False
  | .wrote accepted => accepted = false
  | .read ret _ => ret = -1

/-- At each read that returned -1, the stream had been marked, everything that is ever
stored had been returned, and only refusals follow. -/
def EndsExactly (log : List Event) : Prop :=
  ∀ before buffer after, log = before ++ .read (-1) buffer :: after →
    .finish ∈ before ∧ returned before = stored log ∧ ∀ event ∈ after, event.AfterEnd

/-- The bytes that a read has taken from the ring and not yet returned. -/
def inFlight : Option Section → Bytes
  | some (.readClear ret buffer) => buffer.take ret.toNatClampNeg
  | some (.readReturn ret buffer) => buffer.take ret.toNatClampNeg
  | _ => []

/-- The positions from which nothing more is stored or taken, once the stream is
finished and nothing is announced. -/
def Section.isQuiet : Section → Bool
  | .writeTest _ _ => true
  | .writeReturn accepted => !accepted
  | .readTestFinished _ => true
  | .readTestToRead _ => true
  | .readReturn ret _ => ret = -1
  | _ => false

/-- The stream has ended for good. -/
structure Ended (shared : Shared) : Prop where
  finished : shared.source.finished = true
  silent : shared.source.toRead = false
  quiet : ∀ next, shared.mutex = some next → next.isQuiet = true

/-- What the holder of the mutex has found out and nobody else changes. -/
def Section.Knows (source : BufferAudioSource) (queue : Bytes) : Section → Prop
  | .readTestToRead _ => source.finished = true
  | .readClear ret _ => ret ≠ -1 ∧ queue = []
  | .readReturn ret _ => ret = -1 → source.finished = true ∧ source.toRead = false
  | _ => True

/-- The ring holds this queue, announced unless a write is about to do so, and nothing
is lost between the stores and the reads. -/
structure Consistent (shared : Shared) (queue : Bytes) : Prop where
  ring : shared.source.ringBuffer.Represents queue
  announced : queue ≠ [] → shared.source.toRead = true ∨ shared.mutex = some .writeAnnounce
  conserved : returned shared.log ++ inFlight shared.mutex ++ queue = stored shared.log
  marked : shared.source.finished = true → .finish ∈ shared.log
  knows : ∀ next, shared.mutex = some next → next.Knows shared.source queue
  ended : (∃ buffer, .read (-1) buffer ∈ shared.log) → Ended shared

/-- The stored bytes of a history are those of its parts. -/
theorem stored_append (first second : List Event) :
    stored (first ++ second) = stored first ++ stored second := by
  induction first with
  | nil => rfl
  | cons event first inductionHypothesis =>
    cases event <;> simp [stored, inductionHypothesis]

/-- The returned bytes of a history are those of its parts. -/
theorem returned_append (first second : List Event) :
    returned (first ++ second) = returned first ++ returned second := by
  induction first with
  | nil => rfl
  | cons event first inductionHypothesis =>
    cases event <;> simp [returned, inductionHypothesis]

/-- A new source of an admitted size is consistent. -/
theorem create_consistent (bufferSize : Nat) (positive : 1 ≤ bufferSize)
    (bounded : bufferSize ≤ 2 ^ 31) : Consistent { source := create bufferSize } [] where
  ring := (create_holds bufferSize positive bounded).ring
  announced := by simp
  conserved := rfl
  marked := by simp [create]
  knows := by simp
  ended := by simp

section Steps

variable {shared : Shared} {queue : Bytes} (consistent : Consistent shared queue)

include consistent

/-- Once the stream has ended, nothing is stored. -/
theorem ended_empty (ended : Ended shared) : queue = [] := by
  by_contra some_stored
  cases consistent.announced some_stored with
  | inl announced =>
    simp [ended.silent] at announced
  | inr announcing =>
    exact absurd (ended.quiet _ announcing) (by decide)

/-- Marking the end of the stream changes nothing that the holder of the mutex knows. -/
theorem finish_consistent :
    Consistent { shared with source := shared.source.finish, log := shared.log ++ [.finish] } queue where
  ring := consistent.ring
  announced := consistent.announced
  conserved := by
    simpa [stored_append, returned_append, stored, returned] using consistent.conserved
  marked := by simp
  knows next holding := by
    have known := consistent.knows next holding
    cases next with
    | readTestToRead buffer => rfl
    | readReturn ret buffer => exact fun ending => ⟨rfl, (known ending).2⟩
    | _ => exact known
  ended found := by
    obtain ⟨buffer, member⟩ := found
    have ended := consistent.ended ⟨buffer, by simpa using member⟩
    exact ⟨rfl, ended.silent, ended.quiet⟩

/-- A thread that takes the mutex for a write or a read knows nothing yet. -/
theorem enter_consistent (first : Section) (free : shared.mutex = none)
    (begins : (∃ dataPtr size, first = .writeTest dataPtr size) ∨
      ∃ buffer, first = .readTestFinished buffer) :
    Consistent { shared with mutex := some first } queue where
  ring := consistent.ring
  announced some_stored := by
    cases consistent.announced some_stored with
    | inl announced =>
      exact Or.inl announced
    | inr announcing =>
      simp [free] at announcing
  conserved := by
    have kept := consistent.conserved
    rw [free] at kept
    rcases begins with ⟨dataPtr, size, rfl⟩ | ⟨buffer, rfl⟩ <;> exact kept
  marked := consistent.marked
  knows next holding := by
    obtain rfl : first = next := Option.some.inj holding
    rcases begins with ⟨dataPtr, size, rfl⟩ | ⟨buffer, rfl⟩ <;> exact trivial
  ended found := by
    obtain ⟨finished, silent, -⟩ := consistent.ended found
    refine ⟨finished, silent, fun next holding => ?_⟩
    obtain rfl : first = next := Option.some.inj holding
    rcases begins with ⟨dataPtr, size, rfl⟩ | ⟨buffer, rfl⟩ <;> rfl

/-- The history has no -1 while the holder is at a position that is not quiet. -/
theorem not_ended {next : Section} (holding : shared.mutex = some next)
    (active : next.isQuiet = false) (buffer : Bytes) : .read (-1) buffer ∉ shared.log := by
  intro found
  have quiet := (consistent.ended ⟨buffer, found⟩).quiet next holding
  simp [active] at quiet

/-- A test keeps the source and the history. It leads to a quiet position whenever the
stream has ended before. -/
theorem test_consistent (next following : Section) (holding : shared.mutex = some next)
    (testing : next ≠ .writeAnnounce) (nothing : inFlight (some next) = [])
    (nothingAfter : inFlight (some following) = [])
    (known : following.Knows shared.source queue)
    (quiet : Ended shared → following.isQuiet = true) :
    Consistent { shared with mutex := some following } queue where
  ring := consistent.ring
  announced some_stored := by
    cases consistent.announced some_stored with
    | inl announced =>
      exact Or.inl announced
    | inr announcing =>
      exact absurd (Option.some.inj (holding.symm.trans announcing)) testing
  conserved := by
    have kept := consistent.conserved
    rwa [holding, nothing, ← nothingAfter] at kept
  marked := consistent.marked
  knows next' holding' := by
    obtain rfl : following = next' := Option.some.inj holding'
    exact known
  ended found := by
    have ended := consistent.ended found
    refine ⟨ended.finished, ended.silent, fun next' holding' => ?_⟩
    obtain rfl : following = next' := Option.some.inj holding'
    exact quiet ended

/-- A store lengthens the queue, and its bytes are announced next. -/
theorem store_consistent (dataPtr : Option Bytes) (size : Nat) (count : UInt32)
    (ringBuffer : RingBuffer) (holding : shared.mutex = some (.writeStore dataPtr size))
    (written : shared.source.ringBuffer.write dataPtr (UInt32.ofNat size) = some (count, ringBuffer)) :
    Consistent
      { source := { shared.source with ringBuffer }
        mutex := some .writeAnnounce
        log := shared.log ++ [.stored ((dataPtr.getD []).take count.toNat)] }
      (queue ++ (dataPtr.getD []).take count.toNat) where
  ring := RingBuffer.write_joins _ _ queue ⟨rfl, consistent.ring⟩ dataPtr _ count ringBuffer written
  announced _ := Or.inr rfl
  conserved := by
    have kept := consistent.conserved
    simp only [holding, inFlight, List.append_nil] at kept
    simp [stored_append, returned_append, stored, returned, inFlight, ← kept]
  marked finished := List.mem_append_left _ (consistent.marked finished)
  knows next holding' := by
    obtain rfl : Section.writeAnnounce = next := Option.some.inj holding'
    trivial
  ended found := by
    obtain ⟨buffer, member⟩ := found
    exact absurd (by simpa using member) (not_ended consistent holding rfl buffer)

/-- An announcement is made for whatever was stored. -/
theorem announce_consistent (holding : shared.mutex = some .writeAnnounce) :
    Consistent
      { shared with
        source := { shared.source with toRead := true }
        mutex := some (.writeReturn true) } queue where
  ring := consistent.ring
  announced _ := Or.inl rfl
  conserved := by
    have kept := consistent.conserved
    rwa [holding] at kept
  marked := consistent.marked
  knows next holding' := by
    obtain rfl : Section.writeReturn true = next := Option.some.inj holding'
    trivial
  ended found := by
    obtain ⟨buffer, member⟩ := found
    exact absurd member (not_ended consistent holding rfl buffer)

/-- A write that returns releases the mutex. -/
theorem wrote_consistent (accepted : Bool) (holding : shared.mutex = some (.writeReturn accepted)) :
    Consistent { shared with mutex := none, log := shared.log ++ [.wrote accepted] } queue where
  ring := consistent.ring
  announced some_stored := by
    cases consistent.announced some_stored with
    | inl announced =>
      exact Or.inl announced
    | inr announcing =>
      simp [holding] at announcing
  conserved := by
    have kept := consistent.conserved
    simp only [holding, inFlight, List.append_nil] at kept
    simpa [stored_append, returned_append, stored, returned, inFlight] using kept
  marked finished := List.mem_append_left _ (consistent.marked finished)
  knows := by simp
  ended found := by
    obtain ⟨buffer, member⟩ := found
    have ended := consistent.ended ⟨buffer, by simpa using member⟩
    exact ⟨ended.finished, ended.silent, by simp⟩

/-- A read that takes the queue holds it until it returns, and does not return -1. -/
theorem take_consistent (buffer : Bytes) (holding : shared.mutex = some (.readTake buffer)) :
    ∃ ret taken ringBuffer,
      shared.source.ringBuffer.readAll buffer = some (ret, taken, ringBuffer) ∧
        Consistent
          { shared with
            source := { shared.source with ringBuffer }
            mutex := some (.readClear ret.toInt32 taken) } [] := by
  obtain ⟨ret, ringBuffer, emptied, exactCount, -, represents⟩ :=
    RingBuffer.read_all_exact shared.source.ringBuffer queue consistent.ring buffer
  have ringStored := consistent.ring.stored
  have bounded := consistent.ring.bounded
  refine ⟨ret, _, ringBuffer, emptied, ?_⟩
  exact {
    ring := represents
    announced := by simp
    conserved := by
      have kept := consistent.conserved
      simp only [holding, inFlight, List.append_nil] at kept
      simp only [inFlight, List.append_nil]
      rw [← kept, signed_count ret (by omega), exactCount]
      congr 1
      split_ifs with nothing
      · simp [nothing]
      · exact List.take_length
    marked := consistent.marked
    knows := by
      intro next holding'
      obtain rfl := Option.some.inj holding'
      exact ⟨signed_count_ne ret (by omega), rfl⟩
    ended := by
      rintro ⟨buffer', member⟩
      exact absurd member (not_ended consistent holding rfl buffer') }

/-- The announcement is withdrawn once the ring is empty. -/
theorem clear_consistent (ret : Int32) (buffer : Bytes)
    (holding : shared.mutex = some (.readClear ret buffer)) :
    Consistent
      { shared with
        source := { shared.source with toRead := false }
        mutex := some (.readReturn ret buffer) } queue where
  ring := consistent.ring
  announced some_stored := absurd (consistent.knows _ holding).2 some_stored
  conserved := by
    have kept := consistent.conserved
    rwa [holding] at kept
  marked := consistent.marked
  knows next holding' := by
    obtain rfl := Option.some.inj holding'
    intro ending
    exact absurd ending (consistent.knows _ holding).1
  ended found := by
    obtain ⟨buffer', member⟩ := found
    exact absurd member (not_ended consistent holding rfl buffer')

/-- A read that returns hands over what it took. If it returns -1, the stream has ended. -/
theorem read_consistent (ret : Int32) (buffer : Bytes)
    (holding : shared.mutex = some (.readReturn ret buffer)) :
    Consistent { shared with mutex := none, log := shared.log ++ [.read ret buffer] } queue where
  ring := consistent.ring
  announced some_stored := by
    cases consistent.announced some_stored with
    | inl announced =>
      exact Or.inl announced
    | inr announcing =>
      simp [holding] at announcing
  conserved := by
    have kept := consistent.conserved
    simp only [holding, inFlight] at kept
    simpa [stored_append, returned_append, stored, returned, inFlight] using kept
  marked finished := List.mem_append_left _ (consistent.marked finished)
  knows := by simp
  ended found := by
    obtain ⟨buffer', member⟩ := found
    cases List.mem_append.mp member with
    | inl earlier =>
      have ended := consistent.ended ⟨buffer', earlier⟩
      exact ⟨ended.finished, ended.silent, by simp⟩
    | inr now =>
      obtain ⟨ending, -⟩ := Event.read.inj (List.mem_singleton.mp now)
      obtain ⟨finished, silent⟩ := consistent.knows _ holding ending.symm
      exact ⟨finished, silent, by simp⟩

/-- Every statement of a critical section keeps the source consistent. -/
theorem inside_consistent (next : Section) (holding : shared.mutex = some next)
    (following : Option Section) (source : BufferAudioSource) (event : Option Event)
    (performed : perform shared.source next = some (following, source, event)) :
    ∃ queue', Consistent
      { source, mutex := following, log := shared.log ++ event.toList } queue' := by
  have kept : (⟨shared.source, following, shared.log ++ (none : Option Event).toList⟩ : Shared) =
      { shared with mutex := following } := by simp
  cases next with
  | writeTest dataPtr size =>
    rw [perform] at performed
    split_ifs at performed with finished
    · cases performed
      rw [kept]
      exact ⟨queue, test_consistent consistent _ _ holding (by simp) rfl rfl trivial fun _ => rfl⟩
    · cases performed
      rw [kept]
      exact ⟨queue, test_consistent consistent _ _ holding (by simp) rfl rfl trivial
        fun ended => absurd ended.finished finished⟩
  | writeStore dataPtr size =>
    obtain ⟨⟨count, ringBuffer⟩, written, result⟩ := Option.bind_eq_some_iff.mp performed
    cases result
    exact ⟨_, store_consistent consistent dataPtr size count ringBuffer holding written⟩
  | writeAnnounce =>
    cases performed
    simpa using ⟨queue, announce_consistent consistent holding⟩
  | writeReturn accepted =>
    cases performed
    exact ⟨queue, wrote_consistent consistent accepted holding⟩
  | readTestFinished buffer =>
    rw [perform] at performed
    split_ifs at performed with finished
    · cases performed
      rw [kept]
      exact ⟨queue, test_consistent consistent _ _ holding (by simp) rfl rfl finished fun _ => rfl⟩
    · cases performed
      rw [kept]
      exact ⟨queue, test_consistent consistent _ _ holding (by simp) rfl rfl trivial
        fun ended => absurd ended.finished finished⟩
  | readTestToRead buffer =>
    have finished := consistent.knows _ holding
    rw [perform] at performed
    split_ifs at performed with announced
    · cases performed
      rw [kept]
      refine ⟨queue, test_consistent consistent _ _ holding (by simp) rfl rfl trivial fun ended => ?_⟩
      simp [ended.silent] at announced
    · cases performed
      rw [kept]
      exact ⟨queue, test_consistent consistent _ _ holding (by simp) rfl (by simp [inFlight])
        (fun _ => ⟨finished, by simpa using announced⟩) fun _ => rfl⟩
  | readTake buffer =>
    obtain ⟨ret, taken, ringBuffer, emptied, after⟩ := take_consistent consistent buffer holding
    rw [perform, emptied] at performed
    cases performed
    simpa using ⟨[], after⟩
  | readClear ret buffer =>
    cases performed
    simpa using ⟨queue, clear_consistent consistent ret buffer holding⟩
  | readReturn ret buffer =>
    cases performed
    exact ⟨queue, read_consistent consistent ret buffer holding⟩

end Steps

/-- Every step keeps the source consistent, with the queue that is then in the ring. -/
theorem move_consistent (before after : Shared) (action : Action) (queue : Bytes)
    (consistent : Consistent before queue) (moved : move before action = some after) :
    ∃ queue', Consistent after queue' := by
  cases action with
  | write dataPtr size =>
    rw [move] at moved
    split_ifs at moved with free
    cases moved
    exact ⟨queue, enter_consistent consistent _ free (Or.inl ⟨dataPtr, size, rfl⟩)⟩
  | read buffer =>
    rw [move] at moved
    split_ifs at moved with free
    cases moved
    exact ⟨queue, enter_consistent consistent _ free (Or.inr ⟨buffer, rfl⟩)⟩
  | inside =>
    rw [move] at moved
    split at moved
    · exact absurd moved (by simp)
    · rename_i next holding
      obtain ⟨⟨following, source, event⟩, performed, rfl⟩ := Option.map_eq_some_iff.mp moved
      exact inside_consistent consistent next holding following source event performed
  | finish =>
    cases moved
    exact ⟨queue, finish_consistent consistent⟩

/-- From a quiet position no read has anything to hand over. -/
theorem quiet_in_flight (mutex : Option Section)
    (quiet : ∀ next, mutex = some next → next.isQuiet = true) : inFlight mutex = [] := by
  cases mutex with
  | none => rfl
  | some next =>
    have isQuiet := quiet next rfl
    cases next with
    | readReturn ret buffer =>
      obtain rfl : ret = -1 := by simpa [Section.isQuiet] using isQuiet
      simp [inFlight]
    | readClear ret buffer => simp [Section.isQuiet] at isQuiet
    | _ => rfl

/-- A step records at most one event, and only a refusal once the stream has ended. -/
theorem move_log (before after : Shared) (action : Action)
    (moved : move before action = some after) :
    ∃ event : Option Event, after.log = before.log ++ event.toList ∧
      (Ended before → ∀ recorded, event = some recorded → recorded.AfterEnd) := by
  cases action with
  | write dataPtr size | read buffer =>
    rw [move] at moved
    split_ifs at moved
    cases moved
    exact ⟨none, by simp, by simp⟩
  | finish =>
    cases moved
    refine ⟨some .finish, rfl, ?_⟩
    rintro - recorded ⟨⟩
    trivial
  | inside =>
    rw [move] at moved
    split at moved
    · exact absurd moved (by simp)
    · rename_i next holding
      obtain ⟨⟨following, source, event⟩, performed, rfl⟩ := Option.map_eq_some_iff.mp moved
      refine ⟨event, rfl, ?_⟩
      rintro ended recorded rfl
      have isQuiet := ended.quiet next holding
      cases next with
      | writeReturn accepted =>
        cases performed
        simpa [Section.isQuiet, Event.AfterEnd] using isQuiet
      | readReturn ret buffer =>
        cases performed
        simpa [Section.isQuiet, Event.AfterEnd] using isQuiet
      | writeTest dataPtr size | readTestFinished buffer | readTestToRead buffer =>
        rw [perform] at performed
        split_ifs at performed <;> cases performed
      | _ => simp [Section.isQuiet] at isQuiet

/-- A history that ends exactly still does so after one more step. Either the step
returned the first -1, and the ring was empty; or the stream had ended before. -/
theorem ends_exactly_step (before after : Shared) (action : Action) (queue queue' : Bytes)
    (consistent : Consistent before queue) (consistent' : Consistent after queue')
    (moved : move before action = some after) (exact : EndsExactly before.log) :
    EndsExactly after.log := by
  obtain ⟨event, logged, refused⟩ := move_log before after action moved
  intro former buffer latter split
  cases event with
  | none =>
    rw [logged, Option.toList_none, List.append_nil] at split ⊢
    exact exact former buffer latter split
  | some recorded =>
    rw [Option.toList_some] at logged
    rcases List.eq_nil_or_concat latter with rfl | ⟨middle, last, rfl⟩
    · have ended := consistent'.ended ⟨buffer, by simp [split]⟩
      obtain ⟨rfl, now⟩ : former = before.log ∧ [.read (-1) buffer] = [recorded] :=
        List.append_inj' (split.symm.trans logged) rfl
      obtain rfl : .read (-1) buffer = recorded := (List.cons.inj now).1
      have marked := consistent'.marked ended.finished
      have conserved := consistent'.conserved
      rw [quiet_in_flight _ ended.quiet, ended_empty consistent' ended, List.append_nil,
        List.append_nil] at conserved
      refine ⟨by simpa [logged] using marked, ?_, by simp⟩
      rw [← conserved, logged, returned_append]
      simp [returned]
    · rw [List.concat_eq_append] at split ⊢
      have parts : before.log = former ++ .read (-1) buffer :: middle ∧ [recorded] = [last] :=
        List.append_inj' (by rw [← logged, split]; simp) rfl
      obtain rfl : recorded = last := (List.cons.inj parts.2).1
      obtain ⟨marked, complete, following⟩ := exact former buffer middle parts.1
      have ended := consistent.ended ⟨buffer, by simp [parts.1]⟩
      have refusal := refused ended recorded rfl
      have nothing : stored [recorded] = [] := by
        cases recorded with
        | stored block => exact absurd refusal id
        | _ => rfl
      refine ⟨marked, ?_, ?_⟩
      · rw [complete, logged, stored_append, nothing, List.append_nil]
      · intro event member
        cases List.mem_append.mp member with
        | inl earlier =>
          exact following event earlier
        | inr now =>
          rw [List.mem_singleton.mp now]
          exact refusal

/-- In every interleaving of writes, reads and `finish` on a source of a size from 1 to
2^31: a read returns -1 only behind a `finish`, when all that is ever stored has been
returned, and only refusals follow. What reads have returned, what one of them has taken
and not returned yet, and what is in the ring make up what was stored, in order. -/
theorem end_of_stream_exact (bufferSize : Nat) (positive : 1 ≤ bufferSize)
    (bounded : bufferSize ≤ 2 ^ 31) (actions : List Action) (last : Shared)
    (execution : Execution move anyStep { source := create bufferSize } actions last) :
    EndsExactly last.log ∧
      ∃ queue, last.source.ringBuffer.Represents queue ∧
        returned last.log ++ inFlight last.mutex ++ queue = stored last.log := by
  obtain ⟨⟨queue, consistent⟩, exact⟩ := execution.invariant
    (fun shared => (∃ queue, Consistent shared queue) ∧ EndsExactly shared.log)
    ⟨⟨[], create_consistent bufferSize positive bounded⟩, by simp [EndsExactly]⟩
    (by
      rintro before action after ⟨⟨queue, consistent⟩, exact⟩ - moved
      obtain ⟨queue', consistent'⟩ := move_consistent before after action queue consistent moved
      exact ⟨⟨queue', consistent'⟩,
        ends_exactly_step before after action queue queue' consistent consistent' moved exact⟩)
  exact ⟨exact, queue, consistent.ring, consistent.conserved⟩

/-- The end of the stream is marked while a write is between its test and its store. -/
def lateFinish : List Action :=
  [.write (some [1, 2, 3]) 3, .inside, .finish, .inside, .inside, .inside,
    .read [], .inside, .inside, .inside, .inside, .inside, .read [], .inside, .inside, .inside,
    .write (some [4]) 1, .inside, .inside]

/-- What that interleaving records: the late bytes are still returned before the -1. -/
theorem end_of_stream_exact_late_finish :
    EndsExactly [.finish, .stored [1, 2, 3], .wrote true, .read 3 [1, 2, 3], .read (-1) [],
      .wrote false] :=
  (end_of_stream_exact 4 (by decide) (by decide) lateFinish
    ⟨⟨⟨[1, 2, 3, 0], 4, 3, 3⟩, true, false⟩, none,
      [.finish, .stored [1, 2, 3], .wrote true, .read 3 [1, 2, 3], .read (-1) [], .wrote false]⟩
    (execution_of_run _ _ lateFinish (by decide +kernel))).1

/-- A critical section that nobody disturbs: the mutex is taken and all statements are
performed. -/
def critical (enter : Action) (statements : Nat) : List Action :=
  enter :: List.replicate statements .inside

/-- A read that is not disturbed is the read of the source as one step. -/
theorem read_undisturbed (source after : BufferAudioSource) (log : List Event) (ret : Int32)
    (buffer taken : Bytes) (read : source.read buffer = some (ret, taken, after)) :
    ∃ statements, runUnder move anyStep ⟨source, none, log⟩ (critical (.read buffer) statements) =
      some ⟨after, none, log ++ [.read ret taken]⟩ := by
  rw [BufferAudioSource.read] at read
  by_cases finished : source.finished = true
  · by_cases announced : source.toRead = true
    · refine ⟨5, ?_⟩
      simp only [finished, announced, Bool.not_true, Bool.and_false, Bool.false_eq_true,
        ↓reduceIte] at read
      obtain ⟨⟨count, block, ringBuffer⟩, emptied, result⟩ := Option.bind_eq_some_iff.mp read
      cases result
      simp [critical, List.replicate, runUnder, anyStep, move, perform, finished, announced, emptied]
    · refine ⟨3, ?_⟩
      simp only [finished, announced, Bool.not_false, Bool.and_true, ↓reduceIte] at read
      cases read
      simp [critical, List.replicate, runUnder, anyStep, move, perform, finished, announced]
  · refine ⟨4, ?_⟩
    simp only [finished, Bool.false_and, Bool.false_eq_true, ↓reduceIte] at read
    obtain ⟨⟨count, block, ringBuffer⟩, emptied, result⟩ := Option.bind_eq_some_iff.mp read
    cases result
    simp [critical, List.replicate, runUnder, anyStep, move, perform, finished, emptied]

/-- A write that is not disturbed is the write of the source as one step. -/
theorem write_undisturbed (source after : BufferAudioSource) (log : List Event) (accepted : Bool)
    (buffer : Bytes) (wrote : source.write buffer = some (accepted, after)) :
    ∃ statements log', runUnder move anyStep ⟨source, none, log⟩
        (critical (.write (some buffer) buffer.length) statements) =
      some ⟨after, none, log ++ log' ++ [.wrote accepted]⟩ := by
  rw [BufferAudioSource.write] at wrote
  by_cases finished : source.finished = true
  · simp only [finished, ↓reduceIte] at wrote
    cases wrote
    refine ⟨2, [], ?_⟩
    simp [critical, List.replicate, runUnder, anyStep, move, perform, finished]
  · simp only [finished, Bool.false_eq_true, ↓reduceIte] at wrote
    obtain ⟨⟨count, ringBuffer⟩, written, result⟩ := Option.bind_eq_some_iff.mp wrote
    cases result
    refine ⟨4, [.stored (buffer.take count.toNat)], ?_⟩
    simp [critical, List.replicate, runUnder, anyStep, move, perform, finished, written]

/-- The holder of the mutex always gets on, if the memory that a write was given is as
long as it says. -/
theorem section_proceeds (shared : Shared) (queue : Bytes) (consistent : Consistent shared queue)
    (next : Section) (holding : shared.mutex = some next)
    (readable : ∀ data size, next = .writeStore (some data) size → size ≤ data.length) :
    ∃ after, move shared .inside = some after := by
  have proceeds : ∃ result, perform shared.source next = some result := by
    cases next with
    | writeStore dataPtr size =>
      cases dataPtr with
      | none => exact ⟨_, rfl⟩
      | some data =>
        have narrowed : (UInt32.ofNat size).toNat ≤ size := by
          rw [UInt32.toNat_ofNat']
          exact Nat.mod_le _ _
        obtain ⟨count, ringBuffer, written, -⟩ := RingBuffer.write_exact shared.source.ringBuffer
          queue consistent.ring data (UInt32.ofNat size) (narrowed.trans (readable data size rfl))
        simp [perform, written]
    | readTake buffer =>
      obtain ⟨ret, taken, ringBuffer, emptied, -⟩ := take_consistent consistent buffer holding
      simp [perform, emptied]
    | writeTest dataPtr size | readTestFinished buffer | readTestToRead buffer =>
      rw [perform]
      split_ifs
      · exact ⟨_, rfl⟩
      · exact ⟨_, rfl⟩
    | _ => exact ⟨_, rfl⟩
  obtain ⟨result, performed⟩ := proceeds
  simp [move, holding, performed]

end AsrClient.BufferAudioSource
