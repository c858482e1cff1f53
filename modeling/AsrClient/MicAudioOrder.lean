import AsrClient.MicAudioSource

/-!
# The order of captured audio

A byte of a block is on its way while the capturing thread has the block, then in the queue,
then in the buffer of a read, and at last handed over. However the statements of the threads
come, each byte goes this way once and in order, and is lost only where the queue is emptied.

What carries the proof is an equation for every part of the way: the captured bytes are the
stored ones and those on their way, and of the stored ones, those since the queue was emptied
last are the ones handed over, the ones taken by a read and the queue.
-/

namespace AsrClient.MicAudioSource

open Transitions

/-- The bytes of the blocks that the device has delivered. -/
def captured (log : List Event) : Bytes :=
  log.flatMap fun event => match event with
    | .captured block => block
    | _ => []

/-- The bytes that were stored in the queue. -/
def stored (log : List Event) : Bytes :=
  log.flatMap fun event => match event with
    | .stored c => [c]
    | _ => []

/-- The bytes that reads have handed over. -/
def returned (log : List Event) : Bytes :=
  log.flatMap fun event => match event with
    | .returned _ buffer => buffer
    | _ => []

/-- The events since the queue was emptied last. -/
def recent (log : List Event) : List Event :=
  log.foldl (fun events event => if event = .cleared then [] else events ++ [event]) []

/-- Every step is allowed. -/
def anyAction : Microphone → Action → Prop := fun _ _ => True

instance (mic : Microphone) (action : Action) : Decidable (anyAction mic action) :=
  inferInstanceAs (Decidable True)

namespace Microphone

/-- The bytes of a block that are not in the queue yet. -/
def onTheWay (mic : Microphone) : Bytes :=
  match mic.capture with
  | some .lock => mic.source.micBuffer
  | some (.store left) => left
  | _ => []

/-- The bytes that a read has taken out of the queue. -/
def taken (mic : Microphone) : Bytes :=
  match mic.caller with
  | .test buffer => buffer
  | .take buffer => buffer
  | _ => []

end Microphone

/-- What a read may answer: that the audio is finished, without a byte, or a full buffer. -/
def Answered (bufferSize : Nat) (log : List Event) : Prop :=
  ∀ ret buffer, .returned ret buffer ∈ log →
    (ret = -1 ∧ buffer = []) ∨ (ret = Int32.ofNat bufferSize ∧ buffer.length = bufferSize)

/-- No byte is lost or out of its place. -/
structure InOrder (bufferSize : Nat) (mic : Microphone) : Prop where
  size : mic.source.bufferSize = bufferSize
  whole : framesPerBuffer mic.source.fmt * mic.source.sampleFormat.size = micBufferSize
  memory : mic.source.micBuffer.length = micBufferSize
  captures : captured mic.log = stored mic.log ++ mic.onTheWay
  stores : stored (recent mic.log) = returned (recent mic.log) ++ mic.taken ++ mic.source.data
  short : mic.taken.length ≤ bufferSize
  answers : Answered bufferSize mic.log

/-- The events since the queue was emptied, behind one more. -/
theorem recent_append (log : List Event) (event : Event) :
    recent (log ++ [event]) = if event = .cleared then [] else recent log ++ [event] := by
  rw [recent, List.foldl_append]
  rfl

@[simp] theorem captured_append (first second : List Event) :
    captured (first ++ second) = captured first ++ captured second := List.flatMap_append

@[simp] theorem stored_append (first second : List Event) :
    stored (first ++ second) = stored first ++ stored second := List.flatMap_append

@[simp] theorem returned_append (first second : List Event) :
    returned (first ++ second) = returned first ++ returned second := List.flatMap_append

/-- A block fills the buffer of the device, in every format that is accepted. -/
theorem create_whole {fmt : AudioFormat} {bufferSize : Nat} {memory : Bytes}
    {source : MicAudioSource}
    (created : create fmt bufferSize memory = .ok source) :
    framesPerBuffer source.fmt * source.sampleFormat.size = micBufferSize ∧
      source = { fmt, sampleFormat := source.sampleFormat, bufferSize, micBuffer := memory } := by
  simp only [create] at created
  split_ifs at created with eight sixteen twentyFour thirtyTwo
  all_goals
    cases created
    refine ⟨?_, rfl⟩
    simp only [framesPerBuffer, micBufferSize, SampleFormat.size]
  · rw [eight]
    decide
  · rw [sixteen]
    decide
  · rw [twentyFour]
    decide
  · rw [thirtyTwo]
    decide

section Steps

variable {bufferSize : Nat} {mic after : Microphone}

/-- A step that leaves the bytes where they are keeps their order. -/
theorem InOrder.quiet (inOrder : InOrder bufferSize mic)
    (source : after.source.bufferSize = mic.source.bufferSize ∧ after.source.fmt = mic.source.fmt ∧
      after.source.sampleFormat = mic.source.sampleFormat ∧
      after.source.micBuffer = mic.source.micBuffer ∧ after.source.data = mic.source.data)
    (onTheWay : after.onTheWay = mic.onTheWay) (taken : after.taken = mic.taken)
    (log : after.log = mic.log) : InOrder bufferSize after := by
  obtain ⟨size, fmt, sampleFormat, micBuffer, data⟩ := source
  constructor
  · rw [size, inOrder.size]
  · rw [fmt, sampleFormat, inOrder.whole]
  · rw [micBuffer, inOrder.memory]
  · rw [log, onTheWay, inOrder.captures]
  · rw [log, taken, data, inOrder.stores]
  · rw [taken]
    exact inOrder.short
  · rw [log]
    exact inOrder.answers

/-- A call that throws had taken nothing. -/
theorem InOrder.throws (inOrder : InOrder bufferSize mic) (nothing : mic.taken = [])
    (message : Bytes) : InOrder bufferSize (mic.throws message) := by
  have none : (mic.throws message).taken = [] := rfl
  constructor
  · exact inOrder.size
  · exact inOrder.whole
  · exact inOrder.memory
  · have captures := inOrder.captures
    simpa [Microphone.throws, captured, stored, Microphone.onTheWay] using captures
  · have stores := inOrder.stores
    rw [nothing] at stores
    rw [none, Microphone.throws, recent_append, if_neg (by simp), stored_append, returned_append]
    simpa [stored, returned] using stores
  · simp [none]
  · intro ret buffer member
    rw [Microphone.throws, List.mem_append, List.mem_singleton] at member
    exact inOrder.answers ret buffer (member.resolve_right (by simp))

/-- Where the queue is emptied, the order starts anew. -/
theorem InOrder.clear (inOrder : InOrder bufferSize mic) (last : Event)
    (answer : last = .closed ∨ last = .returned (-1) [])
    (fields : after.source.bufferSize = mic.source.bufferSize ∧ after.source.fmt = mic.source.fmt ∧
      after.source.sampleFormat = mic.source.sampleFormat ∧
      after.source.micBuffer = mic.source.micBuffer ∧ after.source.data = [])
    (capture : after.capture = mic.capture) (caller : after.caller = .idle)
    (log : after.log = mic.log ++ [.cleared, last]) : InOrder bufferSize after := by
  obtain ⟨size, fmt, sampleFormat, micBuffer, data⟩ := fields
  have nothing : after.taken = [] := by rw [Microphone.taken, caller]
  have way : after.onTheWay = mic.onTheWay := by
    rw [Microphone.onTheWay, Microphone.onTheWay, capture, micBuffer]
  have apart : last ≠ .cleared := by rcases answer with rfl | rfl <;> simp
  have silent : captured [.cleared, last] = [] ∧ stored [.cleared, last] = [] := by
    rcases answer with rfl | rfl <;> exact ⟨rfl, rfl⟩
  have split : mic.log ++ [.cleared, last] = (mic.log ++ [.cleared]) ++ [last] := by simp
  constructor
  · rw [size, inOrder.size]
  · rw [fmt, sampleFormat, inOrder.whole]
  · rw [micBuffer, inOrder.memory]
  · rw [log, captured_append, stored_append, silent.1, silent.2, List.append_nil, List.append_nil,
      way, inOrder.captures]
  · rw [log, split, recent_append, if_neg apart, recent_append, if_pos rfl, nothing, data]
    rcases answer with rfl | rfl <;> rfl
  · simp [nothing]
  · intro ret buffer member
    rw [log, List.mem_append] at member
    rcases member with former | new
    · exact inOrder.answers ret buffer former
    · rcases answer with rfl | rfl
      · simp at new
      · simp only [List.mem_cons, reduceCtorEq, Event.returned.injEq, List.not_mem_nil, or_false,
          false_or] at new
        exact Or.inl new

/-- A read answers with what it has taken, when that is a full buffer. -/
theorem InOrder.answer (inOrder : InOrder bufferSize mic) (buffer : Bytes)
    (at_ : mic.caller = .test buffer) (full : ¬ buffer.length < mic.source.bufferSize) :
    InOrder bufferSize { mic with
      caller := .idle
      log := mic.log ++ [.returned (Int32.ofNat buffer.length) buffer] } := by
  have taken : mic.taken = buffer := by rw [Microphone.taken, at_]
  have short := inOrder.short
  rw [taken] at short
  rw [inOrder.size] at full
  refine ⟨inOrder.size, inOrder.whole, inOrder.memory, ?_, ?_, by simp [Microphone.taken], ?_⟩
  · have captures := inOrder.captures
    simpa [captured, stored, Microphone.onTheWay] using captures
  · have stores := inOrder.stores
    rw [taken] at stores
    rw [recent_append, if_neg (by simp), stored_append, returned_append, stores]
    simp [stored, returned, Microphone.taken]
  · intro ret other member
    rcases List.mem_append.mp member with former | new
    · exact inOrder.answers ret other former
    · obtain ⟨rfl, rfl⟩ : ret = Int32.ofNat buffer.length ∧ other = buffer := by simpa using new
      have length : other.length = bufferSize := by omega
      exact Or.inr ⟨by rw [length], length⟩

/-- A read takes the oldest byte of the queue. -/
theorem InOrder.take (inOrder : InOrder bufferSize mic) (buffer : Bytes) (c : Byte) (data : Bytes)
    (at_ : mic.caller = .take buffer) (oldest : mic.source.data = c :: data)
    (short : buffer.length < mic.source.bufferSize) :
    InOrder bufferSize
      { mic with source := { mic.source with data }, caller := .take (buffer ++ [c]) } := by
  have taken : mic.taken = buffer := by rw [Microphone.taken, at_]
  rw [inOrder.size] at short
  refine ⟨inOrder.size, inOrder.whole, inOrder.memory, inOrder.captures, ?_, ?_, inOrder.answers⟩
  · have stores := inOrder.stores
    rw [taken, oldest] at stores
    simp [Microphone.taken, stores]
  · simp only [Microphone.taken, List.length_append, List.length_singleton]
    omega

/-- The device delivers a block while none is on its way. -/
theorem InOrder.block (inOrder : InOrder bufferSize mic) (block : Bytes)
    (at_ : mic.capture = some .read)
    (size : block.length = framesPerBuffer mic.source.fmt * mic.source.sampleFormat.size) :
    InOrder bufferSize { mic with
      source := { mic.source with micBuffer := block ++ mic.source.micBuffer.drop block.length }
      capture := some .lock
      log := mic.log ++ [.captured block] } := by
  have length : block.length = micBufferSize := size.trans inOrder.whole
  have fills : block ++ mic.source.micBuffer.drop block.length = block := by
    rw [length, ← inOrder.memory, List.drop_length, List.append_nil]
  have none : mic.onTheWay = [] := by rw [Microphone.onTheWay, at_]
  refine ⟨inOrder.size, inOrder.whole, ?_, ?_, ?_, inOrder.short, fun ret buffer member => ?_⟩
  · rw [fills, length]
  · have captures := inOrder.captures
    rw [none] at captures
    simp only [fills, Microphone.onTheWay, captured_append, stored_append, captures]
    simp [captured, stored]
  · have stores := inOrder.stores
    rw [recent_append, if_neg (by simp), stored_append, returned_append, stores]
    simp [stored, returned, Microphone.taken]
  · rcases List.mem_append.mp member with former | new
    · exact inOrder.answers ret buffer former
    · simp at new

/-- The capturing thread stores the next byte of its block. -/
theorem InOrder.store (inOrder : InOrder bufferSize mic) (c : Byte) (left : Bytes)
    (at_ : mic.capture = some (.store (c :: left))) :
    InOrder bufferSize { mic with
      source := { mic.source with data := mic.source.data ++ [c] }
      capture := some (.store left)
      ahead := true
      log := mic.log ++ [.stored c] } := by
  have way : mic.onTheWay = c :: left := by rw [Microphone.onTheWay, at_]
  refine ⟨inOrder.size, inOrder.whole, inOrder.memory, ?_, ?_, inOrder.short,
    fun ret buffer member => ?_⟩
  · have captures := inOrder.captures
    rw [way] at captures
    simp only [Microphone.onTheWay, captured_append, stored_append, captures]
    simp [captured, stored]
  · have stores := inOrder.stores
    rw [recent_append, if_neg (by simp), stored_append, returned_append, stores]
    simp [stored, returned, Microphone.taken]
  · rcases List.mem_append.mp member with former | new
    · exact inOrder.answers ret buffer former
    · simp at new

/-- Every move keeps the bytes in order. -/
theorem InOrder.moves (inOrder : InOrder bufferSize mic) (moves : mic.Moves after) :
    InOrder bufferSize after := by
  cases moves with
  | waits => exact inOrder.quiet ⟨rfl, rfl, rfl, rfl, rfl⟩ rfl rfl rfl
  | read at_ | close at_ | finished at_ | unfinished at_ | reset at_ | isOpen at_ | notOpen at_
  | initialized at_ | counted at_ | opened at_ | signal at_ | joinable at_ | notJoinable at_
  | waited at_ | streamClosed at_ =>
    exact inOrder.quiet ⟨rfl, rfl, rfl, rfl, rfl⟩ rfl (by simp [Microphone.taken, at_]) rfl
  | enter buffer at_ | leave buffer at_ =>
    exact inOrder.quiet ⟨rfl, rfl, rfl, rfl, rfl⟩ rfl (by simp [Microphone.taken, at_]) rfl
  | started at_ | goesOn at_ | ends at_ | unlock at_ | stopped at_ | streamGone at_ | lock at_ =>
    exact inOrder.quiet ⟨rfl, rfl, rfl, rfl, rfl⟩ (by simp [Microphone.onTheWay, at_]) rfl rfl
  | spawn at_ none =>
    exact inOrder.quiet ⟨rfl, rfl, rfl, rfl, rfl⟩ (by simp [Microphone.onTheWay, none])
      (by simp [Microphone.taken, at_]) rfl
  | join at_ ended =>
    exact inOrder.quiet ⟨rfl, rfl, rfl, rfl, rfl⟩ (by simp [Microphone.onTheWay, ended])
      (by simp [Microphone.taken, at_]) rfl
  | notOpened at_ message =>
    refine inOrder.throws ?_ message
    rcases at_ with at_ | at_ | at_ <;> simp [Microphone.taken, at_]
  | streamOpen at_ _ message => exact inOrder.throws (by simp [Microphone.taken, at_]) message
  | clear at_ => exact inOrder.clear _ (Or.inr rfl) ⟨rfl, rfl, rfl, rfl, rfl⟩ rfl rfl rfl
  | closed at_ => exact inOrder.clear _ (Or.inl rfl) ⟨rfl, rfl, rfl, rfl, rfl⟩ rfl rfl rfl
  | answer buffer at_ full => exact inOrder.answer buffer at_ full
  | take buffer c data at_ oldest short => exact inOrder.take buffer c data at_ oldest short
  | block block at_ size => exact inOrder.block block at_ size
  | store c left at_ => exact inOrder.store c left at_

/-- A step keeps the bytes in order, also one that ends in a fault. -/
theorem InOrder.step {action : Action} (inOrder : InOrder bufferSize mic)
    (stepped : mic.step action = some after) : InOrder bufferSize after := by
  cases (Microphone.step_performs stepped).2 with
  | finish => exact inOrder.quiet ⟨rfl, rfl, rfl, rfl, rfl⟩ rfl rfl rfl
  | refuse => exact inOrder.quiet ⟨rfl, rfl, rfl, rfl, rfl⟩ rfl rfl rfl
  | steps _ _ steps =>
    rcases steps with moves | ⟨fault, -, rfl⟩
    · exact inOrder.moves moves
    · exact inOrder.quiet ⟨rfl, rfl, rfl, rfl, rfl⟩ rfl rfl rfl

end Steps

/-- A new source has no bytes anywhere. -/
theorem create_in_order {fmt : AudioFormat} {bufferSize : Nat} {memory : Bytes}
    {source : MicAudioSource} (sized : memory.length = micBufferSize)
    (created : create fmt bufferSize memory = .ok source) : InOrder bufferSize { source } := by
  obtain ⟨whole, same⟩ := create_whole created
  refine ⟨by rw [same], whole, by rw [same, sized], rfl, ?_, Nat.zero_le _, fun _ _ member => ?_⟩
  · rw [same]
    rfl
  · cases member

/-- However the statements of the threads come, the bytes that reads hand over, with those that
a read has taken and those in the queue, are the stored ones since the queue was emptied last,
in order; what was captured is stored or still on its way; and a read answers with a full
buffer, or with -1 and an empty one. -/
theorem audio_in_order (fmt : AudioFormat) (bufferSize : Nat) (memory : Bytes)
    (sized : memory.length = micBufferSize) (source : MicAudioSource)
    (created : create fmt bufferSize memory = .ok source) (actions : List Action) (mic : Microphone)
    (execution : Execution Microphone.step anyAction { source } actions mic) :
    captured mic.log = stored mic.log ++ mic.onTheWay ∧
      stored (recent mic.log) = returned (recent mic.log) ++ mic.taken ++ mic.source.data ∧
      Answered bufferSize mic.log := by
  have inOrder := execution.invariant (InOrder bufferSize) (create_in_order sized created)
    fun before action after inOrder _ stepped => inOrder.step stepped
  exact ⟨inOrder.captures, inOrder.stores, inOrder.answers⟩

/-- A source of the default format, in memory that was cleared. -/
def clearedSource : MicAudioSource :=
  { fmt := {}, sampleFormat := .paInt16, bufferSize := 4096, micBuffer := List.replicate 1536 0 }

/-- A read opens the device, and the first block is being stored. -/
def firstBlock : List Action :=
  [.read, .caller, .caller, .answer .ok, .answer .ok, .answer .ok, .caller, .capture, .capture,
    .block (List.replicate 1536 7), .capture, .capture, .capture, .capture]

/-- Three bytes are in the queue, and the others on their way. -/
theorem first_block_in_order :
    ∃ mic, Execution Microphone.step anyAction { source := clearedSource } firstBlock mic ∧
      mic.source.data = [7, 7, 7] ∧ captured mic.log = stored mic.log ++ mic.onTheWay ∧
      stored (recent mic.log) = returned (recent mic.log) ++ mic.taken ++ mic.source.data ∧
      Answered 4096 mic.log := by
  obtain ⟨mic, execution, data⟩ := exists_execution_of_run Microphone.step anyAction
    { source := clearedSource } firstBlock (fun mic => mic.source.data = [7, 7, 7])
    (by decide +kernel)
  exact ⟨mic, execution, of_decide_eq_true data, audio_in_order {} 4096 (List.replicate 1536 0)
    List.length_replicate clearedSource rfl firstBlock mic execution⟩

end AsrClient.MicAudioSource
