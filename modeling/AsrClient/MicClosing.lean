import AsrClient.MicAudioOrder

/-!
# Closing the microphone

A call of `close` signals the capturing thread, waits until it can join it, and then looks
whether the thread has closed the device. The places of the two threads fit together wherever
the program is: the source is open while there is a thread to join, and the device is closed
when the thread has ended. So the exception for a device that is still open is never thrown,
and from the signal on both threads have only so many statements left. Neither waits for the
other for ever: the mutex is free whenever the capturing thread asks for a block.

A source that was never opened has no value in the pointer to the device, which `close` reads.
-/

namespace AsrClient.MicAudioSource

open Transitions

/-- Where the calling thread is, with what it finds. -/
def Placed (mic : Microphone) : Caller → Prop
  | .idle | .testFinish | .resetFinish | .clearFinished | .testOpen | .signal =>
      mic.source.isOpen = mic.capture.isSome ∧
        (mic.source.isOpen = true → mic.source.threadJoin = false)
  | .paInitialize | .countDevices | .openStream =>
      mic.source.isOpen = false ∧ mic.capture = none
  | .spawn => mic.capture = none ∧ mic.source.stream = .assigned
  | .test _ | .take _ =>
      mic.source.isOpen = true ∧ mic.capture.isSome = true ∧ mic.source.threadJoin = false
  | .testJoinable =>
      mic.source.isOpen = mic.capture.isSome ∧ mic.source.threadJoin = true
  | .join => mic.capture.isSome = true ∧ mic.source.threadJoin = true
  | .waitJoin | .testStream => mic.capture = none
  | .clearClosed => mic.capture = none ∧ mic.source.stream = .null

/-- The capturing thread has been told to end. -/
def Capture.stops : Capture → Bool
  | .stop | .close | .ended => true
  | _ => false

/-- The two threads fit together. -/
structure Coupled (mic : Microphone) : Prop where
  placed : Placed mic mic.caller
  stream : ∀ position, mic.capture = some position →
    mic.source.stream = if position = .ended then .null else .assigned
  noStream : mic.capture = none → mic.source.stream = .assigned → mic.caller = .spawn
  told : ∀ position, mic.capture = some position → position.stops = true →
    mic.source.threadJoin = true
  opened : mic.source.isOpen = true → mic.source.stream ≠ .unassigned
  ordered : mic.capture = none → mic.ahead = false

section Coupling

variable {mic after : Microphone}

/-- What the calling thread finds depends on whether there is another thread, not on its place. -/
theorem Placed.same {caller : Caller} (placed : Placed mic caller)
    (isOpen : after.source.isOpen = mic.source.isOpen)
    (threadJoin : after.source.threadJoin = mic.source.threadJoin)
    (running : after.capture.isSome = mic.capture.isSome)
    (stream : mic.capture = none → after.source.stream = mic.source.stream) :
    Placed after caller := by
  have still : after.capture = none ↔ mic.capture = none := by
    rw [← Option.not_isSome_iff_eq_none, running, Option.not_isSome_iff_eq_none]
  cases caller <;> simp_all [Placed]

/-- Every move keeps the threads together. -/
theorem Coupled.moves (coupled : Coupled mic) (moves : mic.Moves after) : Coupled after := by
  obtain ⟨placed, stream, noStream, told, opened, ordered⟩ := coupled
  cases moves with
  -- The calling thread comes to another place, where it finds what it has left or tested.
  | read at_ | close at_ | finished at_ | unfinished at_ | reset at_ | clear at_ | isOpen at_
  | notOpen at_ | initialized at_ | counted at_ | opened at_ | spawn at_ | enter _ at_
  | answer _ at_ | take _ _ _ at_ | leave _ at_ | signal at_ | joinable at_ | notJoinable at_
  | join at_ | waited at_ | streamClosed at_ | streamOpen at_ | closed at_ =>
    constructor <;> simp_all [Placed, Capture.stops]
  | notOpened at_ message =>
    rcases at_ with at_ | at_ | at_ <;>
      constructor <;> simp_all [Placed, Microphone.throws]
  | waits at_ free running =>
    refine ⟨placed.same rfl rfl rfl fun _ => rfl, stream, noStream, told, opened, fun _ => rfl⟩
  -- The capturing thread moves, and is there before and behind it.
  | started at_ | goesOn at_ | ends at_ | block _ at_ | lock at_ | store _ _ at_ | unlock at_
  | stopped at_ | streamGone at_ =>
    refine ⟨placed.same rfl rfl (by simp [at_]) (by simp [at_]), ?_, by simp, ?_, ?_, by simp⟩
    all_goals simp_all [Capture.stops]

/-- Every step keeps them together. -/
theorem Coupled.step {action : Action} (coupled : Coupled mic)
    (stepped : mic.step action = some after) : Coupled after := by
  cases (Microphone.step_performs stepped).2 with
  | steps _ _ steps =>
    rcases steps with moves | ⟨fault, -, rfl⟩
    · exact coupled.moves moves
    · exact ⟨coupled.placed.same rfl rfl rfl fun _ => rfl, coupled.stream, coupled.noStream,
        coupled.told, coupled.opened, coupled.ordered⟩
  | finish | refuse =>
    exact ⟨coupled.placed.same rfl rfl rfl fun _ => rfl, coupled.stream, coupled.noStream,
      coupled.told, coupled.opened, coupled.ordered⟩

end Coupling

section Closing

/-- The threads go on, and the device delivers what it is asked for. -/
def Working (_ : Microphone) : Action → Prop
  | .caller | .capture | .block _ => True
  | _ => False

/-- The statements that are left to the calling thread, from the signal on. -/
def Caller.left : Caller → Nat
  | .testJoinable => 5
  | .join => 4
  | .waitJoin => 3
  | .testStream => 2
  | .clearClosed => 1
  | _ => 0

/-- The statements that are left to the capturing thread, once it is told to end. A block that
it waits for is stored before. -/
def Capture.left : Capture → Nat
  | .start => 4
  | .test => 3
  | .read => micBufferSize + 6
  | .lock => micBufferSize + 5
  | .store left => left.length + 4
  | .stop => 2
  | .close => 1
  | .ended => 0

/-- The statements that are left until the source is closed. -/
def cost (mic : Microphone) : Nat := mic.caller.left + (mic.capture.map Capture.left).getD 0

/-- The source is being closed. -/
structure Closing (opened : Bool) (bufferSize : Nat) (mic : Microphone) : Prop where
  coupled : Coupled mic
  inOrder : InOrder bufferSize mic
  healthy : mic.fault = none
  told : mic.source.threadJoin = true
  place : 0 < mic.caller.left
  isOpen : mic.source.isOpen = opened

/-- The source is closed: the thread and the device are gone, and nothing is in the queue. -/
structure Closed (mic : Microphone) : Prop where
  caller : mic.caller = .idle
  capture : mic.capture = none
  stream : mic.source.stream = .null
  data : mic.source.data = []
  isOpen : mic.source.isOpen = false
  last : mic.log.getLast? = some .closed
  healthy : mic.fault = none

/-- How closing can be over: the source is closed, or the pointer had no value. -/
def Over (opened : Bool) (mic : Microphone) : Prop :=
  Closed mic ∨ (mic.fault = some .unassigned ∧ opened = false)

variable {opened : Bool} {bufferSize : Nat} {mic after : Microphone}

/-- Every step of the threads has less to do behind it, or is the last. -/
theorem Closing.step {action : Action} (closing : Closing opened bufferSize mic)
    (working : Working mic action) (stepped : mic.step action = some after) :
    (Closing opened bufferSize after ∧ cost after < cost mic) ∨ Over opened after := by
  have coupled := closing.coupled.step stepped
  have inOrder := closing.inOrder.step stepped
  obtain ⟨placed, stream, noStream, -, isOpen, -⟩ := closing.coupled
  have place := closing.place
  have healthy := closing.healthy
  have going (still : after.fault = none) (told : after.source.threadJoin = true)
      (place : 0 < after.caller.left) (same : after.source.isOpen = mic.source.isOpen)
      (less : cost after < cost mic) :
      (Closing opened bufferSize after ∧ cost after < cost mic) ∨ Over opened after :=
    Or.inl ⟨⟨coupled, inOrder, still, told, place, same.trans closing.isOpen⟩, less⟩
  cases (Microphone.step_performs stepped).2 with
  | finish => exact working.elim
  | refuse => exact working.elim
  | steps _ _ steps =>
    rcases steps with moves | ⟨fault, fails, rfl⟩
    · cases moves with
      -- These statements stand in front of the signal.
      | read at_ | close at_ | finished at_ | unfinished at_ | reset at_ | clear at_ | isOpen at_
      | notOpen at_ | initialized at_ | counted at_ | opened at_ | spawn at_ | enter _ at_
      | answer _ at_ | take _ _ _ at_ | leave _ at_ | signal at_ =>
        simp [at_, Caller.left] at place
      | notOpened at_ =>
        rcases at_ with at_ | at_ | at_ <;> simp [at_, Caller.left] at place
      | joinable at_ =>
        exact going healthy closing.told (by simp [Caller.left]) rfl
          (by simp [cost, at_, Caller.left])
      | notJoinable at_ =>
        exact going healthy closing.told (by simp [Caller.left]) rfl
          (by simp [cost, at_, Caller.left])
      | join at_ ended =>
        exact going healthy closing.told (by simp [Caller.left]) rfl
          (by simp [cost, at_, ended, Caller.left, Capture.left])
      | waits at_ _ running =>
        rw [at_] at placed
        rw [show mic.capture = none from placed] at running
        cases running
      | waited at_ =>
        exact going healthy closing.told (by simp [Caller.left]) rfl
          (by simp [cost, at_, Caller.left])
      | streamClosed at_ =>
        exact going healthy closing.told (by simp [Caller.left]) rfl
          (by simp [cost, at_, Caller.left])
      | streamOpen at_ assigned =>
        rw [at_] at placed
        have elsewhere := noStream placed assigned
        rw [at_] at elsewhere
        cases elsewhere
      | closed at_ =>
        rw [at_] at placed
        exact Or.inr (Or.inl ⟨rfl, placed.1, placed.2, rfl, rfl, by simp, healthy⟩)
      -- The capturing thread stores its block, and is told to end when it looks next.
      | started at_ =>
        exact going healthy closing.told place rfl (by simp [cost, at_, Capture.left])
      | goesOn at_ untold => exact absurd (closing.told.symm.trans untold) (by decide)
      | ends at_ => exact going healthy closing.told place rfl (by simp [cost, at_, Capture.left])
      | block block at_ =>
        exact going healthy closing.told place rfl (by simp [cost, at_, Capture.left])
      | lock at_ =>
        have memory := closing.inOrder.memory
        exact going healthy closing.told place rfl (by simp [cost, at_, Capture.left, memory])
      | store c left at_ =>
        exact going healthy closing.told place rfl (by simp [cost, at_, Capture.left])
      | unlock at_ => exact going healthy closing.told place rfl (by simp [cost, at_, Capture.left])
      | stopped at_ =>
        exact going healthy closing.told place rfl (by simp [cost, at_, Capture.left])
      | streamGone at_ =>
        exact going healthy closing.told place rfl (by simp [cost, at_, Capture.left])
    · cases fails with
      | raced at_ => simp [at_, Caller.left] at place
      | unassigned at_ unassigned =>
        refine Or.inr (Or.inr ⟨rfl, ?_⟩)
        rw [← closing.isOpen]
        exact Bool.eq_false_iff.mpr fun wasOpen => isOpen wasOpen unassigned
      | joinable at_ => simp [at_, Caller.left] at place

/-- While the source is being closed, one of the threads can go on. -/
theorem Closing.progress (closing : Closing opened bufferSize mic) :
    ∃ action, Working mic action ∧ mic.step action ≠ none := by
  have place := closing.place
  have healthy := closing.healthy
  have placed := closing.coupled.placed
  have calls (next : Microphone) (stepped : mic.callerStep = some next) :
      ∃ action, Working mic action ∧ mic.step action ≠ none :=
    ⟨.caller, trivial, by simp [Microphone.step, healthy, stepped]⟩
  have captures (next : Microphone) (stepped : mic.captureStep = some next) :
      ∃ action, Working mic action ∧ mic.step action ≠ none :=
    ⟨.capture, trivial, by simp [Microphone.step, healthy, stepped]⟩
  cases at_ : mic.caller with
  | testJoinable =>
    cases free : mic.free with
    | true => exact calls _ (by rw [Microphone.callerStep, at_, free]; rfl)
    | false =>
      -- The capturing thread holds the mutex, and does not wait for anything.
      cases capture : mic.capture with
      | none => simp [Microphone.free, capture] at free
      | some position =>
        cases position with
        | store left =>
          cases left with
          | nil => exact captures _ (by rw [Microphone.captureStep, capture])
          | cons c left => exact captures _ (by rw [Microphone.captureStep, capture])
        | _ => simp [Microphone.free, capture] at free
  | join =>
    rw [at_] at placed
    obtain ⟨position, capture⟩ := Option.isSome_iff_exists.mp placed.1
    cases position with
    | ended => exact calls _ (by rw [Microphone.callerStep, at_, capture]; rfl)
    | lock =>
      have free : mic.taking = false := by rw [Microphone.taking, at_]
      exact captures _ (by rw [Microphone.captureStep, capture, free]; rfl)
    | read =>
      refine ⟨.block (List.replicate
        (framesPerBuffer mic.source.fmt * mic.source.sampleFormat.size) 0), trivial, ?_⟩
      simp [Microphone.step, healthy, Microphone.blockStep, capture]
    | store left =>
      cases left with
      | nil => exact captures _ (by rw [Microphone.captureStep, capture])
      | cons c left => exact captures _ (by rw [Microphone.captureStep, capture])
    | _ => exact captures _ (by rw [Microphone.captureStep, capture])
  | waitJoin =>
    rw [at_] at placed
    have free : mic.free = true := by
      rw [Microphone.free, show mic.capture = none from placed]
    exact calls _ (by rw [Microphone.callerStep, at_, free]; rfl)
  | testStream =>
    cases stream : mic.source.stream with
    | unassigned => exact calls _ (by rw [Microphone.callerStep, at_, stream])
    | null => exact calls _ (by rw [Microphone.callerStep, at_, stream])
    | assigned => exact calls _ (by rw [Microphone.callerStep, at_, stream])
  | clearClosed => exact calls _ (by rw [Microphone.callerStep, at_])
  | _ => simp [at_, Caller.left] at place

/-- When closing is over, no thread has a statement left. -/
theorem Over.rests {action : Action} (ended : Over opened mic) (working : Working mic action) :
    mic.step action = none := by
  rcases ended with closed | ⟨fault, -⟩
  · cases action with
    | caller => simp [Microphone.step, closed.healthy, Microphone.callerStep, closed.caller]
    | capture => simp [Microphone.step, closed.healthy, Microphone.captureStep, closed.capture]
    | block block => simp [Microphone.step, closed.healthy, Microphone.blockStep, closed.capture]
    | _ => exact working.elim
  · simp [Microphone.step, fault]

end Closing

/-- A new source has no thread and nothing to read the pointer for. -/
theorem create_coupled {fmt : AudioFormat} {bufferSize : Nat} {memory : Bytes}
    {source : MicAudioSource} (created : create fmt bufferSize memory = .ok source) :
    Coupled { source } := by
  rw [(create_whole created).2]
  exact ⟨⟨rfl, by simp⟩, by simp, by simp, by simp, by simp, fun _ => rfl⟩

/-- From the signal of a call of `close` on, wherever the capturing thread is, the two threads
have only so many statements left while the device answers. When none is left, the source is
closed, with its thread joined, its device closed and its queue empty; only for a source that
was not open the pointer to the device may have had no value. -/
theorem close_returns (fmt : AudioFormat) (bufferSize : Nat) (memory : Bytes)
    (sized : memory.length = micBufferSize) (source : MicAudioSource)
    (created : create fmt bufferSize memory = .ok source) (actions : List Action) (mic : Microphone)
    (execution : Execution Microphone.step anyAction { source } actions mic)
    (signalled : mic.caller = .testJoinable) (healthy : mic.fault = none) :
    ∃ bound, ∀ further rest, Execution Microphone.step Working mic further rest →
      further.length ≤ bound ∧
        ((∀ action, Working rest action → rest.step action = none) →
          Over mic.source.isOpen rest) := by
  have coupled := execution.invariant Coupled (create_coupled created)
    fun before action after coupled _ stepped => coupled.step stepped
  have inOrder := execution.invariant (InOrder bufferSize) (create_in_order sized created)
    fun before action after inOrder _ stepped => inOrder.step stepped
  have placed := coupled.placed
  rw [signalled] at placed
  have closing : Closing mic.source.isOpen bufferSize mic :=
    ⟨coupled, inOrder, healthy, placed.2, by simp [signalled, Caller.left], rfl⟩
  refine ⟨cost mic, fun further rest working => ?_⟩
  obtain ⟨left, lies, within⟩ := working.bounded
    (fun mic' left => (Closing mic.source.isOpen bufferSize mic' ∧ cost mic' = left) ∨
      (Over mic.source.isOpen mic' ∧ left = 0))
    (cost mic) (Or.inl ⟨closing, rfl⟩) (by
      rintro before action after left (⟨before_closing, rfl⟩ | ⟨ended, rfl⟩) works stepped
      · have pending : 0 < cost before := Nat.add_pos_left before_closing.place _
        rcases before_closing.step works stepped with ⟨still, less⟩ | ended
        · exact ⟨cost after, less, Or.inl ⟨still, rfl⟩⟩
        · exact ⟨0, pending, Or.inr ⟨ended, rfl⟩⟩
      · rw [ended.rests works] at stepped
        cases stepped)
  refine ⟨by omega, fun stuck => ?_⟩
  rcases lies with ⟨still, -⟩ | ⟨ended, -⟩
  · obtain ⟨action, works, moves⟩ := still.progress
    exact absurd (stuck action works) moves
  · exact ended

/-- A source whose reads are empty. -/
def emptyReads : MicAudioSource := { clearedSource with bufferSize := 0 }

/-- A read opens the device, and close is called while the first block is being stored. -/
def signalledWhileStoring : List Action :=
  [.read, .caller, .caller, .answer .ok, .answer .ok, .answer .ok, .caller, .caller, .capture,
    .capture, .block (List.replicate 1536 7), .capture, .capture, .close, .caller]

/-- The thread holds the mutex then, and closing returns nevertheless. -/
theorem closed_while_storing :
    ∃ mic, Execution Microphone.step anyAction { source := emptyReads } signalledWhileStoring mic ∧
      mic.free = false ∧
      ∃ bound, ∀ further rest, Execution Microphone.step Working mic further rest →
        further.length ≤ bound ∧
          ((∀ action, Working rest action → rest.step action = none) →
            Over mic.source.isOpen rest) := by
  obtain ⟨mic, execution, checked⟩ := exists_execution_of_run Microphone.step anyAction
    { source := emptyReads } signalledWhileStoring
    (fun mic => mic.caller = .testJoinable ∧ mic.fault = none ∧ mic.free = false)
    (by decide +kernel)
  obtain ⟨signalled, healthy, holds⟩ := of_decide_eq_true checked
  exact ⟨mic, execution, holds, close_returns {} 0 (List.replicate 1536 0) List.length_replicate
    emptyReads rfl signalledWhileStoring mic execution signalled healthy⟩

end AsrClient.MicAudioSource
