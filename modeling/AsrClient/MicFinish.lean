import AsrClient.MicClosing

/-!
# The end of captured audio

A call of `finish` makes the next read empty the queue without the mutex. Nothing tells the
capturing thread, which goes on: it may store bytes that are not ordered before, at any moment
up to the one in which the queue is emptied. So the call is harmless only when there is no such
thread, which is when the source is not open.

The flag is then taken back by the next read, which does not open the device.
-/

namespace AsrClient.MicAudioSource

open Transitions

/-- Anything but another call of `finish`. -/
def Unfinished (_ : Microphone) (action : Action) : Prop := action ≠ .finish

instance (mic : Microphone) (action : Action) : Decidable (Unfinished mic action) :=
  inferInstanceAs (Decidable (action ≠ .finish))

/-- The places of the calling thread from which a read goes on, once it has found the audio not
to be finished, or has taken the flag back. -/
def Caller.goesOn : Caller → Bool
  | .clearFinished | .testOpen | .paInitialize | .countDevices | .openStream | .spawn => true
  | .test _ | .take _ => true
  | _ => false

/-- The queue is not emptied without the mutex while there is a thread: the flag is set only
on a source that is not open, and taken back before it is opened. -/
structure Harmless (mic : Microphone) : Prop where
  coupled : Coupled mic
  marked : mic.source.finished = true → mic.source.isOpen = false ∧ mic.caller.goesOn = false
  clears : mic.caller = .resetFinish ∨ mic.caller = .clearFinished → mic.source.isOpen = false
  fault : mic.fault ≠ some .raced

section Harm

variable {mic after : Microphone}

/-- Every move keeps that, as long as the flag is not set again. -/
theorem Harmless.moves (harmless : Harmless mic) (healthy : mic.fault = none)
    (moves : mic.Moves after) : Harmless after := by
  have coupled := harmless.coupled.moves moves
  obtain ⟨-, marked, clears, -⟩ := harmless
  -- The flag is taken back on the way to the one statement, and the source is opened on the other.
  cases moves with
  | notOpened at_ =>
    rcases at_ with at_ | at_ | at_ <;>
      refine ⟨coupled, ?_, ?_, by simp [healthy, Microphone.throws]⟩ <;>
      simp_all [Caller.goesOn, Microphone.throws]
  | _ =>
    refine ⟨coupled, ?_, ?_, by simp [healthy, Microphone.throws]⟩ <;>
      simp_all [Caller.goesOn, Microphone.throws]

/-- A harmless source has no thread when its queue is emptied without the mutex. -/
theorem Harmless.ordered (harmless : Harmless mic) (at_ : mic.caller = .clearFinished) :
    mic.ahead = false := by
  have placed := harmless.coupled.placed
  rw [at_] at placed
  have none : mic.capture.isSome = false := placed.1.symm.trans (harmless.clears (Or.inr at_))
  rw [Option.isSome_eq_false_iff, Option.isNone_iff_eq_none] at none
  exact harmless.coupled.ordered none

/-- Every step keeps that, as long as the flag is not set again. -/
theorem Harmless.step {action : Action} (harmless : Harmless mic)
    (unfinished : Unfinished mic action) (stepped : mic.step action = some after) :
    Harmless after := by
  have coupled := harmless.coupled.step stepped
  obtain ⟨healthy, performs⟩ := Microphone.step_performs stepped
  cases performs with
  | finish => exact absurd rfl unfinished
  | refuse => exact ⟨coupled, harmless.marked, harmless.clears, by simp⟩
  | steps _ _ steps =>
    rcases steps with moves | ⟨fault, fails, rfl⟩
    · exact harmless.moves healthy moves
    · refine ⟨coupled, harmless.marked, harmless.clears, ?_⟩
      cases fails with
      | raced at_ ahead => exact absurd (ahead.symm.trans (harmless.ordered at_)) (by decide)
      | unassigned | joinable => simp

end Harm

section Racing

variable {mic next : Microphone}

/-- Audio is captured while no call is in progress. -/
structure Capturing (mic : Microphone) : Prop where
  healthy : mic.fault = none
  idle : mic.caller = .idle
  untold : mic.source.threadJoin = false
  whole : framesPerBuffer mic.source.fmt * mic.source.sampleFormat.size = micBufferSize
  memory : mic.source.micBuffer.length = micBufferSize

/-- The capturing thread can come to store a byte before anything else happens. -/
def StoresAhead (finished : Bool) (mic : Microphone) : Prop :=
  ∃ actions rest, Execution Microphone.step Unfinished mic actions rest ∧ rest.ahead = true ∧
    rest.caller = .idle ∧ rest.fault = none ∧ rest.source.finished = finished

/-- One step is an execution. -/
theorem execution_once {action : Action} (unfinished : action ≠ .finish)
    (stepped : mic.step action = some next) :
    Execution Microphone.step Unfinished mic [action] next :=
  .snoc [] mic next action .refl unfinished stepped

/-- It can when it can behind a step. -/
theorem StoresAhead.step {finished : Bool} {action : Action} (stores : StoresAhead finished next)
    (unfinished : action ≠ .finish) (stepped : mic.step action = some next) :
    StoresAhead finished mic := by
  obtain ⟨actions, rest, execution, stored⟩ := stores
  exact ⟨[action] ++ actions, rest, (execution_once unfinished stepped).append execution, stored⟩

/-- With a byte at hand, it stores it. -/
theorem Capturing.store (capturing : Capturing mic) (c : Byte) (left : Bytes)
    (at_ : mic.capture = some (.store (c :: left))) : StoresAhead mic.source.finished mic := by
  have stepped : mic.step .capture = some { mic with
      source := { mic.source with data := mic.source.data ++ [c] }
      capture := some (.store left)
      ahead := true
      log := mic.log ++ [.stored c] } := by
    simp [Microphone.step, capturing.healthy, Microphone.captureStep, at_]
  exact ⟨_, _, execution_once (by simp) stepped, rfl, capturing.idle, capturing.healthy, rfl⟩

/-- With a block at hand, it takes the mutex and stores the first byte. -/
theorem Capturing.lock (capturing : Capturing mic) (at_ : mic.capture = some .lock) :
    StoresAhead mic.source.finished mic := by
  have free : mic.taking = false := by rw [Microphone.taking, capturing.idle]
  cases filled : mic.source.micBuffer with
  | nil =>
    have memory := capturing.memory
    rw [filled] at memory
    exact absurd memory (by decide)
  | cons c left =>
    have holding : Capturing { mic with capture := some (.store mic.source.micBuffer) } :=
      { capturing with }
    exact (holding.store c left (by simp [filled])).step (by simp : Action.capture ≠ .finish)
      (by simp [Microphone.step, capturing.healthy, Microphone.captureStep, at_, free])

/-- Where it reads, the device can deliver a block. -/
theorem Capturing.read (capturing : Capturing mic) (at_ : mic.capture = some .read) :
    StoresAhead mic.source.finished mic := by
  have delivered : mic.step (.block (List.replicate micBufferSize 0)) = some { mic with
      source := { mic.source with
        micBuffer := List.replicate micBufferSize 0 ++ mic.source.micBuffer.drop micBufferSize }
      capture := some .lock
      log := mic.log ++ [.captured (List.replicate micBufferSize 0)] } := by
    simp [Microphone.step, capturing.healthy, Microphone.blockStep, at_, capturing.whole]
  have holding : Capturing { mic with
      source := { mic.source with
        micBuffer := List.replicate micBufferSize 0 ++ mic.source.micBuffer.drop micBufferSize }
      capture := some .lock
      log := mic.log ++ [.captured (List.replicate micBufferSize 0)] } :=
    { capturing with memory := by simp [capturing.memory] }
  exact (holding.lock rfl).step (by simp) delivered

/-- Where it has not been told to end, it goes on to read. -/
theorem Capturing.test (capturing : Capturing mic) (at_ : mic.capture = some .test) :
    StoresAhead mic.source.finished mic := by
  have reading : Capturing { mic with capture := some .read } := { capturing with }
  exact (reading.read rfl).step (by simp : Action.capture ≠ .finish)
    (by simp [Microphone.step, capturing.healthy, Microphone.captureStep, at_, capturing.untold])

/-- Wherever it is, it can come to store a byte. -/
theorem Capturing.stores_ahead (capturing : Capturing mic) (coupled : Coupled mic)
    (isOpen : mic.source.isOpen = true) : StoresAhead mic.source.finished mic := by
  have placed := coupled.placed
  rw [capturing.idle] at placed
  obtain ⟨position, at_⟩ := Option.isSome_iff_exists.mp (placed.1.symm.trans isOpen)
  have tests : Capturing { mic with capture := some .test } := { capturing with }
  have untold (stops : position.stops = true) : StoresAhead mic.source.finished mic := by
    have told := coupled.told position at_ stops
    rw [capturing.untold] at told
    cases told
  cases position with
  | start =>
    exact (tests.test rfl).step (by simp : Action.capture ≠ .finish)
      (by simp [Microphone.step, capturing.healthy, Microphone.captureStep, at_])
  | test => exact capturing.test at_
  | read => exact capturing.read at_
  | lock => exact capturing.lock at_
  | store left =>
    cases left with
    | nil =>
      exact (tests.test rfl).step (by simp : Action.capture ≠ .finish)
        (by simp [Microphone.step, capturing.healthy, Microphone.captureStep, at_])
    | cons c left => exact capturing.store c left at_
  | stop | close | ended => exact untold rfl

/-- Between two calls, a call of `finish` can lead to a race exactly when the source is open:
the queue is then emptied by the next read, while bytes may have been stored that are not
ordered before. -/
theorem finish_races_iff (fmt : AudioFormat) (bufferSize : Nat) (memory : Bytes)
    (sized : memory.length = micBufferSize) (source : MicAudioSource)
    (created : create fmt bufferSize memory = .ok source) (actions : List Action)
    (before mic : Microphone)
    (execution : Execution Microphone.step anyAction { source } actions before)
    (idle : before.caller = .idle) (finished : before.step .finish = some mic) :
    (∃ further rest, Execution Microphone.step Unfinished mic further rest ∧
        rest.fault = some .raced) ↔ mic.source.isOpen = true := by
  have reached : Execution Microphone.step anyAction { source } (actions ++ [.finish]) mic :=
    .snoc actions before mic .finish execution trivial finished
  have coupled := reached.invariant Coupled (create_coupled created)
    fun before action after coupled _ stepped => coupled.step stepped
  have inOrder := reached.invariant (InOrder bufferSize) (create_in_order sized created)
    fun before action after inOrder _ stepped => inOrder.step stepped
  obtain ⟨healthy, same⟩ : before.fault = none ∧
      mic = { before with source := { before.source with finished := true } } := by
    obtain ⟨healthy, -⟩ := Microphone.step_performs finished
    unfold Microphone.step at finished
    rw [if_neg (by simp [healthy])] at finished
    exact ⟨healthy, (Option.some.inj finished).symm⟩
  have still : mic.caller = .idle ∧ mic.fault = none ∧ mic.source.finished = true := by
    rw [same]
    exact ⟨idle, healthy, rfl⟩
  constructor
  · rintro ⟨further, rest, unfinished, raced⟩
    by_contra closed
    have harmless : Harmless mic := by
      refine ⟨coupled, fun _ => ⟨Bool.eq_false_iff.mpr closed, ?_⟩, ?_, ?_⟩
      · rw [still.1]
        rfl
      · simp [still.1]
      · simp [still.2.1]
    have safe := unfinished.invariant Harmless harmless
      fun before action after harmless allowed stepped => harmless.step allowed stepped
    exact safe.fault raced
  · intro isOpen
    have placed := coupled.placed
    rw [still.1] at placed
    have capturing : Capturing mic :=
      ⟨still.2.1, still.1, placed.2 isOpen, inOrder.whole, inOrder.memory⟩
    obtain ⟨further, rest, stores, ahead, restIdle, restHealthy, marked⟩ :=
      capturing.stores_ahead coupled isOpen
    -- The next read finds the flag, takes it back and empties the queue.
    rw [still.2.2] at marked
    have clears : Execution Microphone.step Unfinished rest [.read, .caller, .caller, .caller]
        { rest with
          source := { rest.source with finished := false }
          caller := .clearFinished
          fault := some .raced } :=
      execution_of_run _ _ _ (by
        simp [runUnder, Unfinished, Microphone.step, restHealthy, restIdle, Microphone.callerStep,
          marked, ahead])
    exact ⟨_, _, stores.append clears, rfl⟩

/-- A read that opens the device and returns. -/
def openedByRead : List Action :=
  [.read, .caller, .caller, .answer .ok, .answer .ok, .answer .ok, .caller, .caller]

/-- A call of `finish` behind it can lead to a race. -/
theorem opened_source_races :
    ∃ before mic, Execution Microphone.step anyAction { source := emptyReads } openedByRead before ∧
      before.step .finish = some mic ∧
      ∃ further rest, Execution Microphone.step Unfinished mic further rest ∧
        rest.fault = some .raced := by
  obtain ⟨before, execution, checked⟩ := exists_execution_of_run Microphone.step anyAction
    { source := emptyReads } openedByRead
    (fun mic => mic.caller = .idle ∧ mic.fault = none ∧ mic.source.isOpen = true)
    (by decide +kernel)
  obtain ⟨idle, healthy, isOpen⟩ := of_decide_eq_true checked
  have finished : before.step .finish =
      some { before with source := { before.source with finished := true } } := by
    unfold Microphone.step
    rw [if_neg (by simp [healthy])]
  exact ⟨before, _, execution, finished, (finish_races_iff {} 0 (List.replicate 1536 0)
    List.length_replicate emptyReads rfl openedByRead before _ execution idle finished).mpr isOpen⟩

end Racing

end AsrClient.MicAudioSource
