import AsrClient.FileAudioSource
import AsrClient.Library.Transitions
import AsrClient.RecognitionResult

/-!
# The audio source that captures a microphone

A thread of its own reads blocks from the device and appends them to a queue, byte by byte and
under a mutex. A read takes bytes from the queue, under the mutex as well, until it has as many
as its size, and opens the device before if that has not been done. Closing stops the thread,
joins it and empties the queue.

The calls of `read` and `close` come one after the other, from whatever thread; `finish` may
come at any time. It sets a flag that the next read takes back: that read empties the queue,
without the mutex, and answers -1. What the capturing thread has stored since the mutex was
taken last is then not ordered before, and the program has no meaning.

A store behind such an emptying races with it as well, until the calling thread has held the
mutex again. This is not flagged: the statements have their effects in the order in which they
are performed.

The device is a library outside of the repository: it answers a call with a success or an
error, and a block is any one of the size that was asked for.
-/

namespace AsrClient

open Transitions

/-- The sample formats of the device. -/
inductive SampleFormat where
  | paInt8
  | paInt16
  | paInt24
  | paInt32
deriving DecidableEq

/-- The bytes of a sample; there is one channel. -/
def SampleFormat.size : SampleFormat → Nat
  | .paInt8 => 1
  | .paInt16 => 2
  | .paInt24 => 3
  | .paInt32 => 4

/-- The pointer to the stream. The constructor leaves it without a value. -/
inductive StreamPointer where
  | unassigned
  | null
  | assigned
deriving DecidableEq

/-- The fields of the class. -/
structure MicAudioSource where
  fmt : AudioFormat
  sampleFormat : SampleFormat
  bufferSize : Nat
  micBuffer : Bytes
  data : Bytes := []
  finished : Bool := false
  threadJoin : Bool := true
  isOpen : Bool := false
  stream : StreamPointer := .unassigned
deriving DecidableEq

namespace MicAudioSource

/-- `MIC_BUFFER_SIZE_BYTES`. -/
def micBufferSize : Nat := 1536

/-- The constructor. The buffer of the device holds what its memory held. -/
def create (fmt : AudioFormat) (bufferSize : Nat) (memory : Bytes) :
    Except RecognitionError MicAudioSource :=
  let source (sampleFormat : SampleFormat) : MicAudioSource :=
    { fmt, sampleFormat, bufferSize, micBuffer := memory }
  if fmt.bitsPerSample = 8 then .ok (source .paInt8)
  else if fmt.bitsPerSample = 16 then .ok (source .paInt16)
  else if fmt.bitsPerSample = 24 then .ok (source .paInt24)
  else if fmt.bitsPerSample = 32 then .ok (source .paInt32)
  else .error {
    code := .failure
    message := bytes "Invalid bits per sample in microphone usage " ++
      decimal fmt.bitsPerSample.toNat }

/-- The frames of a block. -/
def framesPerBuffer (fmt : AudioFormat) : Nat := micBufferSize * 8 / fmt.bitsPerSample.toNat

/-- The position of the capturing thread. -/
inductive Capture where
  | start
  | test
  | read
  | lock
  | store (left : Bytes)
  | stop
  | close
  | ended
deriving DecidableEq

/-- The position of the thread that calls `read` or `close`. -/
inductive Caller where
  | idle
  | testFinish
  | resetFinish
  | clearFinished
  | testOpen
  | paInitialize
  | countDevices
  | openStream
  | spawn
  | test (buffer : Bytes)
  | take (buffer : Bytes)
  | signal
  | testJoinable
  | join
  | waitJoin
  | testStream
  | clearClosed
deriving DecidableEq

/-- How the program can lose its meaning, or end: the queue is emptied while the other thread's
last bytes are not ordered before, a pointer is read that has no value, or an exception leaves
the capturing thread. Bytes that are stored behind an emptying are not among these. -/
inductive Fault where
  | raced
  | unassigned
  | terminated
deriving DecidableEq

/-- What the history of a source records. -/
inductive Event where
  | captured (block : Bytes)
  | stored (c : Byte)
  | cleared
  | returned (ret : Int32) (buffer : Bytes)
  | closed
  | threw (error : RecognitionError)
deriving DecidableEq

/-- The source with its threads. The flag `ahead` is set when the capturing thread has stored
bytes since the other one held the mutex. -/
structure Microphone where
  source : MicAudioSource
  caller : Caller := .idle
  capture : Option Capture := none
  ahead : Bool := false
  log : List Event := []
  fault : Option Fault := none
deriving DecidableEq

/-- The answer of the device to a call. -/
inductive Answer where
  | ok
  | error (text : Bytes)
deriving DecidableEq

/-- A step: a call begins, a thread performs its next statement, or the device answers. -/
inductive Action where
  | read
  | close
  | finish
  | caller
  | answer (answer : Answer)
  | capture
  | block (block : Bytes)
  | refuse
deriving DecidableEq

namespace Microphone

/-- The capturing thread does not hold the mutex. -/
def free (mic : Microphone) : Bool :=
  match mic.capture with
  | some (.store _) => false
  | _ => true

/-- The calling thread holds the mutex. -/
def taking (mic : Microphone) : Bool :=
  match mic.caller with
  | .take _ => true
  | _ => false

/-- An exception leaves the call. -/
def throws (mic : Microphone) (message : Bytes) : Microphone :=
  { mic with caller := .idle, log := mic.log ++ [.threw { code := .failure, message }] }

/-- The next statement of the calling thread, unless it waits. -/
def callerStep (mic : Microphone) : Option Microphone :=
  match mic.caller with
  | .testFinish =>
      some { mic with caller := if mic.source.finished then .resetFinish else .testOpen }
  | .resetFinish =>
      some { mic with source := { mic.source with finished := false }, caller := .clearFinished }
  | .clearFinished =>
      if mic.ahead then some { mic with fault := some .raced }
      else some { mic with
        source := { mic.source with data := [] }
        caller := .idle
        log := mic.log ++ [.cleared, .returned (-1) []] }
  | .testOpen => some { mic with caller := if mic.source.isOpen then .test [] else .paInitialize }
  | .spawn =>
      if mic.capture.isSome then some { mic with fault := some .terminated }
      else some { mic with
        source := { mic.source with threadJoin := false, isOpen := true }
        caller := .test []
        capture := some .start
        ahead := false }
  | .test buffer =>
      if buffer.length < mic.source.bufferSize then
        if mic.free then some { mic with caller := .take buffer, ahead := false } else none
      else some { mic with
        caller := .idle
        log := mic.log ++ [.returned (Int32.ofNat buffer.length) buffer] }
  | .take buffer =>
      match mic.source.data with
      | c :: data =>
          if buffer.length < mic.source.bufferSize then
            some { mic with
              source := { mic.source with data }
              caller := .take (buffer ++ [c]) }
          else some { mic with caller := .test buffer }
      | [] => some { mic with caller := .test buffer }
  | .signal =>
      some { mic with source := { mic.source with threadJoin := true }, caller := .testJoinable }
  | .testJoinable =>
      if mic.free then
        some { mic with caller := if mic.capture.isSome then .join else .waitJoin, ahead := false }
      else none
  | .join =>
      if mic.capture = some .ended then
        some { mic with caller := .waitJoin, capture := none, ahead := false }
      else none
  | .waitJoin =>
      if mic.free then
        some { mic with
          caller := if mic.capture.isSome then .waitJoin else .testStream
          ahead := false }
      else none
  | .testStream =>
      match mic.source.stream with
      | .unassigned => some { mic with fault := some .unassigned }
      | .null => some { mic with caller := .clearClosed }
      | .assigned => some (mic.throws (bytes "Error on closing PortAudio stream."))
  | .clearClosed =>
      some { mic with
        source := { mic.source with data := [], isOpen := false }
        caller := .idle
        log := mic.log ++ [.cleared, .closed] }
  | _ => none

/-- The device answers to one of the calls by which it is opened. -/
def answerStep (mic : Microphone) : Answer → Option Microphone
  | .ok =>
      match mic.caller with
      | .paInitialize => some { mic with caller := .countDevices }
      | .countDevices => some { mic with caller := .openStream }
      | .openStream =>
          some { mic with source := { mic.source with stream := .assigned }, caller := .spawn }
      | _ => none
  | .error text =>
      match mic.caller with
      | .paInitialize =>
          some (mic.throws (bytes "Error in microphone PortAudio initialization: " ++ text))
      | .countDevices =>
          some (mic.throws (bytes "Error in microphone PortAudio initialization: " ++
            bytes "No available input devices."))
      | .openStream => some (mic.throws (bytes "Error in opening PortAudio stream: " ++ text))
      | _ => none

/-- The next statement of the capturing thread, unless it waits. The device has answered with
success where it is asked, except for a block. -/
def captureStep (mic : Microphone) : Option Microphone :=
  match mic.capture with
  | some .start => some { mic with capture := some .test }
  | some .test =>
      some { mic with capture := some (if mic.source.threadJoin then .stop else .read) }
  | some .lock =>
      if mic.taking then none else some { mic with capture := some (.store mic.source.micBuffer) }
  | some (.store (c :: left)) =>
      some { mic with
        source := { mic.source with data := mic.source.data ++ [c] }
        capture := some (.store left)
        ahead := true
        log := mic.log ++ [.stored c] }
  | some (.store []) => some { mic with capture := some .test }
  | some .stop => some { mic with capture := some .close }
  | some .close =>
      some { mic with source := { mic.source with stream := .null }, capture := some .ended }
  | _ => none

/-- The device delivers a block. -/
def blockStep (mic : Microphone) (block : Bytes) : Option Microphone :=
  if mic.capture = some .read ∧
      block.length = framesPerBuffer mic.source.fmt * mic.source.sampleFormat.size then
    some { mic with
      source := { mic.source with micBuffer := block ++ mic.source.micBuffer.drop block.length }
      capture := some .lock
      log := mic.log ++ [.captured block] }
  else none

/-- The capturing thread waits for an answer of the device. -/
def asking (mic : Microphone) : Bool :=
  match mic.capture with
  | some .start | some .read | some .stop | some .close => true
  | _ => false

/-- Perform one step. -/
def step (mic : Microphone) (action : Action) : Option Microphone :=
  if mic.fault.isSome then none
  else match action with
    | .read => if mic.caller = .idle then some { mic with caller := .testFinish } else none
    | .close => if mic.caller = .idle then some { mic with caller := .signal } else none
    | .finish => some { mic with source := { mic.source with finished := true } }
    | .caller => mic.callerStep
    | .answer answer => mic.answerStep answer
    | .capture => mic.captureStep
    | .block block => mic.blockStep block
    | .refuse => if mic.asking then some { mic with fault := some .terminated } else none

/-- What a call or a statement can do, but for a fault: each with what it finds. -/
inductive Moves (mic : Microphone) : Microphone → Prop where
  | read (idle : mic.caller = .idle) : Moves mic { mic with caller := .testFinish }
  | close (idle : mic.caller = .idle) : Moves mic { mic with caller := .signal }
  | finished (at_ : mic.caller = .testFinish) (marked : mic.source.finished = true) :
      Moves mic { mic with caller := .resetFinish }
  | unfinished (at_ : mic.caller = .testFinish) (unmarked : mic.source.finished = false) :
      Moves mic { mic with caller := .testOpen }
  | reset (at_ : mic.caller = .resetFinish) :
      Moves mic { mic with
        source := { mic.source with finished := false }
        caller := .clearFinished }
  | clear (at_ : mic.caller = .clearFinished) (ordered : mic.ahead = false) :
      Moves mic { mic with
        source := { mic.source with data := [] }
        caller := .idle
        log := mic.log ++ [.cleared, .returned (-1) []] }
  | isOpen (at_ : mic.caller = .testOpen) (open_ : mic.source.isOpen = true) :
      Moves mic { mic with caller := .test [] }
  | notOpen (at_ : mic.caller = .testOpen) (closed : mic.source.isOpen = false) :
      Moves mic { mic with caller := .paInitialize }
  | initialized (at_ : mic.caller = .paInitialize) : Moves mic { mic with caller := .countDevices }
  | counted (at_ : mic.caller = .countDevices) : Moves mic { mic with caller := .openStream }
  | opened (at_ : mic.caller = .openStream) :
      Moves mic { mic with source := { mic.source with stream := .assigned }, caller := .spawn }
  | notOpened
      (at_ : mic.caller = .paInitialize ∨ mic.caller = .countDevices ∨ mic.caller = .openStream)
      (message : Bytes) : Moves mic (mic.throws message)
  | spawn (at_ : mic.caller = .spawn) (none : mic.capture = none) :
      Moves mic { mic with
        source := { mic.source with threadJoin := false, isOpen := true }
        caller := .test []
        capture := some .start
        ahead := false }
  | enter (buffer : Bytes) (at_ : mic.caller = .test buffer)
      (short : buffer.length < mic.source.bufferSize) (free : mic.free = true) :
      Moves mic { mic with caller := .take buffer, ahead := false }
  | answer (buffer : Bytes) (at_ : mic.caller = .test buffer)
      (full : ¬ buffer.length < mic.source.bufferSize) :
      Moves mic { mic with
        caller := .idle
        log := mic.log ++ [.returned (Int32.ofNat buffer.length) buffer] }
  | take (buffer : Bytes) (c : Byte) (data : Bytes) (at_ : mic.caller = .take buffer)
      (oldest : mic.source.data = c :: data) (short : buffer.length < mic.source.bufferSize) :
      Moves mic { mic with source := { mic.source with data }, caller := .take (buffer ++ [c]) }
  | leave (buffer : Bytes) (at_ : mic.caller = .take buffer)
      (stays : mic.source.data = [] ∨ ¬ buffer.length < mic.source.bufferSize) :
      Moves mic { mic with caller := .test buffer }
  | signal (at_ : mic.caller = .signal) :
      Moves mic { mic with
        source := { mic.source with threadJoin := true }
        caller := .testJoinable }
  | joinable (at_ : mic.caller = .testJoinable) (free : mic.free = true)
      (running : mic.capture.isSome = true) : Moves mic { mic with caller := .join, ahead := false }
  | notJoinable (at_ : mic.caller = .testJoinable) (none : mic.capture = none) :
      Moves mic { mic with caller := .waitJoin, ahead := false }
  | join (at_ : mic.caller = .join) (ended : mic.capture = some .ended) :
      Moves mic { mic with caller := .waitJoin, capture := none, ahead := false }
  | waits (at_ : mic.caller = .waitJoin) (free : mic.free = true)
      (running : mic.capture.isSome = true) : Moves mic { mic with ahead := false }
  | waited (at_ : mic.caller = .waitJoin) (none : mic.capture = none) :
      Moves mic { mic with caller := .testStream, ahead := false }
  | streamClosed (at_ : mic.caller = .testStream) (null : mic.source.stream = .null) :
      Moves mic { mic with caller := .clearClosed }
  | streamOpen (at_ : mic.caller = .testStream) (assigned : mic.source.stream = .assigned)
      (message : Bytes) : Moves mic (mic.throws message)
  | closed (at_ : mic.caller = .clearClosed) :
      Moves mic { mic with
        source := { mic.source with data := [], isOpen := false }
        caller := .idle
        log := mic.log ++ [.cleared, .closed] }
  | started (at_ : mic.capture = some .start) : Moves mic { mic with capture := some .test }
  | goesOn (at_ : mic.capture = some .test) (going : mic.source.threadJoin = false) :
      Moves mic { mic with capture := some .read }
  | ends (at_ : mic.capture = some .test) (joining : mic.source.threadJoin = true) :
      Moves mic { mic with capture := some .stop }
  | block (block : Bytes) (at_ : mic.capture = some .read)
      (size : block.length = framesPerBuffer mic.source.fmt * mic.source.sampleFormat.size) :
      Moves mic { mic with
        source := { mic.source with micBuffer := block ++ mic.source.micBuffer.drop block.length }
        capture := some .lock
        log := mic.log ++ [.captured block] }
  | lock (at_ : mic.capture = some .lock) (free : mic.taking = false) :
      Moves mic { mic with capture := some (.store mic.source.micBuffer) }
  | store (c : Byte) (left : Bytes) (at_ : mic.capture = some (.store (c :: left))) :
      Moves mic { mic with
        source := { mic.source with data := mic.source.data ++ [c] }
        capture := some (.store left)
        ahead := true
        log := mic.log ++ [.stored c] }
  | unlock (at_ : mic.capture = some (.store [])) : Moves mic { mic with capture := some .test }
  | stopped (at_ : mic.capture = some .stop) : Moves mic { mic with capture := some .close }
  | streamGone (at_ : mic.capture = some .close) :
      Moves mic { mic with source := { mic.source with stream := .null }, capture := some .ended }

/-- How a statement can end in a fault. -/
inductive Fails (mic : Microphone) : Fault → Prop where
  | raced (at_ : mic.caller = .clearFinished) (ahead : mic.ahead = true) : Fails mic .raced
  | unassigned (at_ : mic.caller = .testStream) (unassigned : mic.source.stream = .unassigned) :
      Fails mic .unassigned
  | joinable (at_ : mic.caller = .spawn) (running : mic.capture.isSome = true) :
      Fails mic .terminated

section Inversion

variable {mic after : Microphone}

/-- The outcome of a statement: a move, or a fault. -/
def Steps (mic after : Microphone) : Prop :=
  Moves mic after ∨ ∃ fault, Fails mic fault ∧ after = { mic with fault := some fault }

/-- The outcome of an action: the flag is set, the device refuses what the capturing thread asks
for, or a thread goes on. -/
inductive Performs (mic : Microphone) : Action → Microphone → Prop where
  | finish : Performs mic .finish { mic with source := { mic.source with finished := true } }
  | refuse (asking : mic.asking = true) :
      Performs mic .refuse { mic with fault := some .terminated }
  | steps (action : Action) (after : Microphone) (steps : Steps mic after) :
      Performs mic action after

/-- What a statement of the calling thread does. -/
theorem caller_steps (stepped : mic.callerStep = some after) : Steps mic after := by
  rw [callerStep] at stepped
  cases at_ : mic.caller with
  | testFinish =>
    simp only [at_] at stepped
    cases marked : mic.source.finished <;>
      simp only [marked, if_true, Bool.false_eq_true, if_false] at stepped <;>
      cases stepped
    · exact Or.inl (.unfinished at_ marked)
    · exact Or.inl (.finished at_ marked)
  | resetFinish =>
    simp only [at_] at stepped
    cases stepped
    exact Or.inl (.reset at_)
  | clearFinished =>
    simp only [at_] at stepped
    split_ifs at stepped with ahead <;> cases stepped
    · exact Or.inr ⟨.raced, .raced at_ ahead, by rw [at_]⟩
    · exact Or.inl (.clear at_ (Bool.eq_false_iff.mpr ahead))
  | testOpen =>
    simp only [at_] at stepped
    cases isOpen : mic.source.isOpen <;>
      simp only [isOpen, if_true, Bool.false_eq_true, if_false] at stepped <;>
      cases stepped
    · exact Or.inl (.notOpen at_ isOpen)
    · exact Or.inl (.isOpen at_ isOpen)
  | spawn =>
    simp only [at_] at stepped
    split_ifs at stepped with running <;> cases stepped
    · exact Or.inr ⟨.terminated, .joinable at_ running, by rw [at_]⟩
    · exact Or.inl (.spawn at_ (Option.not_isSome_iff_eq_none.mp running))
  | test buffer =>
    simp only [at_] at stepped
    split_ifs at stepped with short free <;> cases stepped
    · exact Or.inl (.enter buffer at_ short free)
    · exact Or.inl (.answer buffer at_ short)
  | take buffer =>
    simp only [at_] at stepped
    cases data : mic.source.data with
    | nil =>
      simp only [data] at stepped
      cases stepped
      exact Or.inl (.leave buffer at_ (Or.inl data))
    | cons c rest =>
      simp only [data] at stepped
      split_ifs at stepped with short <;> cases stepped
      · exact Or.inl (.take buffer c rest at_ data short)
      · exact Or.inl (.leave buffer at_ (Or.inr short))
  | signal =>
    simp only [at_] at stepped
    cases stepped
    exact Or.inl (.signal at_)
  | testJoinable =>
    simp only [at_] at stepped
    split_ifs at stepped with free running <;> cases stepped
    · exact Or.inl (.joinable at_ free running)
    · exact Or.inl (.notJoinable at_ (Option.not_isSome_iff_eq_none.mp running))
  | join =>
    simp only [at_] at stepped
    split_ifs at stepped with ended
    cases stepped
    exact Or.inl (.join at_ ended)
  | waitJoin =>
    simp only [at_] at stepped
    split_ifs at stepped with free running <;> cases stepped
    · have still :
          { mic with caller := .waitJoin, ahead := false } = { mic with ahead := false } := by
        rw [← at_]
      exact still ▸ Or.inl (.waits at_ free running)
    · exact Or.inl (.waited at_ (Option.not_isSome_iff_eq_none.mp running))
  | testStream =>
    simp only [at_] at stepped
    cases stream : mic.source.stream <;> simp only [stream] at stepped <;> cases stepped
    · exact Or.inr ⟨.unassigned, .unassigned at_ stream, by rw [at_]⟩
    · exact Or.inl (.streamClosed at_ stream)
    · exact Or.inl (.streamOpen at_ stream _)
  | clearClosed =>
    simp only [at_] at stepped
    cases stepped
    exact Or.inl (.closed at_)
  | _ => simp [at_] at stepped

/-- What an answer of the device to the calling thread does. -/
theorem answer_steps {answer : Answer} (stepped : mic.answerStep answer = some after) :
    Steps mic after := by
  cases answer with
  | ok =>
    rw [answerStep] at stepped
    cases at_ : mic.caller <;> simp only [at_] at stepped <;> cases stepped
    · exact Or.inl (.initialized at_)
    · exact Or.inl (.counted at_)
    · exact Or.inl (.opened at_)
  | error text =>
    rw [answerStep] at stepped
    cases at_ : mic.caller <;> simp only [at_] at stepped <;> cases stepped
    · exact Or.inl (.notOpened (Or.inl at_) _)
    · exact Or.inl (.notOpened (Or.inr (Or.inl at_)) _)
    · exact Or.inl (.notOpened (Or.inr (Or.inr at_)) _)

/-- What a statement of the capturing thread does. -/
theorem capture_steps (stepped : mic.captureStep = some after) : Steps mic after := by
  rw [captureStep] at stepped
  cases at_ : mic.capture with
  | none => simp [at_] at stepped
  | some position =>
    cases position with
    | start =>
      simp only [at_] at stepped
      cases stepped
      exact Or.inl (.started at_)
    | test =>
      simp only [at_] at stepped
      cases joining : mic.source.threadJoin <;>
        simp only [joining, if_true, Bool.false_eq_true, if_false] at stepped <;> cases stepped
      · exact Or.inl (.goesOn at_ joining)
      · exact Or.inl (.ends at_ joining)
    | read => simp [at_] at stepped
    | lock =>
      simp only [at_] at stepped
      split_ifs at stepped with taking
      cases stepped
      exact Or.inl (.lock at_ (Bool.eq_false_iff.mpr taking))
    | store left =>
      cases left with
      | nil =>
        simp only [at_] at stepped
        cases stepped
        exact Or.inl (.unlock at_)
      | cons c left =>
        simp only [at_] at stepped
        cases stepped
        exact Or.inl (.store c left at_)
    | stop =>
      simp only [at_] at stepped
      cases stepped
      exact Or.inl (.stopped at_)
    | close =>
      simp only [at_] at stepped
      cases stepped
      exact Or.inl (.streamGone at_)
    | ended => simp [at_] at stepped

/-- Every step is one of these, and there is none behind a fault. -/
theorem step_performs {action : Action} (stepped : mic.step action = some after) :
    mic.fault = none ∧ Performs mic action after := by
  unfold step at stepped
  by_cases faulty : mic.fault.isSome = true
  · rw [if_pos faulty] at stepped
    cases stepped
  rw [if_neg faulty] at stepped
  refine ⟨Option.not_isSome_iff_eq_none.mp faulty, ?_⟩
  cases action with
  | read =>
    simp only [Option.ite_none_right_eq_some] at stepped
    obtain ⟨idle, same⟩ := stepped
    cases same
    exact .steps _ _ (Or.inl (.read idle))
  | close =>
    simp only [Option.ite_none_right_eq_some] at stepped
    obtain ⟨idle, same⟩ := stepped
    cases same
    exact .steps _ _ (Or.inl (.close idle))
  | finish =>
    cases stepped
    exact .finish
  | caller => exact .steps _ _ (caller_steps stepped)
  | answer answer => exact .steps _ _ (answer_steps stepped)
  | capture => exact .steps _ _ (capture_steps stepped)
  | block block =>
    simp only [blockStep, Option.ite_none_right_eq_some] at stepped
    obtain ⟨⟨reading, size⟩, same⟩ := stepped
    cases same
    exact .steps _ _ (Or.inl (.block block reading size))
  | refuse =>
    simp only [Option.ite_none_right_eq_some] at stepped
    obtain ⟨asking, same⟩ := stepped
    cases same
    exact .refuse asking

end Inversion

end Microphone

end MicAudioSource

end AsrClient
