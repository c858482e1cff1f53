import AsrClient.EndOfStream
import AsrClient.FileAudioSource
import AsrClient.Recognizer.AudioFraming

/-!
# The audio on its way to the server

The application stores audio in a source while the audio sender of a recognizer reads from it.
Here the two run together: the statements of the source and the steps of the recognizer
interleave, and a read of the sender returns what the read of the source returns. Every
recognition reads the same source.

What is recorded is what the iterations of all senders have observed; the requests that they
have passed on are in the log. Audio is stored, taken by a read, held by the sender and passed
on, and it is lost where an iteration finds the terminate flag set behind its read, or where the
library fails to send a request, and nowhere else.
-/

namespace AsrClient

open Transitions AudioFraming

namespace BufferAudioSource

/-- What the reads of a history returned, in order. -/
def reads : List Event → List (Int × Bytes)
  | [] => []
  | .read ret buffer :: log => (ret.toInt, buffer) :: reads log
  | _ :: log => reads log

/-- The reads of a history are those of its parts. -/
theorem reads_append (first second : List Event) :
    reads (first ++ second) = reads first ++ reads second := by
  induction first with
  | nil => rfl
  | cons event first inductionHypothesis =>
    cases event <;> simp [reads, inductionHypothesis]

/-- A read of a history is found in it. -/
theorem mem_reads {log : List Event} {read : Int × Bytes} (member : read ∈ reads log) :
    ∃ ret : Int32, ret.toInt = read.1 ∧ .read ret read.2 ∈ log := by
  induction log with
  | nil => exact absurd member List.not_mem_nil
  | cons event log inductionHypothesis =>
    have later (member : read ∈ reads log) :
        ∃ ret : Int32, ret.toInt = read.1 ∧ .read ret read.2 ∈ event :: log := by
      obtain ⟨ret, same, found⟩ := inductionHypothesis member
      exact ⟨ret, same, List.mem_cons_of_mem _ found⟩
    cases event with
    | read ret buffer =>
      cases List.mem_cons.mp member with
      | inl isFirst =>
        subst isFirst
        exact ⟨ret, rfl, List.mem_cons_self⟩
      | inr member => exact later member
    | _ => exact later member

/-- A history is cut where its reads are. -/
theorem reads_split {log : List Event} {first second : List (Int × Bytes)} {read : Int × Bytes}
    (split : reads log = first ++ read :: second) :
    ∃ (ret : Int32) (before after : List Event), ret.toInt = read.1 ∧
      log = before ++ .read ret read.2 :: after ∧ reads before = first ∧ reads after = second := by
  induction log generalizing first with
  | nil => exact absurd split (by simp [reads])
  | cons event log inductionHypothesis =>
    have later (first : List (Int × Bytes)) (split : reads log = first ++ read :: second) :
        ∃ (ret : Int32) (before after : List Event), ret.toInt = read.1 ∧
          event :: log = event :: before ++ .read ret read.2 :: after ∧ reads before = first ∧
          reads after = second := by
      obtain ⟨ret, before, after, same, rfl, others⟩ := inductionHypothesis split
      exact ⟨ret, before, after, same, rfl, others⟩
    cases event with
    | read ret buffer =>
      cases first with
      | nil =>
        obtain ⟨rfl, rest⟩ := List.cons.inj split
        exact ⟨ret, [], log, rfl, rfl, rfl, rest⟩
      | cons other first =>
        obtain ⟨rfl, rest⟩ := List.cons.inj split
        obtain ⟨ret', before, after, same, whole, former, latter⟩ := later first rest
        exact ⟨ret', _, after, same, whole, by rw [reads, former], latter⟩
    | _ =>
      obtain ⟨ret, before, after, same, whole, former, latter⟩ := later first split
      exact ⟨ret, _, after, same, whole, former, latter⟩

/-- A read into an empty buffer is about to return nothing but what it has taken. -/
def Section.Whole : Section → Prop
  | .readTestFinished buffer => buffer = []
  | .readTestToRead buffer => buffer = []
  | .readTake buffer => buffer = []
  | .readClear ret buffer => buffer.take ret.toNatClampNeg = buffer
  | .readReturn ret buffer => buffer.take ret.toNatClampNeg = buffer
  | _ => True

/-- Every read so far was into an empty buffer. -/
structure WholeReads (shared : Shared) : Prop where
  inside : ∀ next, shared.mutex = some next → next.Whole
  returned : ∀ ret buffer, .read ret buffer ∈ shared.log → buffer.take ret.toNatClampNeg = buffer

/-- The bytes that reads into empty buffers returned are those in the buffers. -/
theorem returned_reads (log : List Event)
    (whole : ∀ ret buffer, .read ret buffer ∈ log → buffer.take ret.toNatClampNeg = buffer) :
    returned log = (reads log).flatMap (·.2) := by
  induction log with
  | nil => rfl
  | cons event log inductionHypothesis =>
    have later := inductionHypothesis fun ret buffer member =>
      whole ret buffer (List.mem_cons_of_mem _ member)
    cases event with
    | read ret buffer =>
      rw [returned, reads, List.flatMap_cons, whole ret buffer List.mem_cons_self, later]
    | _ => exact later

/-- A read that returned -1 left its buffer empty. -/
theorem WholeReads.ending {shared : Shared} (whole : WholeReads shared) {buffer : Bytes}
    (ended : .read (-1) buffer ∈ shared.log) : buffer = [] :=
  (whole.returned (-1) buffer ended).symm.trans (List.take_zero)

/-- The statements of a critical section keep to the buffer of the read. -/
theorem perform_whole {source after : BufferAudioSource} {next : Section} {queue : Bytes}
    {following : Option Section} {event : Option Event}
    (represents : source.ringBuffer.Represents queue) (whole : next.Whole)
    (performed : perform source next = some (following, after, event)) :
    (∀ section', following = some section' → section'.Whole) ∧
      ∀ ret buffer, event = some (.read ret buffer) → buffer.take ret.toNatClampNeg = buffer := by
  cases next with
  | writeTest dataPtr size =>
    rw [perform] at performed
    split_ifs at performed <;> cases performed <;> simp [Section.Whole]
  | writeStore dataPtr size =>
    obtain ⟨⟨count, ringBuffer⟩, written, result⟩ := Option.bind_eq_some_iff.mp performed
    cases result
    simp [Section.Whole]
  | readTestFinished buffer | readTestToRead buffer =>
    rw [perform] at performed
    split_ifs at performed <;> cases performed <;>
      simp only [Section.Whole] at whole <;> simp [Section.Whole, whole]
  | readTake buffer =>
    obtain rfl : buffer = [] := whole
    obtain ⟨ret, ringBuffer, emptied, exactCount, -, -⟩ :=
      RingBuffer.read_all_exact source.ringBuffer queue represents []
    have ringStored := represents.stored
    have bounded := represents.bounded
    rw [perform, emptied] at performed
    cases performed
    simp only [Option.some.injEq, forall_eq', Section.Whole, reduceCtorEq, false_implies,
      implies_true, and_true]
    rw [signed_count ret (by omega), exactCount]
    split_ifs with nothing
    · exact List.take_nil
    · exact List.take_length
  | writeAnnounce | writeReturn accepted =>
    cases performed
    simp [Section.Whole]
  | readClear ret buffer | readReturn ret buffer =>
    cases performed
    simpa [Section.Whole] using whole

/-- Every step keeps the reads whole, where those that begin are into empty buffers. -/
theorem move_whole {before after : Shared} {action : Action} {queue : Bytes}
    (whole : WholeReads before) (consistent : Consistent before queue)
    (fresh : ∀ buffer, action = .read buffer → buffer = [])
    (moved : move before action = some after) : WholeReads after := by
  cases action with
  | write dataPtr size =>
    rw [move] at moved
    split_ifs at moved
    cases moved
    exact ⟨by simp [Section.Whole], whole.returned⟩
  | read buffer =>
    rw [move] at moved
    split_ifs at moved
    cases moved
    exact ⟨by simp [Section.Whole, fresh buffer rfl], whole.returned⟩
  | finish =>
    cases moved
    exact ⟨whole.inside, by simpa using whole.returned⟩
  | inside =>
    rw [move] at moved
    split at moved
    · exact absurd moved (by simp)
    · rename_i next holding
      obtain ⟨⟨following, source, event⟩, performed, rfl⟩ := Option.map_eq_some_iff.mp moved
      obtain ⟨inside, recorded⟩ :=
        perform_whole consistent.ring (whole.inside next holding) performed
      refine ⟨inside, fun ret buffer member => ?_⟩
      cases List.mem_append.mp member with
      | inl earlier => exact whole.returned ret buffer earlier
      | inr now => exact recorded ret buffer (Option.mem_toList.mp now)

end BufferAudioSource

/-- A recognizer with the source that it reads, and the record. -/
structure Streaming where
  system : System
  shared : BufferAudioSource.Shared
  readings : List Reading := []

namespace Streaming

/-- One step: of the recognizer, or of a thread that uses the source. -/
inductive Action where
  | recognizer (label : Label)
  | source (action : BufferAudioSource.Action)

/-- What the next statement of the sender adds to the record: the test of the flag completes
what an iteration observes. -/
def observed (system : System) : List Reading :=
  match system.impl.sendAudioMessageThread with
  | some (.test ret buffer) => [⟨ret, buffer, system.impl.sendAudioMessageTerminate⟩]
  | _ => []

/-- One step of the recognizer, recorded. -/
def recognize (parse : Bytes → Json) (streaming : Streaming) (label : Label) : Option Streaming :=
  (AsrClient.step parse streaming.system label).map fun system =>
    match label with
    | .sender _ =>
        { streaming with system, readings := streaming.readings ++ observed streaming.system }
    | _ => { streaming with system }

/-- Perform one step. The sender begins a read where its loop does, with a buffer of its own,
and goes on with what the read returns when it does. Other reads do not take place. -/
def step (parse : Bytes → Json) (streaming : Streaming) : Action → Option Streaming
  | .recognizer (.read _ _) => none
  | .recognizer label => streaming.recognize parse label
  | .source (.read buffer) =>
      if streaming.system.impl.sendAudioMessageThread = some .read ∧ buffer = [] then
        (BufferAudioSource.move streaming.shared (.read buffer)).map
          ({ streaming with shared := · })
      else none
  | .source .inside =>
      match BufferAudioSource.move streaming.shared .inside with
      | none => none
      | some shared =>
          match shared.log.drop streaming.shared.log.length with
          | [.read ret buffer] =>
              ({ streaming with shared } : Streaming).recognize parse (.read ret.toInt buffer)
          | _ => some { streaming with shared }
  | .source action =>
      (BufferAudioSource.move streaming.shared action).map ({ streaming with shared := · })

/-- What a sender has been returned and has not tested the flag behind. -/
def held : Option Sender → List (Int × Bytes)
  | some (.test ret buffer) => [(ret, buffer)]
  | _ => []

/-- The iteration of a sender whose request is not passed on yet. -/
def outgoing : Option Sender → List Reading
  | some (.wantLock ret buffer) => [⟨ret, buffer, false⟩]
  | some (.logging ret buffer) => [⟨ret, buffer, false⟩]
  | some (.sending ret buffer) => [⟨ret, buffer, false⟩]
  | _ => []

/-- The request for what an iteration has read. -/
def request (reading : Reading) : ASRMessageRequest :=
  ASRSendMessage.sendAudio reading.ret reading.chunk

/-- An iteration leads to a request, unless it finds the flag set or has read nothing and is
not the last. -/
def passes (reading : Reading) : Bool :=
  !reading.terminated && !(decide (reading.chunk = []) && decide (reading.ret ≠ -1))

/-- The record accounts for every read of the source, and for every request in the log. -/
structure Accounted (streaming : Streaming) : Prop where
  reads : BufferAudioSource.reads streaming.shared.log =
    streaming.readings.map (fun reading => (reading.ret, reading.chunk)) ++
      held streaming.system.impl.sendAudioMessageThread
  requests : (streaming.readings.filter passes).map request =
    attempted streaming.system.log ++
      (outgoing streaming.system.impl.sendAudioMessageThread).map request

/-- The kinds of steps: one of the recognizer that is no read, one of the source that returns
no read, and one that returns a read to the sender. -/
inductive Moves (parse : Bytes → Json) (streaming : Streaming) : Streaming → Prop where
  | recognizer (label : Label) (after : Streaming) (other : ∀ ret chunk, label ≠ .read ret chunk)
      (recognized : streaming.recognize parse label = some after) : Moves parse streaming after
  | source (action : BufferAudioSource.Action) (shared : BufferAudioSource.Shared)
      (fresh : ∀ buffer, action = .read buffer → buffer = [])
      (moved : BufferAudioSource.move streaming.shared action = some shared)
      (silent : BufferAudioSource.reads shared.log = BufferAudioSource.reads streaming.shared.log) :
      Moves parse streaming { streaming with shared }
  | returned (shared : BufferAudioSource.Shared) (ret : Int32) (buffer : Bytes) (after : Streaming)
      (moved : BufferAudioSource.move streaming.shared .inside = some shared)
      (recorded : BufferAudioSource.reads shared.log =
        BufferAudioSource.reads streaming.shared.log ++ [(ret.toInt, buffer)])
      (recognized : ({ streaming with shared } : Streaming).recognize parse
        (.read ret.toInt buffer) = some after) : Moves parse streaming after

/-- Every step is of one of these kinds. -/
theorem step_moves {parse : Bytes → Json} {before after : Streaming} {action : Action}
    (moved : step parse before action = some after) : Moves parse before after := by
  cases action with
  | recognizer label =>
    cases label with
    | read ret chunk => exact absurd moved (by simp [step])
    | _ => exact .recognizer _ after (by simp) moved
  | source action =>
    cases action with
    | read buffer =>
      rw [step] at moved
      split_ifs at moved with begins
      obtain ⟨shared, performed, rfl⟩ := Option.map_eq_some_iff.mp moved
      refine .source _ shared (by simpa using begins.2) performed ?_
      rw [BufferAudioSource.move] at performed
      split_ifs at performed
      cases performed
      rfl
    | write dataPtr size =>
      obtain ⟨shared, performed, rfl⟩ := Option.map_eq_some_iff.mp moved
      refine .source _ shared (by simp) performed ?_
      rw [BufferAudioSource.move] at performed
      split_ifs at performed
      cases performed
      rfl
    | finish =>
      cases moved
      refine .source .finish _ (by simp) rfl ?_
      simp [BufferAudioSource.reads_append, BufferAudioSource.reads]
    | inside =>
      rw [step] at moved
      split at moved
      · cases moved
      · rename_i shared performed
        obtain ⟨event, logged, -⟩ := BufferAudioSource.move_log _ _ _ performed
        have recorded : BufferAudioSource.reads shared.log =
            BufferAudioSource.reads before.shared.log ++ BufferAudioSource.reads event.toList := by
          rw [logged, BufferAudioSource.reads_append]
        rw [logged, List.drop_left] at moved
        split at moved
        · rename_i ret buffer returns
          rw [returns] at recorded
          exact .returned shared ret buffer after performed recorded moved
        · rename_i quiet
          cases moved
          refine .source .inside shared (by simp) performed ?_
          rw [recorded]
          cases event with
          | none => simp [BufferAudioSource.reads]
          | some event =>
            cases event with
            | read ret buffer => exact absurd rfl (quiet ret buffer)
            | _ => simp [BufferAudioSource.reads]

section Steps

variable {system next : System}

/-- The application thread takes a sender from its object only when it has ended. -/
theorem app_carried {outcome : Outcome} {stmt : AppStmt}
    (performed : execApp outcome system stmt = some next) :
    held next.impl.sendAudioMessageThread = held system.impl.sendAudioMessageThread ∧
      outgoing next.impl.sendAudioMessageThread =
        outgoing system.impl.sendAudioMessageThread := by
  cases stmt with
  | join =>
    simp only [execApp] at performed
    split_ifs at performed with ended
    cases performed
    rw [ended]
    exact ⟨rfl, rfl⟩
  | freshImpl =>
    simp only [execApp] at performed
    split_ifs at performed with present
    · cases performed
      exact ⟨rfl, rfl⟩
    · cases performed
      have empty : system.impl.sendAudioMessageThread = none := by
        simp only [Bool.or_eq_true, not_or] at present
        simpa using present.1
      rw [empty]
      exact ⟨rfl, rfl⟩
  | _ =>
    simp only [execApp, Option.some.injEq] at performed
    (repeat' split at performed) <;> cases performed <;> exact ⟨rfl, rfl⟩

/-- The websocket thread puts a sender only into an empty object. -/
theorem ws_carried (outcome : Outcome) (system : System) (stmt : WsStmt) :
    held (execWs outcome system stmt).impl.sendAudioMessageThread =
        held system.impl.sendAudioMessageThread ∧
      outgoing (execWs outcome system stmt).impl.sendAudioMessageThread =
        outgoing system.impl.sendAudioMessageThread := by
  cases stmt with
  | startSender =>
    simp only [execWs]
    split_ifs with silent present
    · exact ⟨rfl, rfl⟩
    · exact ⟨rfl, rfl⟩
    · rw [Option.not_isSome_iff_eq_none.mp present]
      exact ⟨rfl, rfl⟩
  | _ =>
    simp only [execWs]
    (repeat' split) <;> exact ⟨rfl, rfl⟩

/-- A statement of the sender hands what it has on: to the iterations, behind the test of the
flag, and to the requests. -/
theorem sender_carried {outcome : Outcome} (performed : execSender outcome system = some next) :
    (observed system).map (fun reading => (reading.ret, reading.chunk)) ++
        held next.impl.sendAudioMessageThread = held system.impl.sendAudioMessageThread ∧
      attempted system.log ++ (outgoing system.impl.sendAudioMessageThread).map request ++
          ((observed system).filter passes).map request =
        attempted next.log ++ (outgoing next.impl.sendAudioMessageThread).map request := by
  rw [execSender] at performed
  split at performed
  · rename_i ret buffer position
    simp only [observed, position]
    split_ifs at performed with terminated skipped <;> cases performed
    · simp [System.senderAt, System.withImpl, held, outgoing, passes, terminated]
    · simp [System.senderAt, System.withImpl, held, outgoing, passes, terminated, skipped]
    · rw [Bool.not_eq_true] at terminated
      have carries : passes ⟨ret, buffer, false⟩ = true := by
        simpa [passes, ← imp_iff_not_or] using skipped
      simp [System.senderAt, System.withImpl, held, outgoing, terminated, request, carries]
  · rename_i ret buffer position
    split_ifs at performed
    cases performed
    simp [observed, position, System.senderAt, System.withImpl, held, outgoing]
  · rename_i ret buffer position
    cases performed
    simp [observed, position, System.senderAt, System.withImpl, held, outgoing]
  · rename_i ret buffer position
    cases performed
    have passed : attempted (system.send .sender (ASRSendMessage.sendAudio ret buffer)
        (outcome = .ok)).log = attempted system.log ++ [ASRSendMessage.sendAudio ret buffer] := by
      cases outcome with
      | ok => exact attempted_cons _ _
      | fails | throws => exact attempted_cons _ _
    simp only [System.senderAt, System.withImpl]
    rw [passed]
    by_cases last : ret = -1
    · simp [observed, position, held, outgoing, last, request]
    · simp [observed, position, held, outgoing, last, request]
  · cases performed
  · cases performed
  · cases performed

end Steps

section Runs

variable {parse : Bytes → Json} {before after : Streaming}

/-- A step of the recognizer that is no read keeps the account. -/
theorem recognize_accounted {label : Label} (other : ∀ ret chunk, label ≠ .read ret chunk)
    (accounted : Accounted before) (recognized : before.recognize parse label = some after) :
    Accounted after := by
  obtain ⟨system, stepped, rfl⟩ := Option.map_eq_some_iff.mp recognized
  obtain ⟨-, moves⟩ := AsrClient.step_moves parse before.system system label stepped
  have keeps (same : held system.impl.sendAudioMessageThread =
        held before.system.impl.sendAudioMessageThread ∧
      outgoing system.impl.sendAudioMessageThread =
        outgoing before.system.impl.sendAudioMessageThread)
      (silent : NoAudio before.system.log system.log) : Accounted { before with system } := by
    refine ⟨by simpa only [same.1] using accounted.reads, ?_⟩
    simpa only [same.2, silent.attempted] using accounted.requests
  cases moves with
  | app outcome stmt rest _ next performed =>
    exact keeps (app_carried performed :) (app_no_audio performed).1
  | ws outcome stmt rest next =>
    exact keeps (ws_carried outcome { before.system with ws := rest } stmt) (ws_no_audio ..)
  | read ret chunk _ performed => exact absurd rfl (other ret chunk)
  | sender outcome _ performed =>
    obtain ⟨read, sent⟩ := sender_carried performed
    constructor
    · show BufferAudioSource.reads before.shared.log = _
      rw [List.map_append, List.append_assoc, read, accounted.reads]
    · simp only [List.filter_append, List.map_append]
      rw [accounted.requests, sent]
  | event _ _ connection _ _ => cases connection <;> exact keeps ⟨rfl, rfl⟩ (Or.inl rfl)
  | call | gaveUp | received => exact keeps ⟨rfl, rfl⟩ (Or.inr ⟨_, rfl, rfl⟩)
  | expired | rejected => exact keeps ⟨rfl, rfl⟩ (Or.inl rfl)

/-- A read that returns is held by the sender, unless the process is lost. -/
theorem returned_accounted {shared : BufferAudioSource.Shared} {ret : Int32} {buffer : Bytes}
    (accounted : Accounted before)
    (recorded : BufferAudioSource.reads shared.log =
      BufferAudioSource.reads before.shared.log ++ [(ret.toInt, buffer)])
    (recognized : ({ before with shared } : Streaming).recognize parse (.read ret.toInt buffer) =
      some after)
    (running : after.system.crashed = none) : Accounted after := by
  obtain ⟨system, stepped, rfl⟩ := Option.map_eq_some_iff.mp recognized
  obtain ⟨-, moves⟩ := AsrClient.step_moves parse before.system system _ stepped
  obtain ⟨reads, requests⟩ := accounted
  cases moves with
  | event _ _ connection _ _ => cases connection
  | read _ _ _ performed =>
    rw [execRead] at performed
    split_ifs at performed with position silent
    · cases performed
      simp [System.crash] at running
    · cases performed
      rw [position] at reads requests
      constructor
      · simp only [System.senderAt, System.withImpl, held]
        rw [recorded, reads]
        simp [held]
      · simpa [System.senderAt, System.withImpl, outgoing] using requests

/-- What holds in every state of a run: the source is consistent and its history ends exactly,
and the record accounts for it as long as the process is not lost. -/
structure Sound (streaming : Streaming) : Prop where
  consistent : ∃ queue, BufferAudioSource.Consistent streaming.shared queue
  exact : BufferAudioSource.EndsExactly streaming.shared.log
  whole : BufferAudioSource.WholeReads streaming.shared
  accounted : streaming.system.crashed = none → Accounted streaming

/-- A step of the source keeps what holds of it. -/
theorem source_sound {shared : BufferAudioSource.Shared} {action : BufferAudioSource.Action}
    (sound : Sound before) (fresh : ∀ buffer, action = .read buffer → buffer = [])
    (moved : BufferAudioSource.move before.shared action = some shared) :
    (∃ queue, BufferAudioSource.Consistent shared queue) ∧
      BufferAudioSource.EndsExactly shared.log ∧ BufferAudioSource.WholeReads shared := by
  obtain ⟨queue, consistent⟩ := sound.consistent
  obtain ⟨queue', consistent'⟩ :=
    BufferAudioSource.move_consistent _ shared action queue consistent moved
  exact ⟨⟨queue', consistent'⟩, BufferAudioSource.ends_exactly_step _ shared action queue queue'
    consistent consistent' moved sound.exact,
    BufferAudioSource.move_whole sound.whole consistent fresh moved⟩

/-- A step of the recognizer leaves the source, and is made by a process that is not lost. -/
theorem recognize_shared {label : Label} (recognized : before.recognize parse label = some after) :
    after.shared = before.shared ∧ before.system.crashed = none := by
  obtain ⟨system, stepped, rfl⟩ := Option.map_eq_some_iff.mp recognized
  refine ⟨?_, (AsrClient.step_moves parse before.system system label stepped).1⟩
  cases label <;> rfl

/-- Every step keeps what holds in every state. -/
theorem step_sound {action : Action} (sound : Sound before)
    (stepped : step parse before action = some after) : Sound after := by
  cases step_moves stepped with
  | recognizer label _ other recognized =>
    obtain ⟨same, running⟩ := recognize_shared recognized
    exact {
      consistent := by rw [same]; exact sound.consistent
      exact := by rw [same]; exact sound.exact
      whole := by rw [same]; exact sound.whole
      accounted := fun _ => recognize_accounted other (sound.accounted running) recognized }
  | source action shared fresh moved silent =>
    obtain ⟨consistent, exact, whole⟩ := source_sound sound fresh moved
    refine ⟨consistent, exact, whole, fun running => ?_⟩
    have accounted := sound.accounted running
    exact ⟨silent.trans accounted.reads, accounted.requests⟩
  | returned shared ret buffer _ moved recorded recognized =>
    obtain ⟨consistent, exact, whole⟩ := source_sound sound (by simp) moved
    obtain ⟨same, running⟩ := recognize_shared recognized
    exact {
      consistent := by rw [same]; exact consistent
      exact := by rw [same]; exact exact
      whole := by rw [same]; exact whole
      accounted := returned_accounted (sound.accounted running) recorded recognized }

end Runs

/-- What has become of the stored audio. A packet is the last only when everything that is ever
stored has been passed on before it, unless an iteration has found the flag set. -/
structure Delivered (streaming : Streaming) (queue : Bytes) (packets : List ASRMessageRequest) :
    Prop where
  kept : streaming.readings.flatMap (·.chunk) ++
      (held streaming.system.impl.sendAudioMessageThread).flatMap (·.2) ++
      BufferAudioSource.inFlight streaming.shared.mutex ++ queue =
    BufferAudioSource.stored streaming.shared.log
  logged : Logged packets streaming.system.log
  sent : packets.flatMap (·.extra) ++
      (outgoing streaming.system.impl.sendAudioMessageThread).flatMap (·.chunk) =
    (streaming.readings.filter (!·.terminated)).flatMap (·.chunk)
  last (heard : ∀ reading ∈ streaming.readings, reading.terminated = false)
    (before after : List ASRMessageRequest) (final : ASRMessageRequest)
    (split : packets = before ++ final :: after)
    (isLast : final.getHeader (bytes "LastPacket") = bytes "true") :
    .finish ∈ streaming.shared.log ∧
      before.flatMap (·.extra) = BufferAudioSource.stored streaming.shared.log ∧
      ∀ packet ∈ final :: after, packet.extra = [] ∧
        packet.getHeader (bytes "LastPacket") = bytes "true"

/-- The requests carry what was read without the flag set. -/
theorem passes_chunks (readings : List Reading) :
    (readings.filter passes).flatMap (·.chunk) =
      (readings.filter (!·.terminated)).flatMap (·.chunk) := by
  induction readings with
  | nil => rfl
  | cons reading readings inductionHypothesis =>
    cases terminated : reading.terminated with
    | true => simpa [passes, terminated] using inductionHypothesis
    | false =>
      by_cases empty : reading.chunk = []
      · by_cases last : reading.ret = -1
        · simpa [passes, terminated, empty, last] using inductionHypothesis
        · simpa [passes, terminated, empty, last] using inductionHypothesis
      · simpa [passes, terminated, empty] using inductionHypothesis

/-- The content of requests is what was read for them. -/
theorem request_extra (readings : List Reading) :
    (readings.map request).flatMap (·.extra) = readings.flatMap (·.chunk) := by
  rw [List.flatMap_map]
  rfl

/-- A request is marked as the last exactly for a read that returned -1. -/
theorem request_last (reading : Reading) :
    (request reading).getHeader (bytes "LastPacket") = bytes "true" ↔ reading.ret = -1 := by
  have marked := (send_audio_packet reading.ret reading.chunk).lastPacket
  rw [request, marked]
  by_cases last : reading.ret = -1
  · simp [last]
  · simp only [last, decide_false, Bool.false_eq_true, if_false, iff_false]
    decide

section Ends

variable {streaming : Streaming}

/-- The bytes that the iterations have read are those that the reads have returned. -/
theorem Sound.read (sound : Sound streaming) (running : streaming.system.crashed = none) :
    BufferAudioSource.returned streaming.shared.log =
      streaming.readings.flatMap (·.chunk) ++
        (held streaming.system.impl.sendAudioMessageThread).flatMap (·.2) := by
  rw [BufferAudioSource.returned_reads _ sound.whole.returned, (sound.accounted running).reads,
    List.flatMap_append, List.flatMap_map]

/-- A last packet carries nothing, has everything before it, and only its like behind it. -/
theorem Sound.last (sound : Sound streaming) (running : streaming.system.crashed = none)
    (heard : ∀ reading ∈ streaming.readings, reading.terminated = false)
    (before after : List ASRMessageRequest) (final : ASRMessageRequest)
    (split : attempted streaming.system.log = before ++ final :: after)
    (isLast : final.getHeader (bytes "LastPacket") = bytes "true") :
    .finish ∈ streaming.shared.log ∧
      before.flatMap (·.extra) = BufferAudioSource.stored streaming.shared.log ∧
      ∀ packet ∈ final :: after, packet.extra = [] ∧
        packet.getHeader (bytes "LastPacket") = bytes "true" := by
  obtain ⟨read, passed⟩ := sound.accounted running
  rw [split, List.append_assoc, List.cons_append, List.map_eq_append_iff] at passed
  obtain ⟨first, rest, parted, rfl, others⟩ := passed
  obtain ⟨reading, behind, rfl, rfl, following⟩ := List.map_eq_cons_iff.mp others
  obtain ⟨earlier, later, whole, rfl, latter⟩ := List.filter_eq_append_iff.mp parted
  obtain ⟨skipped, remaining, rfl, silent, -, rfl⟩ := List.filter_eq_cons_iff.mp latter
  have ended := (request_last reading).mp isLast
  rw [whole, ← List.append_assoc, List.map_append, List.map_cons, List.append_assoc,
    List.cons_append] at read
  obtain ⟨ret, former, next, same, cut, formerReads, nextReads⟩ :=
    BufferAudioSource.reads_split read
  have ending : ret = -1 := Int32.toInt_inj.mp (same.trans ended)
  subst ending
  obtain ⟨marked, complete, refusals⟩ := sound.exact former reading.chunk next cut
  refine ⟨?_, ?_, ?_⟩
  · rw [cut]
    exact List.mem_append_left _ marked
  · -- What was read before the last packet is all that reads had returned by then.
    have none : skipped.filter passes = [] := List.filter_eq_nil_iff.mpr silent
    have going : (earlier ++ skipped).filter (!·.terminated) = earlier ++ skipped := by
      apply List.filter_eq_self.mpr
      intro reading member
      rw [heard reading (by rw [whole, ← List.append_assoc]; exact List.mem_append_left _ member)]
      rfl
    have kept := passes_chunks (earlier ++ skipped)
    rw [List.filter_append, none, List.append_nil, going] at kept
    have wholeFormer : ∀ ret buffer, .read ret buffer ∈ former →
        buffer.take ret.toNatClampNeg = buffer := by
      intro ret buffer member
      apply sound.whole.returned
      rw [cut]
      exact List.mem_append_left _ member
    rw [request_extra, kept, ← complete, BufferAudioSource.returned_reads former wholeFormer,
      formerReads, List.flatMap_map]
  · rw [List.forall_mem_cons]
    have empty : reading.chunk = [] := sound.whole.ending (by
      rw [cut]
      exact List.mem_append_right _ List.mem_cons_self)
    refine ⟨⟨empty, isLast⟩, fun packet member => ?_⟩
    obtain ⟨other, among, rfl⟩ : ∃ other ∈ remaining, request other = packet := by
      have found := List.mem_append_left (List.map request
        (outgoing streaming.system.impl.sendAudioMessageThread)) member
      rw [← following] at found
      obtain ⟨other, among, rfl⟩ := List.mem_map.mp found
      exact ⟨other, (List.mem_filter.mp among).1, rfl⟩
    have returned : (other.ret, other.chunk) ∈ BufferAudioSource.reads next := by
      rw [nextReads]
      exact List.mem_append_left _ (List.mem_map_of_mem among)
    obtain ⟨ret, same, found⟩ := BufferAudioSource.mem_reads returned
    obtain rfl : ret = -1 := refusals _ found
    refine ⟨sound.whole.ending ?_, (request_last other).mpr same.symm⟩
    rw [cut]
    exact List.mem_append_right _ (List.mem_cons_of_mem _ found)

end Ends

/-- In every interleaving of the threads that use a source with a recognizer that reads it, with
any number of recognitions: what the iterations have read, what the sender holds, what a read has
taken and what is in the ring make up the audio that was stored, in order. The packets that the
log tells of, and that were sent unless the library has failed to, carry what was read without
the flag set. Where no iteration has found the flag set, a last packet comes behind the end of
the stream and behind all audio that is ever stored, it is empty, and no audio follows it. -/
theorem stored_audio_sent (parse : Bytes → Json) (properties : Properties) (bufferSize : Nat)
    (positive : 1 ≤ bufferSize) (bounded : bufferSize ≤ 2 ^ 31) (actions : List Action)
    (streaming : Streaming)
    (execution : Execution (step parse) (fun _ _ => True)
      { system := System.create properties
        shared := { source := BufferAudioSource.create bufferSize } } actions streaming)
    (running : streaming.system.crashed = none) :
    ∃ queue packets, streaming.shared.source.ringBuffer.Represents queue ∧
      Delivered streaming queue packets := by
  have sound : Sound streaming := execution.invariant Sound
    { consistent := ⟨[], BufferAudioSource.create_consistent bufferSize positive bounded⟩
      exact := by simp [BufferAudioSource.EndsExactly]
      whole := ⟨by simp, by simp⟩
      accounted := fun _ => ⟨rfl, rfl⟩ }
    (fun _ _ _ sound _ stepped => step_sound sound stepped)
  obtain ⟨queue, consistent⟩ := sound.consistent
  refine ⟨queue, _, consistent.ring, ?_, logged_attempted _, ?_, sound.last running⟩
  · rw [← sound.read running]
    exact consistent.conserved
  · rw [← passes_chunks, ← request_extra, ← request_extra, (sound.accounted running).requests,
      List.flatMap_append]

/-- The statements of a read in the source that nobody disturbs. -/
def readOnce (statements : Nat) : List Action :=
  (BufferAudioSource.critical (.read []) statements).map .source

/-- A recognition in which three bytes are stored, read and sent, and then the end is marked. -/
def threeBytesSent : List Action :=
  ((firstRecognition 0 { uri := bytes "builtin:slm/general" } ++ handshake).map .recognizer) ++
    (BufferAudioSource.critical (.write (some (bytes "abc")) 3) 4).map .source ++
    readOnce 4 ++ List.replicate 4 (.recognizer (.sender .ok)) ++
    [.source .finish] ++ readOnce 3 ++ List.replicate 4 (.recognizer (.sender .ok))

/-- Two requests are sent: one with the three bytes, and an empty one behind the end. -/
theorem three_bytes_sent :
    ∃ streaming queue packets, Execution (step fun _ => .object []) (fun _ _ => True)
        { system := System.create { connectOnRecognize := true }
          shared := { source := BufferAudioSource.create 8 } } threeBytesSent streaming ∧
      (audioSent streaming.system.log).map (·.extra) = [bytes "abc", []] ∧
      Delivered streaming queue packets := by
  obtain ⟨streaming, execution, check⟩ := exists_execution_of_run
    (step fun _ => .object []) (fun _ _ => True)
    { system := System.create { connectOnRecognize := true }
      shared := { source := BufferAudioSource.create 8 } } threeBytesSent
    (fun streaming => streaming.system.crashed = none &&
      (audioSent streaming.system.log).map (·.extra) = [bytes "abc", []]) (by decide +kernel)
  simp only [Bool.and_eq_true, decide_eq_true_eq] at check
  obtain ⟨queue, packets, -, delivered⟩ := stored_audio_sent (fun _ => .object [])
    { connectOnRecognize := true } 8 (by decide) (by decide) threeBytesSent streaming execution
    check.1
  exact ⟨streaming, queue, packets, execution, check.2, delivered⟩

end Streaming

namespace FileAudioSource

/-- What an iteration of the sender observes of a read, when it does not find the flag set. -/
def reading (answer : Int × Bytes) : Reading := ⟨answer.1, answer.2, false⟩

/-- The answers to reads that end with the first -1: all blocks, and the buffer of the last
read. -/
theorem expected_ended (blocks buffers : List Bytes) (before : List (Int × Bytes))
    (last : Int × Bytes) (answered : expected blocks buffers = before ++ [last])
    (going : ∀ answer ∈ before, answer.1 ≠ -1) (ended : last.1 = -1)
    (empty : ∀ buffer ∈ buffers, buffer = []) :
    before = blocks.map (fun block => ((block.length : Int), block)) ∧ last = (-1, []) := by
  induction buffers generalizing blocks before with
  | nil =>
    have none : expected blocks [] = [] := by cases blocks <;> rfl
    rw [none] at answered
    exact absurd answered (by simp)
  | cons buffer buffers inductionHypothesis =>
    rw [List.forall_mem_cons] at empty
    cases blocks with
    | nil =>
      cases before with
      | nil =>
        obtain ⟨same, -⟩ := List.cons.inj answered
        exact ⟨rfl, by rw [← same, empty.1]⟩
      | cons first before =>
        obtain ⟨same, -⟩ := List.cons.inj answered
        exact absurd rfl (same ▸ going first List.mem_cons_self)
    | cons block blocks =>
      cases before with
      | nil =>
        obtain ⟨rfl, -⟩ := List.cons.inj answered
        exact absurd ended (by simp only; omega)
      | cons first before =>
        rw [List.forall_mem_cons] at going
        obtain ⟨rfl, rest⟩ := List.cons.inj answered
        obtain ⟨rfl, isLast⟩ := inductionHypothesis blocks before rest going.2 empty.2
        exact ⟨rfl, isLast⟩

/-- A recognizer sends a file whole, unless it is a WAV file shorter than its header and not
empty. When its sender has read from a source of the file, and has ended without finding the flag
set, the log tells of the content in packets of at most the block size, none of them empty, and
behind them of one last packet, which is empty; and they were sent, unless the library has failed
to. -/
theorem file_sent_whole (fileName : Bytes) (fmt : AudioFormat) (content memory : Bytes)
    (whole : extension fileName ≠ bytes "wav" ∨ content = [] ∨ wavHeaderSize ≤ content.length)
    (parse : Bytes → Json) (properties : Properties) (labels : List Label) (watched : Watched)
    (execution : Execution (Watched.step parse) (fun _ _ => True)
      { system := System.create properties } labels watched)
    (ended : watched.system.impl.sendAudioMessageThread = some .finished)
    (reads : watched.readings = ((create fileName fmt content memory).answers
      (List.replicate watched.readings.length [])).map reading) :
    ∃ former, Logged (former ++ [ASRSendMessage.sendAudio (-1) []])
        (sinceStarted watched.system.log) ∧
      former.flatMap (·.extra) = content ∧
      ∀ packet ∈ former, packet.extra ≠ [] ∧ packet.extra.length ≤ blockSize ∧
        packet.getHeader (bytes "LastPacket") = bytes "false" := by
  have delivered : (create fileName fmt content memory).DeliversWhole content := by
    by_cases header : extension fileName ≠ bytes "wav" ∨ wavHeaderSize ≤ content.length
    · exact delivers_whole _ content (create_ifs fileName fmt content memory header)
    · obtain ⟨wav, short⟩ := not_or.mp header
      have failed := create_failed fileName fmt content memory (not_not.mp wav)
        (Nat.lt_of_not_le short)
      rw [delivers_whole_failed _ content failed]
      exact (whole.resolve_left wav).resolve_right short
  obtain ⟨blocks, sized, flat, answered⟩ := delivered
  have progress := progress_of_execution execution
  rw [ended] at progress
  cases progress with
  | finished passed =>
    obtain ⟨before, last, split, goesOn, stops, sent⟩ := passed
    rw [answered, split] at reads
    obtain ⟨former, rest, cut, rfl, others⟩ := List.map_eq_append_iff.mp reads.symm
    obtain ⟨final, rfl, rfl⟩ := List.map_eq_singleton_iff.mp others
    have isLast : final.1 = -1 := by
      by_contra going
      exact stops ⟨rfl, going⟩
    obtain ⟨rfl, rfl⟩ := expected_ended blocks _ former final cut
      (fun answer member => (goesOn _ (List.mem_map_of_mem member)).2) isLast
      (fun buffer member => List.eq_of_mem_replicate member)
    have filled : ((blocks.map fun block => ((block.length : Int), block)).map reading).filter
        (·.chunk ≠ []) = (blocks.map fun block => ((block.length : Int), block)).map reading := by
      simp only [List.map_map, List.filter_eq_self, List.forall_mem_map, decide_eq_true_eq]
      exact fun block member => (sized block member).1
    have whole : audioPackets watched.system.log =
        ((blocks.map fun block => ((block.length : Int), block)).map reading).map (fun reading =>
          ASRSendMessage.sendAudio reading.ret reading.chunk) ++
          [ASRSendMessage.sendAudio (-1) []] := by
      rw [sent, split, send_going _ _ goesOn, filled]
      rfl
    have logged : Logged (audioPackets watched.system.log) (sinceStarted watched.system.log) :=
      logged_attempted _
    rw [whole] at logged
    refine ⟨_, logged, ?_, ?_⟩
    · rw [List.map_map, List.map_map, List.flatMap_map, ← flat]
      exact List.flatMap_id'
    · simp only [List.map_map, List.forall_mem_map]
      intro block member
      obtain ⟨nonempty, within⟩ := sized block member
      have packet := (send_audio_packet block.length block).lastPacket
      rw [decide_eq_false (by omega)] at packet
      exact ⟨nonempty, within, packet⟩

/-- A recognition of a file of three bytes. -/
def threeByteFile : List Label :=
  firstRecognition 0 { uri := bytes "builtin:slm/general" } ++ handshake ++
    .read 3 (bytes "abc") :: List.replicate 4 (.sender .ok) ++
    .read (-1) [] :: List.replicate 4 (.sender .ok)

/-- It is sent whole. -/
theorem three_byte_file_sent :
    ∃ watched former, Execution (Watched.step fun _ => .object []) (fun _ _ => True)
        { system := System.create { connectOnRecognize := true } } threeByteFile watched ∧
      audioSent (sinceStarted watched.system.log) = former ++ [ASRSendMessage.sendAudio (-1) []] ∧
      former.flatMap (·.extra) = bytes "abc" := by
  obtain ⟨watched, execution, check⟩ := exists_execution_of_run
    (Watched.step fun _ => .object []) (fun _ _ => True)
    { system := System.create { connectOnRecognize := true } } threeByteFile
    (fun watched => watched.system.impl.sendAudioMessageThread = some .finished ∧
      watched.readings = [⟨3, bytes "abc", false⟩, ⟨-1, [], false⟩] ∧
      allSent (sinceStarted watched.system.log) = true) (by decide +kernel)
  obtain ⟨ended, observed, successful⟩ := of_decide_eq_true check
  obtain ⟨former, logged, flat, -⟩ := file_sent_whole (bytes "a.raw") {} (bytes "abc") []
    (Or.inl (by decide)) (fun _ => .object []) { connectOnRecognize := true } threeByteFile watched
    execution ended (by rw [observed]; decide)
  refine ⟨watched, former, execution, logged.all fun request failed => ?_, flat⟩
  exact absurd (List.all_eq_true.mp successful _ failed) Bool.false_ne_true

end FileAudioSource

end AsrClient
