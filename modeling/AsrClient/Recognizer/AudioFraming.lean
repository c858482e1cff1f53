import Mathlib.Data.List.Forall2
import AsrClient.Recognizer.Frames

/-!
# The framing of the audio

The audio sender reads one chunk after the other and sends each of them in a request of
its own. Behind every read it tests the terminate flag. It starts over without a request
when the chunk is empty, unless the read was the last.

Here the loop is first a function of what its iterations observe. Then an audio sender of a
recognizer is watched: whatever the other threads do between its steps, the requests that
the log has of it are those of the function. A request that the library fails to send is
logged as such, and the loop goes on.
-/

namespace AsrClient

open Transitions

namespace AudioFraming

/-- What one iteration of the loop observes: what the read returned, and whether the
terminate flag was set behind it. -/
structure Reading where
  ret : Int
  chunk : Bytes
  terminated : Bool := false
deriving DecidableEq

/-- `sendAudioMessage`: the requests that the loop passes to `sendMessage` in the iterations
that observe these readings. -/
def sendAudioMessage : List Reading → List ASRMessageRequest
  | [] => []
  | reading :: rest =>
      if reading.terminated then []
      else if reading.chunk = [] ∧ reading.ret ≠ -1 then sendAudioMessage rest
      else ASRSendMessage.sendAudio reading.ret reading.chunk ::
        if reading.ret = -1 then [] else sendAudioMessage rest

/-- The loop goes on behind this iteration. -/
def Reading.GoesOn (reading : Reading) : Prop := reading.terminated = false ∧ reading.ret ≠ -1

/-- The iterations of a loop in which the reads return this sequence, and the terminate flag
is seen set where `seen` says so. -/
def iterations (reads : Nat → Int × Bytes) (seen : Nat → Bool) (count : Nat) : List Reading :=
  (List.range count).map fun i => ⟨(reads i).1, (reads i).2, seen i⟩

/-- The chunks read before an iteration that are not empty, in order. -/
def chunks (reads : Nat → Int × Bytes) (count : Nat) : List Bytes :=
  ((List.range count).map fun i => (reads i).2).filter (· ≠ [])

/-- A request that carries this chunk. -/
structure IsPacket (last : Bool) (chunk : Bytes) (request : ASRMessageRequest) : Prop where
  method : request.startLine = firstLine .sendAudio
  extra : request.extra = chunk
  length : request.getHeader (bytes "Content-Length") = decimal chunk.length
  lastPacket : request.getHeader (bytes "LastPacket") = bytes (if last then "true" else "false")

/-- The requests of a loop whose first last read is at `n`: one for each chunk before the
end that is not empty, and one last request unless the flag was seen by then. -/
structure Framed (reads : Nat → Int × Bytes) (seen : Nat → Bool) (n : Nat)
    (packets : List ASRMessageRequest) : Prop where
  terminated (t : Nat) (within : t ≤ n) (isSet : seen t = true) (first : ∀ i < t, seen i = false) :
    List.Forall₂ (IsPacket false) (chunks reads t) packets
  completed (never : ∀ i ≤ n, seen i = false) :
    ∃ former final, packets = former ++ [final] ∧
      List.Forall₂ (IsPacket false) (chunks reads n) former ∧ IsPacket true (reads n).2 final
  lossless (never : ∀ i ≤ n, seen i = false) :
    packets.flatMap (·.extra) = (List.range (n + 1)).flatMap fun i => (reads i).2

/-- A request of the loop carries the chunk that was read. -/
theorem send_audio_packet (ret : Int) (buffer : Bytes) :
    IsPacket (ret = -1) buffer (ASRSendMessage.sendAudio ret buffer) where
  method := rfl
  extra := rfl
  length := by
    have last : bytes "LastPacket" ≠ bytes "Content-Length" := by decide
    have type : bytes "Content-Type" ≠ bytes "Content-Length" := by decide
    simp [ASRSendMessage.sendAudio, ASRMessageRequest.get_set_header, last, type]
  lastPacket := by
    by_cases isLast : ret = -1
    · simp [ASRSendMessage.sendAudio, ASRMessageRequest.get_set_header, isLast]
    · simp [ASRSendMessage.sendAudio, ASRMessageRequest.get_set_header, isLast]

/-- Iterations that go on send what they have read, unless it is empty. -/
theorem send_going (before rest : List Reading) (goesOn : ∀ reading ∈ before, reading.GoesOn) :
    sendAudioMessage (before ++ rest) =
      (before.filter (·.chunk ≠ [])).map (fun reading =>
        ASRSendMessage.sendAudio reading.ret reading.chunk) ++ sendAudioMessage rest := by
  induction before with
  | nil => rfl
  | cons reading before inductionHypothesis =>
    obtain ⟨⟨going, notLast⟩, later⟩ := List.forall_mem_cons.mp goesOn
    rw [List.cons_append, sendAudioMessage, if_neg (by simp [going]), inductionHypothesis later]
    by_cases empty : reading.chunk = []
    · rw [if_pos ⟨empty, notLast⟩, List.filter_cons_of_neg (by simp [empty])]
    · rw [if_neg (fun skipped => empty skipped.1), if_neg notLast,
        List.filter_cons_of_pos (by simp [empty])]
      rfl

/-- An iteration that does not go on is the last one: it sends nothing when it has seen the
flag, and what it has read otherwise. -/
theorem send_stop (reading : Reading) (rest : List Reading) (stops : ¬ reading.GoesOn) :
    sendAudioMessage (reading :: rest) =
      if reading.terminated then [] else [ASRSendMessage.sendAudio reading.ret reading.chunk] := by
  rw [sendAudioMessage]
  by_cases terminated : reading.terminated = true
  · rw [if_pos terminated, if_pos terminated]
  · have last : reading.ret = -1 := by
      by_contra going
      exact stops ⟨by simpa using terminated, going⟩
    rw [if_neg terminated, if_neg terminated, if_neg (fun skipped => skipped.2 last), if_pos last]

/-- The iterations up to and behind one of them. -/
theorem iterations_at (reads : Nat → Int × Bytes) (seen : Nat → Bool) {t n : Nat} (within : t ≤ n) :
    ∃ rest, iterations reads seen (n + 1) =
      iterations reads seen t ++ ⟨(reads t).1, (reads t).2, seen t⟩ :: rest := by
  have count : n + 1 = t + (n - t + 1) := by omega
  rw [iterations, count, List.range_add, List.map_append, List.range_succ_eq_map]
  exact ⟨_, rfl⟩

/-- All iterations before this one go on. -/
theorem iterations_going {reads : Nat → Int × Bytes} {seen : Nat → Bool} {t : Nat}
    (before : ∀ i < t, seen i = false ∧ (reads i).1 ≠ -1) :
    ∀ reading ∈ iterations reads seen t, reading.GoesOn := by
  intro reading member
  obtain ⟨i, inside, rfl⟩ := List.mem_map.mp member
  exact before i (List.mem_range.mp inside)

/-- The loop up to an iteration that all former ones lead to. -/
theorem send_iterations {reads : Nat → Int × Bytes} {seen : Nat → Bool} {t n : Nat}
    (within : t ≤ n) (before : ∀ i < t, seen i = false ∧ (reads i).1 ≠ -1)
    (stops : seen t = true ∨ (reads t).1 = -1) :
    sendAudioMessage (iterations reads seen (n + 1)) =
      ((iterations reads seen t).filter (·.chunk ≠ [])).map (fun reading =>
          ASRSendMessage.sendAudio reading.ret reading.chunk) ++
        if seen t then [] else [ASRSendMessage.sendAudio (reads t).1 (reads t).2] := by
  obtain ⟨rest, whole⟩ := iterations_at reads seen within
  rw [whole, send_going _ _ (iterations_going before), send_stop]
  rintro ⟨notSet, notLast⟩
  cases stops with
  | inl isSet =>
    exact absurd (notSet.symm.trans isSet) (by decide)
  | inr last =>
    exact notLast last

/-- The requests of iterations that go on carry the chunks that are not empty. -/
theorem chunks_carried {reads : Nat → Int × Bytes} {seen : Nat → Bool} {t : Nat}
    (before : ∀ i < t, seen i = false ∧ (reads i).1 ≠ -1) :
    List.Forall₂ (IsPacket false) (chunks reads t)
      (((iterations reads seen t).filter (·.chunk ≠ [])).map fun reading =>
        ASRSendMessage.sendAudio reading.ret reading.chunk) := by
  have read : chunks reads t =
      ((iterations reads seen t).filter (·.chunk ≠ [])).map (·.chunk) := by
    have each : (List.range t).map (fun i => (reads i).2) =
        (iterations reads seen t).map (·.chunk) := by
      rw [iterations, List.map_map]
      rfl
    rw [chunks, each, List.filter_map]
    rfl
  rw [read, List.forall₂_map_left_iff, List.forall₂_map_right_iff, List.forall₂_same]
  intro reading member
  have going := iterations_going before reading (List.mem_of_mem_filter member)
  have packet := send_audio_packet reading.ret reading.chunk
  rwa [decide_eq_false going.2] at packet

/-- Empty chunks add nothing to what is carried. -/
theorem flat_map_filtered (readings : List Reading) :
    (readings.filter (·.chunk ≠ [])).flatMap (·.chunk) = readings.flatMap (·.chunk) := by
  induction readings with
  | nil => rfl
  | cons reading readings inductionHypothesis =>
    rw [List.flatMap_cons, ← inductionHypothesis]
    by_cases empty : reading.chunk = []
    · rw [List.filter_cons_of_neg (by simp [empty]), empty, List.nil_append]
    · rw [List.filter_cons_of_pos (by simp [empty]), List.flatMap_cons]

/-- The loop frames what it reads, up to the first iteration that ends it. -/
theorem loop_framed (reads : Nat → Int × Bytes) (seen : Nat → Bool) (n : Nat)
    (last : (reads n).1 = -1) (first : ∀ i < n, (reads i).1 ≠ -1) :
    Framed reads seen n (sendAudioMessage (iterations reads seen (n + 1))) where
  terminated t within isSet unset := by
    have before : ∀ i < t, seen i = false ∧ (reads i).1 ≠ -1 :=
      fun i below => ⟨unset i below, first i (Nat.lt_of_lt_of_le below within)⟩
    rw [send_iterations within before (Or.inl isSet), if_pos isSet, List.append_nil]
    exact chunks_carried before
  completed never := by
    have before : ∀ i < n, seen i = false ∧ (reads i).1 ≠ -1 :=
      fun i below => ⟨never i (Nat.le_of_lt below), first i below⟩
    have packet := send_audio_packet (reads n).1 (reads n).2
    rw [decide_eq_true last] at packet
    refine ⟨_, ASRSendMessage.sendAudio (reads n).1 (reads n).2, ?_, chunks_carried before, packet⟩
    rw [send_iterations (Nat.le_refl n) before (Or.inr last), never n (Nat.le_refl n)]
    rfl
  lossless never := by
    have before : ∀ i < n, seen i = false ∧ (reads i).1 ≠ -1 :=
      fun i below => ⟨never i (Nat.le_of_lt below), first i below⟩
    have carried : (iterations reads seen n).flatMap (·.chunk) =
        (List.range n).flatMap fun i => (reads i).2 := List.flatMap_map ..
    rw [send_iterations (Nat.le_refl n) before (Or.inr last), never n (Nat.le_refl n),
      List.flatMap_append, List.flatMap_map, List.range_succ, List.flatMap_append, ← carried,
      ← flat_map_filtered]
    rfl

/-- The request of the audio sender that an entry of the log tells of, sent or not. -/
def attempt : Event → Option ASRMessageRequest
  | .sent .sender request => some request
  | .sendFailed .sender request => some request
  | _ => none

/-- The requests that the audio sender has passed on, in their order. -/
def attempted (log : List Event) : List ASRMessageRequest := (log.filterMap attempt).reverse

/-- Those of them that were sent. -/
def audioSent (log : List Event) : List ASRMessageRequest :=
  (log.filterMap fun
    | .sent .sender request => some request
    | _ => none).reverse

/-- The entries behind the last start of an audio sender, latest first. -/
def sinceStarted : List Event → List Event
  | [] => []
  | .senderStarted :: _ => []
  | event :: log => event :: sinceStarted log

/-- The log tells of these packets: they were passed on in this order. Those that were sent are
among them, and are all of them when the library has failed to send none. -/
structure Logged (packets : List ASRMessageRequest) (log : List Event) : Prop where
  attempts : attempted log = packets
  sent : (audioSent log).Sublist packets
  all : (∀ request, .sendFailed .sender request ∉ log) → audioSent log = packets

/-- A recognizer whose audio sender is watched: the iterations that the loop of the sender
started last has made. -/
structure Watched where
  system : System
  readings : List Reading := []

/-- What is watched behind a step. The test of the flag completes what an iteration observes,
and a new sender has made none. -/
def Watched.behind (watched : Watched) (label : Label) (system : System) : Watched :=
  match label, watched.system.impl.sendAudioMessageThread, system.impl.sendAudioMessageThread with
  | .sender _, some (.test ret buffer), _ =>
      { system
        readings := watched.readings ++
          [⟨ret, buffer, watched.system.impl.sendAudioMessageTerminate⟩] }
  | _, none, some _ => { system }
  | _, _, _ => { watched with system }

/-- One step of the recognizer. -/
def Watched.step (parse : Bytes → Json) (watched : Watched) (label : Label) : Option Watched :=
  (AsrClient.step parse watched.system label).map (watched.behind label)

/-- All iterations so far go on, and their requests have been passed on. -/
def Going (readings : List Reading) (packets : List ASRMessageRequest) : Prop :=
  (∀ reading ∈ readings, reading.GoesOn) ∧ packets = sendAudioMessage readings

/-- The last iteration has passed its test, and its request is not passed on yet. -/
def Passing (ret : Int) (buffer : Bytes) (readings : List Reading)
    (packets : List ASRMessageRequest) : Prop :=
  ∃ before, readings = before ++ [⟨ret, buffer, false⟩] ∧ (buffer ≠ [] ∨ ret = -1) ∧
    Going before packets

/-- The last iteration has ended the loop. -/
def Over (readings : List Reading) (packets : List ASRMessageRequest) : Prop :=
  ∃ before last, readings = before ++ [last] ∧ (∀ reading ∈ before, reading.GoesOn) ∧
    ¬ last.GoesOn ∧ packets = sendAudioMessage readings

/-- How far the loop has come, at each of its positions. -/
inductive Progress (readings : List Reading) (packets : List ASRMessageRequest) :
    Option Sender → Prop where
  | none (going : Going readings packets) : Progress readings packets none
  | read (going : Going readings packets) : Progress readings packets (some .read)
  | test (ret : Int) (buffer : Bytes) (going : Going readings packets) :
      Progress readings packets (some (.test ret buffer))
  | wantLock (ret : Int) (buffer : Bytes) (passing : Passing ret buffer readings packets) :
      Progress readings packets (some (.wantLock ret buffer))
  | logging (ret : Int) (buffer : Bytes) (passing : Passing ret buffer readings packets) :
      Progress readings packets (some (.logging ret buffer))
  | sending (ret : Int) (buffer : Bytes) (passing : Passing ret buffer readings packets) :
      Progress readings packets (some (.sending ret buffer))
  | finished (ended : Over readings packets) : Progress readings packets (some .finished)
  | joined (ended : Over readings packets) : Progress readings packets none

/-- Iterations that go on, and those behind them, send one after the other. -/
theorem send_append (before rest : List Reading) (goesOn : ∀ reading ∈ before, reading.GoesOn) :
    sendAudioMessage (before ++ rest) = sendAudioMessage before ++ sendAudioMessage rest := by
  have alone := send_going before [] goesOn
  rw [List.append_nil] at alone
  rw [send_going before rest goesOn, alone]
  simp [sendAudioMessage]

section Log

/-- The requests that were sent are among those passed on. -/
theorem audio_sent_sublist (log : List Event) : (audioSent log).Sublist (attempted log) := by
  rw [audioSent, attempted, List.reverse_sublist]
  induction log with
  | nil => exact List.Sublist.refl _
  | cons event log inductionHypothesis =>
    cases event with
    | sent thread request =>
      cases thread with
      | sender => exact inductionHypothesis.cons_cons request
      | _ => exact inductionHypothesis
    | sendFailed thread request =>
      cases thread with
      | sender => exact inductionHypothesis.cons request
      | _ => exact inductionHypothesis
    | _ => exact inductionHypothesis

/-- They are all of them when none has failed. -/
theorem audio_sent_all (log : List Event) (none : ∀ request, .sendFailed .sender request ∉ log) :
    audioSent log = attempted log := by
  rw [audioSent, attempted]
  refine congrArg List.reverse (List.filterMap_congr fun event member => ?_)
  cases event with
  | sent thread request => cases thread <;> rfl
  | sendFailed thread request =>
    cases thread with
    | sender => exact absurd member (none request)
    | _ => rfl
  | _ => rfl

/-- The log tells of the requests that the sender has passed on. -/
theorem logged_attempted (log : List Event) : Logged (attempted log) log where
  attempts := rfl
  sent := audio_sent_sublist log
  all := audio_sent_all log

/-- A new entry adds the request that it tells of. -/
theorem attempted_cons (event : Event) (log : List Event) :
    attempted (event :: log) = attempted log ++ (attempt event).toList := by
  rw [attempted, attempted]
  cases told : attempt event <;> simp [told]

/-- An entry that is no message of the audio sender tells of no request. -/
theorem attempt_none {event : Event} (sent : ∀ request, event ≠ .sent .sender request)
    (failed : ∀ request, event ≠ .sendFailed .sender request) : attempt event = none := by
  cases event with
  | sent thread request =>
    cases thread with
    | sender => exact absurd rfl (sent request)
    | _ => rfl
  | sendFailed thread request =>
    cases thread with
    | sender => exact absurd rfl (failed request)
    | _ => rfl
  | _ => rfl

/-- An entry that is no start is one behind the last start. -/
theorem since_started_cons {event : Event} (other : event ≠ .senderStarted) (log : List Event) :
    sinceStarted (event :: log) = event :: sinceStarted log := by
  cases event <;> first | rfl | exact absurd rfl other

/-- A log goes on by at most one entry, which tells of no request of the sender. -/
def NoAudio (log after : List Event) : Prop :=
  after = log ∨ ∃ event, after = event :: log ∧ attempt event = none

/-- Such a log has the same requests of the sender. -/
theorem NoAudio.attempted {log after : List Event} (silent : NoAudio log after) :
    attempted after = attempted log := by
  rcases silent with rfl | ⟨event, rfl, none⟩
  · rfl
  · rw [attempted_cons, none, Option.toList_none, List.append_nil]

end Log

section Steps

variable {parse : Bytes → Json} {before after : System}

/-- The packets of the sender started last. -/
def audioPackets (log : List Event) : List ASRMessageRequest := attempted (sinceStarted log)

/-- A log with no start goes on with the packets of the sender. -/
theorem NoAudio.packets {log after : List Event} (silent : NoAudio log after)
    (unstarted : after ≠ .senderStarted :: log) : audioPackets after = audioPackets log := by
  rcases silent with rfl | ⟨event, rfl, none⟩
  · rfl
  · have other : event ≠ .senderStarted := by
      rintro rfl
      exact unstarted rfl
    rw [audioPackets, since_started_cons other, attempted_cons, none, Option.toList_none,
      List.append_nil]
    rfl

/-- The application thread passes no audio on, and starts no sender. -/
theorem app_no_audio {outcome : Outcome} {stmt : AppStmt}
    (performed : execApp outcome before stmt = some after) :
    NoAudio before.log after.log ∧ after.log ≠ .senderStarted :: before.log := by
  rcases app_log performed with same | ⟨event, logged, mayLog⟩
  · exact ⟨Or.inl same, same ▸ (List.cons_ne_self _ _).symm⟩
  · refine ⟨Or.inr ⟨event, logged, attempt_none ?_ ?_⟩, ?_⟩
    · rintro request rfl
      cases stmt <;> cases outcome <;> exact mayLog
    · rintro request rfl
      cases stmt <;> cases outcome <;> exact mayLog
    · rw [logged]
      rintro same
      obtain ⟨rfl, -⟩ := List.cons.inj same
      cases stmt <;> cases outcome <;> exact absurd mayLog id

/-- A handler passes no audio on. -/
theorem ws_no_audio (outcome : Outcome) (system : System) (stmt : WsStmt) :
    NoAudio system.log (execWs outcome system stmt).log := by
  rcases ws_log outcome system stmt with same | ⟨event, logged, mayLog⟩
  · exact Or.inl same
  · refine Or.inr ⟨event, logged, attempt_none ?_ ?_⟩
    · rintro request rfl
      cases stmt <;> cases outcome <;> exact mayLog
    · rintro request rfl
      cases stmt <;> cases outcome <;> exact mayLog

/-- How the threads other than the sender, and a read, move the sender, with the packets that
the log has of it. -/
inductive Moved : Option Sender → List ASRMessageRequest → Option Sender →
    List ASRMessageRequest → Prop where
  | stays (sender : Option Sender) (packets : List ASRMessageRequest) :
      Moved sender packets sender packets
  | starts (packets : List ASRMessageRequest) : Moved none packets (some .read) []
  | reads (ret : Int) (chunk : Bytes) (packets : List ASRMessageRequest) :
      Moved (some .read) packets (some (.test ret chunk)) packets
  | joins (packets : List ASRMessageRequest) : Moved (some .finished) packets none packets

/-- The application thread takes a sender from its object only when it has ended. -/
theorem app_moved {outcome : Outcome} {stmt : AppStmt}
    (performed : execApp outcome before stmt = some after) :
    Moved before.impl.sendAudioMessageThread (audioPackets before.log)
      after.impl.sendAudioMessageThread (audioPackets after.log) := by
  obtain ⟨silent, unstarted⟩ := app_no_audio performed
  rw [silent.packets unstarted]
  cases stmt with
  | join =>
    simp only [execApp] at performed
    split_ifs at performed with ended
    cases performed
    rw [ended]
    exact .joins _
  | freshImpl =>
    simp only [execApp] at performed
    split_ifs at performed with held
    · cases performed
      exact .stays _ _
    · cases performed
      have empty : before.impl.sendAudioMessageThread = none := by
        simp only [Bool.or_eq_true, not_or] at held
        simpa using held.1
      rw [empty]
      exact .stays none _
  | _ =>
    simp only [execApp, Option.some.injEq] at performed
    (repeat' split at performed) <;> cases performed <;> exact .stays _ _

/-- The websocket thread puts a sender only into an empty object. -/
theorem ws_moved (outcome : Outcome) (system : System) (stmt : WsStmt) :
    Moved system.impl.sendAudioMessageThread (audioPackets system.log)
      (execWs outcome system stmt).impl.sendAudioMessageThread
      (audioPackets (execWs outcome system stmt).log) := by
  by_cases starts : stmt = .startSender
  · subst starts
    simp only [execWs]
    split_ifs with silent held
    · exact .stays _ _
    · exact .stays _ _
    · rw [Option.not_isSome_iff_eq_none.mp held]
      exact .starts _
  · have unstarted : (execWs outcome system stmt).log ≠ .senderStarted :: system.log := by
      intro started
      rcases ws_log outcome system stmt with same | ⟨event, logged, mayLog⟩
      · exact List.cons_ne_self _ _ (started.symm.trans same)
      · obtain ⟨rfl, -⟩ := List.cons.inj (started.symm.trans logged)
        cases stmt <;> first | exact absurd rfl starts | (cases outcome <;> exact mayLog)
    rw [(ws_no_audio outcome system stmt).packets unstarted]
    cases stmt with
    | startSender => exact absurd rfl starts
    | _ =>
      simp only [execWs]
      (repeat' split) <;> exact .stays _ _

/-- Every step but those of the sender itself moves it in one of these ways. -/
theorem step_moved {label : Label} (other : ∀ outcome, label ≠ .sender outcome)
    (moved : step parse before label = some after) :
    Moved before.impl.sendAudioMessageThread (audioPackets before.log)
      after.impl.sendAudioMessageThread (audioPackets after.log) := by
  obtain ⟨-, moves⟩ := step_moves parse before after label moved
  cases moves with
  | app outcome stmt rest _ next performed => exact (app_moved performed :)
  | ws outcome stmt rest next => exact ws_moved outcome { before with ws := rest } stmt
  | read ret chunk _ performed =>
    rw [execRead] at performed
    split_ifs at performed with reading silent
    · cases performed
      exact .stays _ _
    · cases performed
      rw [reading]
      exact .reads ret chunk _
  | sender outcome _ performed => exact absurd rfl (other outcome)
  | _ => exact .stays _ _

/-- A statement of the sender adds what it passes on, whether it is sent or not. -/
theorem sender_packets {outcome : Outcome} (performed : execSender outcome before = some after) :
    audioPackets after.log = audioPackets before.log ++
      match before.impl.sendAudioMessageThread with
      | some (.sending ret buffer) => [ASRSendMessage.sendAudio ret buffer]
      | _ => [] := by
  rw [execSender] at performed
  split at performed
  · rename_i ret buffer position
    rw [position]
    split_ifs at performed <;> cases performed <;> exact (List.append_nil _).symm
  · rename_i ret buffer position
    rw [position]
    split_ifs at performed
    cases performed
    exact (List.append_nil _).symm
  · rename_i ret buffer position
    rw [position]
    cases performed
    exact (List.append_nil _).symm
  · rename_i ret buffer position
    rw [position]
    cases performed
    cases outcome with
    | ok => exact attempted_cons _ _
    | fails | throws => exact attempted_cons _ _
  · cases performed
  · cases performed
  · cases performed

/-- A test of the flag ends the loop, starts it over, or goes on to a request. -/
theorem Going.tested {readings : List Reading} {packets : List ASRMessageRequest}
    (going : Going readings packets) {outcome : Outcome} {ret : Int} {buffer : Bytes}
    (position : before.impl.sendAudioMessageThread = some (.test ret buffer))
    (performed : execSender outcome before = some after) :
    Progress (readings ++ [⟨ret, buffer, before.impl.sendAudioMessageTerminate⟩]) packets
      after.impl.sendAudioMessageThread := by
  obtain ⟨goesOn, sent⟩ := going
  simp only [execSender, position] at performed
  split_ifs at performed with terminated skipped
  · cases performed
    have stops : ¬ (Reading.mk ret buffer true).GoesOn := fun goes => Bool.false_ne_true goes.1.symm
    refine .finished ⟨readings, ⟨ret, buffer, true⟩, by rw [terminated], goesOn, stops, ?_⟩
    rw [send_append _ _ goesOn, terminated, send_stop _ _ stops, if_pos rfl, List.append_nil, sent]
  · cases performed
    obtain ⟨rfl, notLast⟩ := skipped
    rw [Bool.not_eq_true] at terminated
    refine .read ⟨?_, ?_⟩
    · rw [List.forall_mem_append, List.forall_mem_singleton]
      exact ⟨goesOn, terminated, notLast⟩
    · rw [send_append _ _ goesOn, terminated, sent]
      simp [sendAudioMessage, notLast]
  · cases performed
    rw [Bool.not_eq_true] at terminated
    rw [terminated]
    have carried : buffer ≠ [] ∨ ret = -1 := by
      by_contra neither
      rw [not_or, not_not] at neither
      exact skipped neither
    exact .wantLock ret buffer ⟨readings, rfl, carried, goesOn, sent⟩

/-- A request that is passed on ends the loop, or starts it over. -/
theorem Passing.passed {readings : List Reading} {packets : List ASRMessageRequest} {ret : Int}
    {buffer : Bytes} (passing : Passing ret buffer readings packets) {outcome : Outcome}
    (position : before.impl.sendAudioMessageThread = some (.sending ret buffer))
    (performed : execSender outcome before = some after) :
    Progress readings (packets ++ [ASRSendMessage.sendAudio ret buffer])
      after.impl.sendAudioMessageThread := by
  obtain ⟨former, rfl, carried, goesOn, sent⟩ := passing
  simp only [execSender, position, Option.some.injEq] at performed
  cases performed
  have whole : packets ++ [ASRSendMessage.sendAudio ret buffer] =
      sendAudioMessage (former ++ [⟨ret, buffer, false⟩]) := by
    have nonempty : ¬ (buffer = [] ∧ ret ≠ -1) := by
      rintro ⟨empty, notLast⟩
      cases carried with
      | inl filled =>
        exact filled empty
      | inr last =>
        exact notLast last
    rw [send_append _ _ goesOn, sent, sendAudioMessage, if_neg Bool.false_ne_true, if_neg nonempty]
    simp [sendAudioMessage]
  by_cases last : ret = -1
  · have stops : ¬ (Reading.mk ret buffer false).GoesOn := fun goes => goes.2 last
    simp only [System.senderAt, System.withImpl, if_pos last]
    exact .finished ⟨former, _, rfl, goesOn, stops, whole⟩
  · simp only [System.senderAt, System.withImpl, if_neg last]
    refine .read ⟨?_, whole⟩
    rw [List.forall_mem_append, List.forall_mem_singleton]
    exact ⟨goesOn, rfl, last⟩

/-- A step that is not the sender's adds nothing to what is watched; a start begins anew. -/
theorem behind_other (watched : Watched) (system : System) {label : Label}
    (other : ∀ outcome, label ≠ .sender outcome) :
    watched.behind label system =
      if watched.system.impl.sendAudioMessageThread = none ∧
          system.impl.sendAudioMessageThread ≠ none then { system }
      else { watched with system } := by
  unfold Watched.behind
  cases former : watched.system.impl.sendAudioMessageThread with
  | none =>
    cases system.impl.sendAudioMessageThread <;> cases label <;> rfl
  | some sender =>
    rw [if_neg (by simp)]
    cases label with
    | sender outcome => exact absurd rfl (other outcome)
    | _ => cases sender <;> cases system.impl.sendAudioMessageThread <;> rfl

/-- Every step of the recognizer keeps the progress of the loop. -/
theorem progress_step {watched next : Watched} {label : Label}
    (progress : Progress watched.readings (audioPackets watched.system.log)
      watched.system.impl.sendAudioMessageThread)
    (moved : watched.step parse label = some next) :
    Progress next.readings (audioPackets next.system.log)
      next.system.impl.sendAudioMessageThread := by
  obtain ⟨system, stepped, rfl⟩ := Option.map_eq_some_iff.mp moved
  by_cases isSender : ∃ outcome, label = .sender outcome
  · obtain ⟨outcome, rfl⟩ := isSender
    obtain ⟨-, moves⟩ := step_moves parse watched.system system _ stepped
    obtain ⟨former, readings⟩ := watched
    cases moves with
    | event _ _ connection _ _ => cases connection
    | sender _ _ performed =>
      have packets := sender_packets performed
      simp only at progress
      cases position : former.impl.sendAudioMessageThread with
      | none => simp [execSender, position] at performed
      | some sender =>
        rw [position] at progress packets
        have same : (Watched.behind ⟨former, readings⟩ (.sender outcome) system).system =
            system := by
          simp only [Watched.behind, position]
          cases sender <;> rfl
        rw [same, packets]
        cases progress with
        | read going => simp [execSender, position] at performed
        | finished ended => simp [execSender, position] at performed
        | test ret buffer going =>
          simp only [Watched.behind, position, List.append_nil]
          exact going.tested position performed
        | wantLock ret buffer passing =>
          simp only [execSender, position] at performed
          split_ifs at performed
          cases performed
          simp only [Watched.behind, position, List.append_nil]
          exact .logging ret buffer passing
        | logging ret buffer passing =>
          simp only [execSender, position, Option.some.injEq] at performed
          cases performed
          simp only [Watched.behind, position, List.append_nil]
          exact .sending ret buffer passing
        | sending ret buffer passing =>
          simp only [Watched.behind, position]
          exact passing.passed position performed
  · rw [not_exists] at isSender
    rw [behind_other watched system isSender]
    have same := step_moved isSender stepped
    obtain ⟨former, readings⟩ := watched
    simp only at progress same ⊢
    generalize former.impl.sendAudioMessageThread = sender at progress same
    generalize audioPackets former.log = packets at progress same
    split_ifs with starts
    · -- The readings of the former sender are forgotten with its packets.
      simp only
      generalize system.impl.sendAudioMessageThread = sender' at same starts
      generalize audioPackets system.log = packets' at same
      cases same with
      | starts => exact .read ⟨by simp, rfl⟩
      | stays => exact absurd starts.1 starts.2
      | reads ret chunk => simp at starts
      | joins => simp at starts
    · simp only
      generalize system.impl.sendAudioMessageThread = sender' at same starts
      generalize audioPackets system.log = packets' at same
      cases same with
      | starts => simp at starts
      | stays => exact progress
      | reads ret chunk =>
        cases progress with
        | read going => exact .test ret chunk going
      | joins =>
        cases progress with
        | finished ended => exact .joined ended

/-- In every run the progress of the loop is that which the log tells of. -/
theorem progress_of_execution {properties : Properties} {labels : List Label} {watched : Watched}
    (execution : Execution (Watched.step parse) (fun _ _ => True)
      { system := System.create properties } labels watched) :
    Progress watched.readings (audioPackets watched.system.log)
      watched.system.impl.sendAudioMessageThread :=
  execution.invariant (fun watched => Progress watched.readings (audioPackets watched.system.log)
      watched.system.impl.sendAudioMessageThread)
    (.none ⟨by simp, rfl⟩) (fun _ _ _ held _ moved => progress_step held moved)

end Steps

/-- What the sender has observed of these reads and of the flag. -/
def Watched.Observes (watched : Watched) (reads : Nat → Int × Bytes) (seen : Nat → Bool) : Prop :=
  watched.readings = iterations reads seen watched.readings.length

section Observed

variable {reads : Nat → Int × Bytes} {seen : Nat → Bool} {n : Nat}
variable {readings : List Reading} {packets : List ASRMessageRequest}

/-- The iterations before one of those observed. -/
theorem observed_before {before rest : List Reading}
    (observes : before ++ rest = iterations reads seen (before ++ rest).length) :
    before = iterations reads seen before.length := by
  have taken := congrArg (List.take before.length) observes
  rw [List.take_left, iterations, List.length_append, List.range_add, List.map_append] at taken
  rwa [List.take_left' (by simp)] at taken

/-- Iterations that go on do not contain the last read. -/
theorem going_within {count : Nat} (last : (reads n).1 = -1)
    (goesOn : ∀ reading ∈ iterations reads seen count, reading.GoesOn) : count ≤ n := by
  by_contra behind
  have member : ⟨(reads n).1, (reads n).2, seen n⟩ ∈ iterations reads seen count :=
    List.mem_map.mpr ⟨n, List.mem_range.mpr (by omega), rfl⟩
  exact (goesOn _ member).2 last

/-- What has been passed on begins the requests of the loop. -/
theorem Going.begins (going : Going readings packets) (last : (reads n).1 = -1)
    (observes : readings = iterations reads seen readings.length) :
    readings.length ≤ n ∧ packets <+: sendAudioMessage (iterations reads seen (n + 1)) := by
  obtain ⟨goesOn, sent⟩ := going
  have within := going_within last (observes ▸ goesOn)
  obtain ⟨rest, whole⟩ := iterations_at reads seen within
  rw [← observes] at whole
  rw [whole, send_append _ _ goesOn, sent]
  exact ⟨within, List.prefix_append _ _⟩

/-- When the loop is over, all requests of it have been passed on. -/
theorem Over.complete (ended : Over readings packets) (last : (reads n).1 = -1)
    (observes : readings = iterations reads seen readings.length) :
    readings.length ≤ n + 1 ∧ packets = sendAudioMessage (iterations reads seen (n + 1)) := by
  obtain ⟨before, final, rfl, goesOn, stops, sent⟩ := ended
  have former := observed_before observes
  have within := going_within last (former ▸ goesOn)
  obtain ⟨rest, whole⟩ := iterations_at reads seen within
  have same : final = ⟨(reads before.length).1, (reads before.length).2, seen before.length⟩ := by
    have cell := congrArg (·[before.length]?) observes
    simpa [iterations] using cell
  rw [← former, ← same] at whole
  rw [sent, whole, send_append _ _ goesOn, send_append _ _ goesOn, send_stop _ _ stops,
    send_stop _ _ stops]
  exact ⟨by simpa using within, rfl⟩

/-- The iteration under way has passed on nothing yet. -/
theorem Passing.begins {ret : Int} {buffer : Bytes}
    (passing : Passing ret buffer readings packets) (last : (reads n).1 = -1)
    (observes : readings = iterations reads seen readings.length) :
    readings.length ≤ n + 1 ∧ packets <+: sendAudioMessage (iterations reads seen (n + 1)) := by
  obtain ⟨before, whole, -, former⟩ := passing
  rw [whole] at observes
  obtain ⟨within, begins⟩ := former.begins last (observed_before observes)
  rw [whole, List.length_append, List.length_singleton]
  exact ⟨Nat.succ_le_succ within, begins⟩

/-- Wherever the sender stands, what it has passed on begins the requests of the loop. -/
theorem Progress.begins {sender : Option Sender}
    (progress : Progress readings packets sender) (last : (reads n).1 = -1)
    (observes : readings = iterations reads seen readings.length) :
    readings.length ≤ n + 1 ∧ packets <+: sendAudioMessage (iterations reads seen (n + 1)) := by
  cases progress with
  | none going | read going | test _ _ going =>
    obtain ⟨within, begins⟩ := going.begins last observes
    exact ⟨Nat.le_succ_of_le within, begins⟩
  | wantLock _ _ passing | logging _ _ passing | sending _ _ passing =>
    exact passing.begins last observes
  | finished ended | joined ended =>
    obtain ⟨within, complete⟩ := ended.complete last observes
    exact ⟨within, complete ▸ List.prefix_rfl⟩

end Observed

/-- The loop frames the audio. Whatever the reads return, when the first last one is at `n`,
and wherever the flag is first seen, its requests are framed; and in every run of a recognizer
whose sender observes this, the log tells of nothing but these requests in their order, and of
all of them by the time that the sender ends. -/
theorem audio_framed (reads : Nat → Int × Bytes) (seen : Nat → Bool) (n : Nat)
    (last : (reads n).1 = -1) (first : ∀ i < n, (reads i).1 ≠ -1) :
    Framed reads seen n (sendAudioMessage (iterations reads seen (n + 1))) ∧
      ∀ (parse : Bytes → Json) (properties : Properties) (labels : List Label) (watched : Watched),
        Execution (Watched.step parse) (fun _ _ => True) { system := System.create properties }
          labels watched →
        watched.Observes reads seen →
        watched.readings.length ≤ n + 1 ∧
          ∃ packets, Logged packets (sinceStarted watched.system.log) ∧
            packets <+: sendAudioMessage (iterations reads seen (n + 1)) ∧
            (watched.system.impl.sendAudioMessageThread = some .finished →
              packets = sendAudioMessage (iterations reads seen (n + 1))) := by
  refine ⟨loop_framed reads seen n last first, ?_⟩
  intro parse properties labels watched execution observes
  have progress := progress_of_execution execution
  obtain ⟨within, begins⟩ := progress.begins last observes
  refine ⟨within, _, logged_attempted _, begins, fun isOver => ?_⟩
  rw [isOver] at progress
  cases progress with
  | finished ended => exact (ended.complete last observes).2

/-- Three reads: a chunk, nothing, and a last chunk. -/
def threeReads : Nat → Int × Bytes
  | 0 => (2, bytes "ab")
  | 1 => (1, [])
  | _ => (-1, bytes "c")

/-- No request of the entries has failed to be sent. -/
def allSent (log : List Event) : Bool :=
  log.all fun
    | .sendFailed _ _ => false
    | _ => true

/-- The sender reads them all in a recognition: two requests carry the audio. -/
theorem three_reads_framed :
    ∃ watched, Execution (Watched.step fun _ => .object []) (fun _ _ => True)
        { system := System.create { connectOnRecognize := true } }
        (firstRecognition 0 { uri := bytes "builtin:slm/general" } ++ handshake ++
          .read 2 (bytes "ab") :: List.replicate 4 (.sender .ok) ++ [.read 1 [], .sender .ok] ++
          .read (-1) (bytes "c") :: List.replicate 4 (.sender .ok)) watched ∧
      Framed threeReads (fun _ => false) 2 (audioSent (sinceStarted watched.system.log)) ∧
      (audioSent (sinceStarted watched.system.log)).flatMap (·.extra) = bytes "abc" := by
  obtain ⟨watched, execution, check⟩ := exists_execution_of_run
    (Watched.step fun _ => .object []) (fun _ _ => True)
    { system := System.create { connectOnRecognize := true } }
    (firstRecognition 0 { uri := bytes "builtin:slm/general" } ++ handshake ++
      .read 2 (bytes "ab") :: List.replicate 4 (.sender .ok) ++ [.read 1 [], .sender .ok] ++
      .read (-1) (bytes "c") :: List.replicate 4 (.sender .ok))
    (fun watched => watched.readings = iterations threeReads (fun _ => false) 3 ∧
      watched.system.impl.sendAudioMessageThread = some .finished ∧
      allSent (sinceStarted watched.system.log) = true) (by decide +kernel)
  obtain ⟨observed, ended, successful⟩ := of_decide_eq_true check
  obtain ⟨framed, runs⟩ := audio_framed threeReads (fun _ => false) 2 rfl (by decide)
  have observes : watched.Observes threeReads fun _ => false := by
    rw [Watched.Observes, observed]
    rfl
  obtain ⟨-, packets, logged, -, complete⟩ := runs _ _ _ watched execution observes
  have sent : audioSent (sinceStarted watched.system.log) =
      sendAudioMessage (iterations threeReads (fun _ => false) 3) := by
    refine (logged.all fun request failed => ?_).trans (complete ended)
    exact absurd (List.all_eq_true.mp successful _ failed) Bool.false_ne_true
  rw [← sent] at framed
  refine ⟨watched, execution, framed, ?_⟩
  rw [framed.lossless fun _ _ => rfl]
  decide

end AudioFraming

end AsrClient
