import AsrClient.Library.Interference
import AsrClient.Server.Conversation

/-!
# The results of a session

The server does not look at the audio. It counts the packets of a connection and sends its
result with the last packet, or with the twentieth when none of them was the last. The
counter then stands behind its end, where only a last packet is answered, so that every last
packet of a session brings one result, and the packets before the first of them bring one
more when there are twenty.
-/

namespace AsrClient

open Interference

namespace UtilityServer

/-- The audio packet that an event brings on a connection: whether it is the last. -/
def packet (hdl : ConnectionHdl) : ServerEvent → Option Bool
  | .message other payload =>
      match WsParser.ofString payload with
      | .ok parser =>
          if other = hdl ∧ parser.command = bytes "SEND_AUDIO" then
            some (parser.props[bytes "LastPacket"]? = some (bytes "true"))
          else none
      | .error _ => none
  | _ => none

/-- The audio packets of a connection, in order. -/
def packets (hdl : ConnectionHdl) (events : List ServerEvent) : List Bool :=
  events.filterMap (packet hdl)

/-- The event ends the session of a connection. -/
def resets (hdl : ConnectionHdl) : ServerEvent → Bool
  | .closed other => other = hdl
  | .message other payload =>
      match WsParser.ofString payload with
      | .ok parser => other = hdl &&
          (parser.command = bytes "CREATE_SESSION" || parser.command = bytes "RELEASE_SESSION")
      | .error _ => false
  | _ => false

/-- The message is a result. -/
def isResult : Reply → Bool
  | .result => true
  | _ => false

/-- The number of results that were sent on a connection. -/
def results (hdl : ConnectionHdl) (sent : List (ServerEvent × Reply)) : Nat :=
  (seen ServerEvent.hdl hdl isResult sent).count true

/-- The results that packets bring when the counter stands at a value: one for each that is the
last, and one if those before it carry the counter to its end. -/
def resultsFrom (counter : Int) (packets : List Bool) : Nat :=
  packets.count true +
    if counter < endRecognize ∧ endRecognize ≤ counter + (packets.takeWhile (!·)).length then 1
    else 0

/-- The counter behind a packet. -/
def counterOf (counter : Int) (last : Bool) : Int :=
  if last then endRecognize else if counter < endRecognize then counter + 1 else counter

/-- The counter behind an event of its connection, and the number of results for it. -/
def countEvent (counter : Int) : Option Bool → Int × Nat
  | none => (counter, 0)
  | some last => ((announce (counterOf counter last)).1,
      if counterOf counter last = endRecognize then 1 else 0)

/-- The counter behind what it makes the server announce. -/
theorem announce_counter (counter : Int) :
    (announce counter).1 = if counter = endRecognize then endRecognize + 1 else counter := by
  by_cases done : counter = endRecognize
  · rw [announce, if_pos done, if_pos done]
  · rw [announce, if_neg done, if_neg done]

/-- A packet brings a result when it carries the counter to its end, and leaves the others to
the counter behind it. -/
theorem results_from_cons (counter : Int) (last : Bool) (packets : List Bool)
    (running : counter ≠ endRecognize) :
    resultsFrom counter (last :: packets) =
      (if counterOf counter last = endRecognize then 1 else 0) +
        resultsFrom (announce (counterOf counter last)).1 packets := by
  have done : endRecognize = 20 := rfl
  cases last with
  | true =>
    have ends : counterOf counter true = endRecognize := rfl
    have leading : (true :: packets).takeWhile (!·) = [] := rfl
    rw [resultsFrom, resultsFrom, ends, announce_counter, if_pos rfl, if_pos rfl,
      List.count_cons_self, leading, List.length_nil]
    simp only [done]
    split_ifs <;> omega
  | false =>
    have count : (false :: packets).count true = packets.count true :=
      List.count_cons_of_ne (by simp)
    have leading : (false :: packets).takeWhile (!·) = false :: packets.takeWhile (!·) := rfl
    have next : counterOf counter false =
        if counter < endRecognize then counter + 1 else counter := rfl
    rw [resultsFrom, resultsFrom, next, announce_counter, count, leading, List.length_cons]
    simp only [done, Nat.cast_add, Nat.cast_one] at running ⊢
    split_ifs <;> omega

/-- The results among what is announced. -/
theorem announce_results (counter : Int) :
    ((announce counter).2.map isResult).count true = if counter = endRecognize then 1 else 0 := by
  rw [announce]
  split_ifs <;> rfl

section Handling

variable {server after : UtilityServer} {event : ServerEvent} {replies : List Reply}
  {counter : Int}

/-- What happens on a connection whose counter runs: its session goes on, and a packet brings a
result when it carries the counter to its end. -/
theorem react_counts (here : server.sessionMap[event.hdl]? = some { audioCounter := some counter })
    (running : counter ≠ endRecognize) (within : resets event.hdl event = false)
    (reacted : server.react event = .ok (after, replies)) :
    after.sessionMap[event.hdl]? =
        some { audioCounter := some (countEvent counter (packet event.hdl event)).1 } ∧
      (replies.map isResult).count true = (countEvent counter (packet event.hdl event)).2 := by
  cases event with
  | opened hdl =>
    cases reacted
    refine ⟨?_, rfl⟩
    have present : hdl ∈ server.sessionMap := by
      rw [← Std.ExtTreeMap.isSome_getElem?_iff_mem]
      exact Option.isSome_of_eq_some here
    show (server.onOpen hdl).sessionMap[hdl]? = some { audioCounter := some counter }
    rw [onOpen, Std.ExtTreeMap.getElem?_insertIfNew, if_neg (fun new => new.2 present)]
    exact here
  | closed hdl => simp [resets, ServerEvent.hdl] at within
  | message hdl payload =>
    obtain ⟨parser, session, read, isHere, handles⟩ := echo_handler_handles reacted
    obtain rfl : { audioCounter := some counter } = session :=
      Option.some.inj (here.symm.trans isHere)
    cases handles with
    | request value noAudio counts =>
      have silent : packet hdl (.message hdl payload) = none := by simp [packet, read, noAudio]
      have going : ¬ (parser.command = bytes "CREATE_SESSION" ∨
          parser.command = bytes "RELEASE_SESSION") := by
        simpa [resets, read, ServerEvent.hdl] using within
      rw [counterBehind, if_neg going] at counts
      obtain rfl : counter = value := Option.some.inj counts
      rw [show ServerEvent.hdl (.message hdl payload) = hdl from rfl, silent]
      refine ⟨(set_counter_frame _ hdl _).1.trans ?_, ?_⟩
      · rw [announce_counter, if_neg running]
        rfl
      · show (false :: (announce counter).2.map isResult).count true = 0
        rw [List.count_cons_of_ne (by simp), announce_results, if_neg running]
    | audio value isAudio counts =>
      obtain rfl : counter = value := Option.some.inj counts
      have isPacket : packet hdl (.message hdl payload) =
          some (decide (parser.props[bytes "LastPacket"]? = some (bytes "true"))) := by
        simp [packet, read, isAudio]
      have counted : (countAudio parser counter).1 =
          counterOf counter (decide (parser.props[bytes "LastPacket"]? = some (bytes "true"))) ∧
          ((countAudio parser counter).2.map isResult).count true = 0 := by
        rw [countAudio, counterOf]
        by_cases last : parser.props[bytes "LastPacket"]? = some (bytes "true")
        · simp [last, isResult]
        · simp [last]
      rw [show ServerEvent.hdl (.message hdl payload) = hdl from rfl, isPacket]
      refine ⟨(set_counter_frame _ hdl _).1.trans ?_, ?_⟩
      · rw [counted.1]
        rfl
      · rw [List.map_append, List.count_append, counted.2, announce_results, counted.1,
          Nat.zero_add]
        rfl

end Handling

/-- The results on a connection whose counter runs, until its session ends. -/
theorem results_of_counter (server : UtilityServer) (hdl : ConnectionHdl)
    (events : List ServerEvent) (after : UtilityServer) (sent : List (ServerEvent × Reply))
    (counter : Int) (here : server.sessionMap[hdl]? = some { audioCounter := some counter })
    (running : counter ≠ endRecognize) (within : ∀ event ∈ events, resets hdl event = false)
    (ran : run react server events = .ok (after, sent)) :
    results hdl sent = resultsFrom counter (packets hdl events) := by
  induction events generalizing server sent counter with
  | nil =>
    cases ran
    simp [results, seen, resultsFrom, packets]
  | cons event events inductionHypothesis =>
    obtain ⟨next, replies, more, reacted, further, rfl⟩ := run_cons ran
    rw [List.forall_mem_cons] at within
    rw [results, seen_append, List.count_append]
    by_cases isOwn : event.hdl = hdl
    · subst isOwn
      obtain ⟨stands, counted⟩ := react_counts here running within.1 reacted
      have still : (countEvent counter (packet event.hdl event)).1 ≠ endRecognize := by
        cases packet event.hdl event with
        | none => exact running
        | some last => exact announce_past _
      rw [if_pos rfl, counted, ← results,
        inductionHypothesis next more _ stands still within.2 further, packets, packets,
        List.filterMap_cons]
      cases packet event.hdl event with
      | none => rw [countEvent, Nat.zero_add]
      | some last => rw [results_from_cons counter last _ running, countEvent]
    · have silent : packet hdl event = none := by
        cases event with
        | message other payload =>
          have apart : other ≠ hdl := isOwn
          rw [packet]
          split <;> simp [apart]
        | _ => rfl
      have stands := (react_others reacted hdl (Ne.symm isOwn)).trans here
      rw [if_neg isOwn, List.count_nil, Nat.zero_add, ← results,
        inductionHypothesis next more counter stands running within.2 further, packets, packets,
        List.filterMap_cons, silent]

/-- Behind a request for a session, whatever the other connections do, the server sends one
result for every last packet of the session, and one more when twenty packets come before the
first of them. -/
theorem session_results (server : UtilityServer) (hdl : ConnectionHdl)
    (events : List ServerEvent) (after : UtilityServer) (sent : List (ServerEvent × Reply))
    (fresh : server.sessionMap[hdl]? = some { audioCounter := some 0 })
    (within : ∀ event ∈ events, resets hdl event = false)
    (ran : run react server events = .ok (after, sent)) :
    results hdl sent = (packets hdl events).count true +
      if 20 ≤ ((packets hdl events).takeWhile (!·)).length then 1 else 0 := by
  rw [results_of_counter server hdl events after sent 0 fresh (by decide) within ran, resultsFrom]
  have done : endRecognize = 20 := rfl
  simp only [done]
  split_ifs <;> omega

/-- Two packets on one connection, with another client between them. -/
def twoPackets : List ServerEvent :=
  [.message 0 (ASRMessageParser.raw (ASRSendMessage.sendAudio 2 (bytes "ab"))), .opened 1,
    .message 1 (ASRMessageParser.raw ASRSendMessage.createSession),
    .message 0 (ASRMessageParser.raw (ASRSendMessage.sendAudio (-1) []))]

/-- They bring one result. -/
theorem two_packets_one_result :
    ∃ after sent, run react ((({} : UtilityServer).onOpen 0).setCounter 0 0) twoPackets =
        .ok (after, sent) ∧
      results 0 sent = (packets 0 twoPackets).count true +
        if 20 ≤ ((packets 0 twoPackets).takeWhile (!·)).length then 1 else 0 := by
  obtain ⟨⟨after, sent⟩, ran, -⟩ := exists_of_any
    (run react ((({} : UtilityServer).onOpen 0).setCounter 0 0) twoPackets) (fun _ => true)
    (by decide +kernel)
  exact ⟨after, sent, ran, session_results _ 0 twoPackets after sent
    (set_counter_frame (({} : UtilityServer).onOpen 0) 0 0).1 (by decide +kernel) ran⟩

end UtilityServer

end AsrClient
