import AsrClient.Library.Interference
import AsrClient.Server.Conversation

/-!
# The connections of the mock server

The server keeps one status of the session and one set of parameters for all connections,
and a counter for each. A client that does not ask for the parameters can tell the others
from what it is sent by the status alone: every other byte of the answers, the announcements
of speech and the results are those that it would get from a server of its own.
-/

namespace AsrClient

open Interference WsParser

namespace UtilityServer

/-- The event is a request for parameters. -/
def ServerEvent.asksParameters : ServerEvent → Bool
  | .message _ payload =>
      match WsParser.ofString payload with
      | .ok parser => parser.command = bytes "GET_PARAMETERS"
      | .error _ => false
  | _ => false

/-- A package without the status of the session. -/
def withoutStatus (package : WsParser) : WsParser :=
  { package with props := package.props.erase (bytes "Session-Status") }

/-- A message without the status of the session. -/
def blind : Reply → Reply
  | .response package => .response (withoutStatus package)
  | reply => reply

/-- The packages differ in the status of the session at most. -/
structure SameBut (p q : WsParser) : Prop where
  rest : { p with props := ∅ } = { q with props := ∅ }
  headers : ∀ key, key ≠ bytes "Session-Status" → p.props[key]? = q.props[key]?

/-- Such packages are the same without it. -/
theorem SameBut.withoutStatus_eq {p q : WsParser} (same : SameBut p q) :
    withoutStatus p = withoutStatus q := by
  have props : p.props.erase (bytes "Session-Status") = q.props.erase (bytes "Session-Status") := by
    apply Std.ExtTreeMap.ext_getElem?
    intro key
    rw [Std.ExtTreeMap.getElem?_erase, Std.ExtTreeMap.getElem?_erase]
    split_ifs with isStatus
    · rfl
    · exact same.headers key fun equal => isStatus (Std.compare_eq_iff_eq.mpr equal.symm)
  have rest := same.rest
  cases p
  cases q
  simp only [WsParser.mk.injEq] at rest
  simp only [withoutStatus, WsParser.mk.injEq]
  tauto

/-- One more header on both sides leaves them so. -/
theorem SameBut.add {p q : WsParser} (same : SameBut p q) (key value : Bytes)
    (other : key ≠ bytes "Session-Status") : SameBut (p.add key value) (q.add key value) where
  rest := same.rest
  headers key' apart := by
    have member : key ∈ p.props ↔ key ∈ q.props := by
      rw [← Std.ExtTreeMap.isSome_getElem?_iff_mem, ← Std.ExtTreeMap.isSome_getElem?_iff_mem,
        same.headers key other]
    rw [add_getElem, add_getElem, same.headers key' apart]
    simp only [member]

/-- The beginnings of two responses differ in the status at most. -/
theorem begin_response_same (pp : WsParser) (version status status' : Bytes) :
    SameBut (beginResponse pp version status) (beginResponse pp version status') where
  rest := rfl
  headers key apart := by
    rw [beginResponse, beginResponse, add_other _ _ _ _ apart.symm, add_other _ _ _ _ apart.symm]

/-- So do two responses to the same request, unless it is one for parameters. -/
theorem respond_same (server server' : UtilityServer) (pp : WsParser) (version : Bytes)
    (other : pp.command ≠ bytes "GET_PARAMETERS") :
    SameBut (server.respond pp version).2 (server'.respond pp version).2 := by
  have begins := begin_response_same pp version (server.listen pp).sessionStatus
    (server'.listen pp).sessionStatus
  have keys : bytes "InvalidParam" ≠ bytes "Session-Status" ∧
      bytes "Method" ≠ bytes "Session-Status" ∧ bytes "Handle" ≠ bytes "Session-Status" := by decide
  have ends {p q : WsParser} (same : SameBut p q) :
      SameBut (endResponse pp p) (endResponse pp q) :=
    (same.add _ _ keys.2.1).add _ _ keys.2.2
  rw [respond, respond]
  split_ifs
  · exact ends begins
  · exact ends (begins.add _ _ keys.1)
  · exact ends begins
  · exact ends begins

/-- What a connection sees of the server is its own session. -/
def sight (hdl : ConnectionHdl) :
    Sight react ServerEvent.hdl hdl (fun event => event.asksParameters = false) blind where
  alike server other := server.sessionMap[hdl]? = other.sessionMap[hdl]?
  unseen server other event after replies alike apart reacted :=
    (react_others reacted hdl apart.symm).trans alike
  consistent server other event after replies alike isOwn allowed reacted := by
    obtain rfl := isOwn
    cases event with
    | opened hdl =>
      cases reacted
      refine ⟨_, _, rfl, ?_, rfl⟩
      have member : hdl ∈ server.sessionMap ↔ hdl ∈ other.sessionMap := by
        rw [← Std.ExtTreeMap.isSome_getElem?_iff_mem, ← Std.ExtTreeMap.isSome_getElem?_iff_mem]
        exact iff_of_eq (congrArg (·.isSome = true) alike)
      show (server.onOpen hdl).sessionMap[hdl]? = (other.onOpen hdl).sessionMap[hdl]?
      rw [onOpen, onOpen, Std.ExtTreeMap.getElem?_insertIfNew, Std.ExtTreeMap.getElem?_insertIfNew,
        show server.sessionMap[hdl]? = other.sessionMap[hdl]? from alike]
      simp only [member]
    | closed hdl =>
      cases reacted
      refine ⟨_, _, rfl, ?_, rfl⟩
      show (server.onClose hdl).sessionMap[hdl]? = (other.onClose hdl).sessionMap[hdl]?
      rw [onClose, onClose, Std.ExtTreeMap.getElem?_erase_self, Std.ExtTreeMap.getElem?_erase_self]
    | message hdl payload =>
      have same : server.sessionMap[hdl]? = other.sessionMap[hdl]? := alike
      obtain ⟨parser, session, read, here, handles⟩ := echo_handler_handles reacted
      have counted : (counterBehind parser.command session.audioCounter).isSome = true := by
        cases handles with
        | request counter noAudio value => rw [value, Option.isSome_some]
        | audio counter isAudio value =>
          rw [isAudio, counterBehind, if_neg (by decide), value, Option.isSome_some]
      obtain ⟨after', replies', reacted'⟩ :=
        echo_handler_ok other hdl payload parser session read (same ▸ here) counted
      obtain ⟨parser', session', read', here', handles'⟩ := echo_handler_handles reacted'
      obtain rfl : parser = parser' := Except.ok.inj (read.symm.trans read')
      obtain rfl : session = session' :=
        Option.some.inj ((here.symm.trans same).trans here')
      have notGet : parser.command ≠ bytes "GET_PARAMETERS" := by
        simpa [ServerEvent.asksParameters, read] using allowed
      refine ⟨after', replies', reacted', ?_⟩
      cases handles with
      | request counter noAudio value =>
        cases handles' with
        | request counter' _ value' =>
          obtain rfl : counter = counter' := Option.some.inj (value.symm.trans value')
          refine ⟨((set_counter_frame _ hdl _).1).trans ((set_counter_frame _ hdl _).1).symm, ?_⟩
          rw [List.map_cons, List.map_cons, blind, blind,
            (respond_same server other parser (bytes "2.4") notGet).withoutStatus_eq]
        | audio counter' isAudio => exact absurd isAudio noAudio
      | audio counter isAudio value =>
        cases handles' with
        | request counter' noAudio => exact absurd isAudio noAudio
        | audio counter' _ value' =>
          obtain rfl : counter = counter' := Option.some.inj (value.symm.trans value')
          exact ⟨((set_counter_frame _ hdl _).1).trans ((set_counter_frame _ hdl _).1).symm, rfl⟩

/-- What the server sends on a connection that does not ask for the parameters is, but for the
status of the session, what it would send if there were no other connection. -/
theorem connections_independent (hdl : ConnectionHdl) (events : List ServerEvent)
    (noParameters : ∀ event ∈ events, event.hdl = hdl → event.asksParameters = false)
    (after : UtilityServer) (sent : List (ServerEvent × Reply))
    (ran : run react {} events = .ok (after, sent)) :
    ∃ after' sent', run react {} (events.filter (·.hdl = hdl)) = .ok (after', sent') ∧
      after.sessionMap[hdl]? = after'.sessionMap[hdl]? ∧
      seen ServerEvent.hdl hdl blind sent = seen ServerEvent.hdl hdl blind sent' :=
  sent_alone (sight hdl) events noParameters {} {} after sent rfl ran

/-- Two clients ask for a session and start a recognition on connections of their own, one
inside the other. -/
def twoClients : List ServerEvent :=
  let message (c : Method) : Bytes := ASRMessageParser.raw (ASRMessageRequest.create c)
  [.opened 0, .opened 1, .message 0 (message .createSession), .message 1 (message .createSession),
    .message 1 (message .startRecognition), .message 0 (message .startRecognition), .closed 1,
    .message 0 (message .cancelRecognition)]

/-- The first of them is served as if it were alone. -/
theorem first_client_independent :
    ∃ after sent after' sent', run react {} twoClients = .ok (after, sent) ∧
      run react {} (twoClients.filter (·.hdl = 0)) = .ok (after', sent') ∧
      after.sessionMap[0]? = after'.sessionMap[0]? ∧
      seen ServerEvent.hdl 0 blind sent = seen ServerEvent.hdl 0 blind sent' := by
  obtain ⟨⟨after, sent⟩, ran, -⟩ := exists_of_any (run react {} twoClients) (fun _ => true)
    (by decide +kernel)
  obtain ⟨after', sent', alone⟩ := connections_independent 0 twoClients (by decide +kernel) after
    sent ran
  exact ⟨after, sent, after', sent', ran, alone⟩

end UtilityServer

end AsrClient
