import AsrClient.Library.Interference
import AsrClient.RejectedLines
import AsrClient.Server.Conversation

/-!
# The parameters of the mock server

The server keeps the last request that has set parameters, on whatever connection, and
reports from it what a request asks for. The value that it reports is declared in front of the
loop over the requested keys. A key that was set is reported with its value, and a key that
was not with the value of the greatest key in front of it that was, of those that are
requested as well.

The keys and values are words, since they have been read, so that the client can read them
back. It may not ask for the length of the body, which the response does not have.
-/

namespace AsrClient

open Interference TokenStream WsParser

namespace UtilityServer

/-- The parameters that an event sets. -/
def setsParameters : ServerEvent → Option WsParser
  | .message _ payload =>
      match WsParser.ofString payload with
      | .ok parser => if parser.command = bytes "SET_PARAMETERS" then some parser else none
      | .error _ => none
  | _ => none

/-- The parameters that were set last. -/
def latestSet (events : List ServerEvent) : WsParser :=
  (events.filterMap setsParameters).getLast?.getD {}

/-- The headers that every response has before the parameters. -/
def ownHeaders : List Bytes :=
  [bytes "Message", bytes "Error-Code", bytes "Result", bytes "Session-Status"]

/-- The value that is reported for a requested key: of the requested keys up to this one, the
last that is stored has it. -/
def reported (stored requested : HeaderMap) (key : Bytes) : Bytes :=
  ((requested.keys.filter fun other =>
    (compare other key).isLE).filterMap (stored[·]?)).getLast?.getD []

section Reporting

variable {stored p : WsParser} {value key : Bytes}

/-- A header that is there stays as it is. -/
theorem add_present (package : WsParser) (key value other : Bytes)
    (present : other ∈ package.props) :
    other ∈ (package.add key value).props ∧
      (package.add key value).props[other]? = package.props[other]? := by
  refine ⟨(mem_add package key value other).mpr (Or.inr present), ?_⟩
  rw [add_getElem, if_neg]
  rintro ⟨rfl, new⟩
  exact new present

/-- The loop leaves the headers that are there. -/
theorem report_params_present (pars : List (Bytes × Bytes)) (present : key ∈ p.props) :
    (reportParams stored pars value p).props[key]? = p.props[key]? := by
  induction pars generalizing value p with
  | nil => rfl
  | cons par pars inductionHypothesis =>
    obtain ⟨still, same⟩ := add_present p par.1 (stored.props[par.1]?.getD value) key present
    rw [reportParams, inductionHypothesis still, same]

/-- A new key is reported with the value that the loop has found up to it. -/
theorem report_params_new (before rest : List (Bytes × Bytes)) (par : Bytes × Bytes)
    (apart : ∀ other ∈ before, other.1 ≠ par.1) (new : par.1 ∉ p.props) :
    (reportParams stored (before ++ par :: rest) value p).props[par.1]? =
      some (((before ++ [par]).filterMap (stored.props[·.1]?)).getLast?.getD value) := by
  rw [← foldl_latest]
  induction before generalizing value p with
  | nil =>
    have added := add_new p par.1 (stored.props[par.1]?.getD value) new
    have present : par.1 ∈ (p.add par.1 (stored.props[par.1]?.getD value)).props :=
      (mem_add _ _ _ _).mpr (Or.inl rfl)
    rw [List.nil_append, reportParams, report_params_present rest present, added]
    rfl
  | cons first before inductionHypothesis =>
    rw [List.forall_mem_cons] at apart
    have still : par.1 ∉ (p.add first.1 (stored.props[first.1]?.getD value)).props := by
      rw [mem_add, not_or]
      exact ⟨apart.1, new⟩
    rw [List.cons_append, reportParams, inductionHypothesis apart.2 still, List.cons_append,
      List.foldl_cons]

/-- The requested keys up to one of them are those in front of it and itself. -/
theorem keys_up_to (requested : HeaderMap) (before rest : List (Bytes × Bytes))
    (par : Bytes × Bytes)
    (whole : requested.toList = before ++ par :: rest) :
    (requested.keys.filter fun other => (compare other par.1).isLE) =
      (before ++ [par]).map (·.1) := by
  have ordered := requested.ordered_keys_toList
  rw [whole, List.pairwise_append, List.pairwise_cons] at ordered
  obtain ⟨-, ⟨behind, -⟩, front⟩ := ordered
  rw [← Std.ExtTreeMap.map_fst_toList_eq_keys, whole, List.map_append, List.map_cons,
    List.filter_append, List.filter_cons_of_pos (by simp), List.filter_eq_self.mpr,
    List.filter_eq_nil_iff.mpr, List.map_append, List.map_singleton]
  · intro other member
    obtain ⟨header, isHeader, rfl⟩ := List.mem_map.mp member
    have later := behind header isHeader
    rw [← Std.OrientedCmp.gt_iff_lt] at later
    simp [later]
  · intro other member
    obtain ⟨header, isHeader, rfl⟩ := List.mem_map.mp member
    simp [front header isHeader par (by simp)]

/-- Every requested key that is not among the headers of the response is reported. -/
theorem report_params_reported (stored p : WsParser) (requested : HeaderMap)
    (asked : key ∈ requested) (new : key ∉ p.props) :
    (reportParams stored requested.toList [] p).props[key]? =
      some (reported stored.props requested key) := by
  obtain ⟨text, entry⟩ :=
    Option.isSome_iff_exists.mp (Std.ExtTreeMap.mem_iff_isSome_getElem?.mp asked)
  obtain ⟨before, rest, whole⟩ :=
    List.append_of_mem (Std.ExtTreeMap.mem_toList_iff_getElem?_eq_some.mpr entry)
  have apart : ∀ other ∈ before, other.1 ≠ key := by
    have distinct := requested.distinct_keys_toList
    rw [whole, List.pairwise_append] at distinct
    intro other member same
    exact distinct.2.2 other member (key, text) (by simp) (Std.compare_eq_iff_eq.mpr same)
  have upTo := keys_up_to requested before rest (key, text) whole
  rw [whole, report_params_new before rest (key, text) apart new, reported, upTo,
    List.filterMap_map]
  rfl

/-- The loop keeps a package of words: what it reports was stored, or is empty. -/
theorem report_params_speakable (stored : WsParser) (pars : List (Bytes × Bytes))
    (speakable : Speakable p)
    (keys : ∀ par ∈ pars, KeyWord par.1 ∧ par.1 ≠ bytes "Content-Length")
    (values : ∀ key value : Bytes, stored.props[key]? = some value → value = [] ∨ ValueWord value)
    (text : value = [] ∨ ValueWord value) :
    Speakable (reportParams stored pars value p) := by
  induction pars generalizing value p with
  | nil => exact speakable
  | cons par pars inductionHypothesis =>
    rw [List.forall_mem_cons] at keys
    obtain ⟨⟨keyWord, other⟩, others⟩ := keys
    have next : stored.props[par.1]?.getD value = [] ∨
        ValueWord (stored.props[par.1]?.getD value) := by
      cases found : stored.props[par.1]? with
      | none => exact text
      | some otherValue => exact values par.1 otherValue found
    exact inductionHypothesis (speakable.add par.1 _ keyWord next other) others next

/-- The loop leaves the title. -/
theorem report_params_title (stored : WsParser) (value : Bytes) (p : WsParser)
    (pars : List (Bytes × Bytes)) :
    (reportParams stored pars value p).version = p.version ∧
      (reportParams stored pars value p).command = p.command := by
  induction pars generalizing value p with
  | nil => exact ⟨rfl, rfl⟩
  | cons par pars inductionHypothesis => exact inductionHypothesis _ _

/-- A key that was set is reported with its own value. -/
theorem reported_stored {stored requested : HeaderMap} {key value : Bytes} (asked : key ∈ requested)
    (entry : stored[key]? = some value) : reported stored requested key = value := by
  obtain ⟨text, isAsked⟩ :=
    Option.isSome_iff_exists.mp (Std.ExtTreeMap.mem_iff_isSome_getElem?.mp asked)
  obtain ⟨before, rest, whole⟩ :=
    List.append_of_mem (Std.ExtTreeMap.mem_toList_iff_getElem?_eq_some.mpr isAsked)
  have upTo := keys_up_to requested before rest (key, text) whole
  rw [reported, upTo, List.map_append, List.filterMap_append, List.map_singleton,
    List.filterMap_cons_some entry, List.filterMap_nil, List.getLast?_concat, Option.getD_some]

/-- The loop reports nothing but what is requested. -/
theorem report_params_keys (pars : List (Bytes × Bytes)) (other : Bytes)
    (member : other ∈ (reportParams stored pars value p).props) :
    other ∈ p.props ∨ ∃ par ∈ pars, par.1 = other := by
  induction pars generalizing value p with
  | nil => exact Or.inl member
  | cons par pars inductionHypothesis =>
    rcases inductionHypothesis member with former | ⟨found, isPar, same⟩
    · rcases (mem_add _ _ _ _).mp former with same | former
      · exact Or.inr ⟨par, List.mem_cons_self, same⟩
      · exact Or.inl former
    · exact Or.inr ⟨found, List.mem_cons_of_mem _ isPar, same⟩

end Reporting

section Keeping

variable {server after : UtilityServer} {replies : List Reply}

/-- The parameters behind a response: a request that sets them is kept as it was read. -/
theorem respond_stores (server : UtilityServer) (pp : WsParser) (version : Bytes) :
    (server.respond pp version).1.parser =
      if pp.command = bytes "SET_PARAMETERS" then pp else server.parser := by
  have listens : (server.listen pp).parser = server.parser := by
    rw [listen]
    split_ifs <;> rfl
  have marked (invalid : bytes "InvalidParam" ∈ pp.props) :
      pp.add (bytes "InvalidParam") (bytes "ERR_INVALID_PARAMETER") = pp := by
    rw [add, ← (insert_same_iff _ _ _).mpr invalid]
  have distinct : bytes "SET_PARAMETERS" ≠ bytes "CREATE_SESSION" ∧
      bytes "SET_PARAMETERS" ≠ bytes "GET_PARAMETERS" := by decide
  by_cases sets : pp.command = bytes "SET_PARAMETERS"
  · rw [respond, if_pos sets, if_neg (by rw [sets]; exact distinct.1),
      if_neg (by rw [sets]; exact distinct.2), if_pos sets]
    split_ifs with invalid
    · exact marked invalid
    · rfl
  · rw [respond, if_neg sets, if_neg sets]
    split_ifs <;> exact listens

/-- Behind every event the server keeps the parameters that it sets, or those from before. -/
theorem react_stores {event : ServerEvent} (reacted : server.react event = .ok (after, replies)) :
    after.parser = (setsParameters event).getD server.parser := by
  cases event with
  | opened hdl =>
    cases reacted
    rfl
  | closed hdl =>
    cases reacted
    rfl
  | message hdl payload =>
    obtain ⟨parser, session, read, -, handles⟩ := echo_handler_handles reacted
    rw [setsParameters, read]
    cases handles with
    | request counter =>
      refine (respond_stores server parser (bytes "2.4")).trans ?_
      split_ifs with sets
      · simp only [if_pos sets, Option.getD_some]
      · simp only [if_neg sets, Option.getD_none]
    | audio counter isAudio =>
      have other : ¬ parser.command = bytes "SET_PARAMETERS" := by
        rw [isAudio]
        decide
      simp only [if_neg other, Option.getD_none]
      rfl

/-- The parameters that were set last have been read. -/
theorem latest_set_well_read (events : List ServerEvent) : WellRead (latestSet events) := by
  have start : WellRead {} := ⟨Or.inl rfl, Or.inl rfl, by simp, by simp, by simp, by simp⟩
  rw [latestSet]
  cases latest : (events.filterMap setsParameters).getLast? with
  | none => exact start
  | some parser =>
    obtain ⟨event, -, sets⟩ := List.mem_filterMap.mp (List.mem_of_getLast? latest)
    cases event with
    | opened hdl => cases sets
    | closed hdl => cases sets
    | message hdl payload =>
      cases read : WsParser.ofString payload with
      | error thrown => simp [setsParameters, read] at sets
      | ok other =>
        simp only [setsParameters, read, Option.ite_none_right_eq_some] at sets
        obtain ⟨-, same⟩ := sets
        exact Option.some.inj same ▸ (of_string_well_read payload other read).1

end Keeping

section Answering

/-- The headers of a response before the parameters are the server's own. -/
theorem begin_response_keys (pp : WsParser) (version status key : Bytes) :
    key ∈ (beginResponse pp version status).props ↔ key ∈ ownHeaders := by
  simp only [beginResponse, mem_add, ownHeaders, List.mem_cons, List.not_mem_nil, setVersion,
    setCmd, Std.ExtTreeMap.not_mem_empty, or_false, eq_comm (b := key)]
  tauto

/-- What a client reads of the response to a request for parameters: every requested one as the
server has reported it, and nothing but these and the headers of every response. -/
structure ReportsParameters (stored requested : HeaderMap) (decoded : ASRMessageResponse) :
    Prop where
  reported : ∀ key ∈ requested, key ∉ ownHeaders →
    decoded.headers[key]? = some (reported stored requested key)
  others : ∀ key ∈ decoded.headers,
    key ∈ ownHeaders ∨ key ∈ requested ∨ key = bytes "Method" ∨ key = bytes "Handle"

/-- The client reads the response to a request for parameters back. -/
theorem get_parameters_decoded (server : UtilityServer) (request : WsParser)
    (named : server.NamesStatus) (asks : request.command = bytes "GET_PARAMETERS")
    (wellRead : WellRead request) (noLength : bytes "Content-Length" ∉ request.props)
    (stored : WellRead server.parser) :
    ∃ decoded, ASRMessageResponse.consume
        (Reply.response (server.respond request (bytes "2.4")).2).wire = .ok decoded ∧
      ReportsParameters server.parser.props request.props decoded := by
  have apart : bytes "GET_PARAMETERS" ≠ bytes "START_RECOGNITION" ∧
      bytes "GET_PARAMETERS" ≠ bytes "CREATE_SESSION" := by decide
  have listens : server.listen request = server := by
    rw [listen, if_neg (by rw [asks]; exact apart.1)]
  have whole : (server.respond request (bytes "2.4")).2 = endResponse request
      (reportParams server.parser request.props.toList []
        (beginResponse request (bytes "2.4") server.sessionStatus)) := by
    rw [respond, listens, if_neg (by rw [asks]; exact apart.2), if_pos asks]
  have reports := report_params_speakable server.parser request.props.toList
    (begin_response_speakable request (bytes "2.4") server.sessionStatus named)
    (fun par member => ⟨(wellRead.header par member).1, fun isLength => noLength (by
      rw [Std.ExtTreeMap.mem_iff_isSome_getElem?, ← isLength,
        Std.ExtTreeMap.mem_toList_iff_getElem?_eq_some.mp member]
      rfl)⟩)
    stored.values (Or.inl rfl)
  have word : ValueWord request.command := by
    rw [asks]
    exact ⟨⟨_, _, rfl, by decide⟩, List.all_eq_true.mp (by decide), by decide⟩
  have ends := end_response_speakable request reports (Or.inr word)
  obtain ⟨version, command⟩ := report_params_title server.parser []
    (beginResponse request (bytes "2.4") server.sessionStatus) request.props.toList
  have words : KeyWord (bytes "2.4") ∧ KeyWord (bytes "RESPONSE") :=
    ⟨⟨by decide, List.all_eq_true.mp (by decide), by decide⟩,
      ⟨by decide, List.all_eq_true.mp (by decide), by decide⟩⟩
  have versionWord := (congrArg KeyWord version).mpr words.1
  have commandWord := (congrArg KeyWord command).mpr words.2
  rw [whole, Reply.wire, c_str_free _ (ends.str_free versionWord commandWord),
    consume_str _ (ends.encodable versionWord commandWord)]
  refine ⟨_, rfl, fun key asked other => ?_, fun key member => ?_⟩
  · have isReported := report_params_reported server.parser
      (beginResponse request (bytes "2.4") server.sessionStatus) request.props asked
      (fun own => other ((begin_response_keys _ _ _ key).mp own))
    have present : key ∈ (reportParams server.parser request.props.toList []
        (beginResponse request (bytes "2.4") server.sessionStatus)).props := by
      rw [Std.ExtTreeMap.mem_iff_isSome_getElem?, isReported]
      rfl
    obtain ⟨still, same⟩ := add_present _ (bytes "Method") request.command key present
    show (endResponse request _).props[key]? = _
    rw [endResponse, (add_present _ (bytes "Handle") _ key still).2, same, isReported]
  · have inResponse : key ∈ (endResponse request (reportParams server.parser request.props.toList []
        (beginResponse request (bytes "2.4") server.sessionStatus))).props := member
    rw [endResponse, mem_add, mem_add] at inResponse
    rcases inResponse with handle | method | former
    · exact Or.inr (Or.inr (Or.inr handle.symm))
    · exact Or.inr (Or.inr (Or.inl method.symm))
    · rcases report_params_keys _ key former with own | ⟨par, isPar, same⟩
      · exact Or.inl ((begin_response_keys _ _ _ key).mp own)
      · refine Or.inr (Or.inl ?_)
        rw [Std.ExtTreeMap.mem_iff_isSome_getElem?, ← same,
          Std.ExtTreeMap.mem_toList_iff_getElem?_eq_some.mp isPar]
        rfl

/-- Behind any events, a request for parameters is answered from those that were set last. -/
theorem run_get_parameters {events : List ServerEvent} {hdl : ConnectionHdl} {payload : Bytes}
    {request : WsParser} {after : UtilityServer} {sent : List (ServerEvent × Reply)}
    (read : WsParser.ofString payload = .ok request)
    (asks : request.command = bytes "GET_PARAMETERS")
    (noLength : bytes "Content-Length" ∉ request.props)
    (ran : run react {} (events ++ [.message hdl payload]) = .ok (after, sent)) :
    ∃ before response behind decoded,
      sent = before ++ (.message hdl payload, .response response) :: behind ∧
      ASRMessageResponse.consume (Reply.response response).wire = .ok decoded ∧
      ReportsParameters (latestSet events).props request.props decoded := by
  obtain ⟨middle, before, last, first, second, rfl⟩ := run_append ran
  obtain ⟨final, replies, none, reacted, ended, rfl⟩ := run_cons second
  cases ended
  have kept : middle.parser = latestSet events :=
    run_keeps_latest UtilityServer.parser setsParameters (fun _ _ _ _ => react_stores) first
  have named : middle.NamesStatus :=
    run_invariant first NamesStatus List.mem_cons_self
      (fun _ _ _ _ _ named reacted => react_named named reacted)
  obtain ⟨parser, session, isRead, -, handles⟩ := echo_handler_handles reacted
  obtain rfl : request = parser := Except.ok.inj (read.symm.trans isRead)
  have noAudio : ¬ request.command = bytes "SEND_AUDIO" := by
    rw [asks]
    decide
  cases handles with
  | audio counter isAudio => exact absurd isAudio noAudio
  | request counter =>
    obtain ⟨decoded, consumed, reports⟩ := get_parameters_decoded middle request named asks
      (of_string_well_read payload request read).1 noLength (kept ▸ latest_set_well_read events)
    rw [kept] at reports
    exact ⟨before, _, _, decoded, rfl, consumed, reports⟩

/-- Whatever has happened on whatever connections, a client that asks for parameters reads the
values that were set last: of every requested key that was set its own, and of another one the
value of the greatest requested key in front of it that was set. -/
theorem parameters_reported (events : List ServerEvent) (hdl : ConnectionHdl) (payload : Bytes)
    (request : WsParser) (after : UtilityServer) (sent : List (ServerEvent × Reply))
    (read : WsParser.ofString payload = .ok request)
    (asks : request.command = bytes "GET_PARAMETERS")
    (noLength : bytes "Content-Length" ∉ request.props)
    (ran : run react {} (events ++ [.message hdl payload]) = .ok (after, sent)) :
    ∃ before response behind decoded,
      sent = before ++ (.message hdl payload, .response response) :: behind ∧
      ASRMessageResponse.consume (Reply.response response).wire = .ok decoded ∧
      ReportsParameters (latestSet events).props request.props decoded ∧
      ∀ key ∈ request.props, key ∉ ownHeaders → ∀ value,
        (latestSet events).props[key]? = some value → decoded.headers[key]? = some value := by
  obtain ⟨before, response, behind, decoded, whole, consumed, reports⟩ :=
    run_get_parameters read asks noLength ran
  refine ⟨before, response, behind, decoded, whole, consumed, reports,
    fun key asked other value entry => ?_⟩
  rw [reports.reported key asked other, reported_stored asked entry]

/-- One client sets two parameters, and the other has a session of its own. -/
def oneSets : List ServerEvent :=
  [.opened 0, .opened 1, .message 0 (ASRMessageParser.raw ASRSendMessage.createSession),
    .message 1 (ASRMessageParser.raw ASRSendMessage.createSession),
    .message 0 (bytes "ASR 2.4 SET_PARAMETERS\r\na:1\r\nc:3\r\n\r\n")]

/-- The other asks for these, and for one between them. -/
def threeAsked : Bytes := bytes "ASR 2.4 GET_PARAMETERS\r\na:\r\nb:\r\nc:\r\n\r\n"

/-- It reads the two values, and the first of them for the third parameter. -/
theorem other_client_reads :
    ∃ response decoded, ASRMessageResponse.consume (Reply.response response).wire = .ok decoded ∧
      decoded.headers[bytes "a"]? = some (bytes "1") ∧
      decoded.headers[bytes "b"]? = some (bytes "1") ∧
      decoded.headers[bytes "c"]? = some (bytes "3") := by
  obtain ⟨request, read, checked⟩ := exists_of_any (WsParser.ofString threeAsked)
    (fun request => request.command = bytes "GET_PARAMETERS" ∧
      bytes "Content-Length" ∉ request.props ∧
      (bytes "a" ∈ request.props ∧ bytes "b" ∈ request.props ∧ bytes "c" ∈ request.props) ∧
      reported (latestSet oneSets).props request.props (bytes "b") = bytes "1" ∧
      (latestSet oneSets).props[bytes "a"]? = some (bytes "1") ∧
      (latestSet oneSets).props[bytes "c"]? = some (bytes "3")) (by decide +kernel)
  obtain ⟨asks, noLength, ⟨asksA, asksB, asksC⟩, between, first, last⟩ := of_decide_eq_true checked
  obtain ⟨⟨after, sent⟩, ran, -⟩ := exists_of_any
    (run react {} (oneSets ++ [.message 1 threeAsked])) (fun _ => true) (by decide +kernel)
  obtain ⟨before, response, behind, decoded, -, consumed, reports, values⟩ :=
    parameters_reported oneSets 1 threeAsked request after sent read asks noLength ran
  refine ⟨response, decoded, consumed, values _ asksA (by decide) _ first, ?_,
    values _ asksC (by decide) _ last⟩
  rw [reports.reported _ asksB (by decide), between]

end Answering

end UtilityServer

end AsrClient
