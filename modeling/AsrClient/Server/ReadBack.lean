import AsrClient.Exchange.Legible
import AsrClient.Server.Parameters

/-!
# The settings of a client, read back from the mock server

A configuration is sent as the headers of a request for parameters, the server stores them, and
a request that asks for them is answered from what is stored. The configuration that the answer
stands for is the one that was sent, up to the parameters that are not enabled.

The texts of the configuration are words, since a line with another text is rejected. The answer
has to ask for every parameter that was sent. It may ask for others, but the server reports for
such a one the value of the last parameter in front of it that was sent, so that there may be
none.
-/

namespace AsrClient

open Interference WsParser

namespace RecognitionConfig

/-- The texts of a configuration are empty or words. -/
structure Worded (config : RecognitionConfig) : Prop where
  account : config.accountTag = [] ∨ ValueWord config.accountTag
  channel : config.channelIdentifier = [] ∨ ValueWord config.channelIdentifier
  media : config.mediaType = [] ∨ ValueWord config.mediaType

/-- What is sent for a parameter is empty or a word. -/
theorem Worded.sent {config : RecognitionConfig} (worded : config.Worded) (row : Parameter) :
    (config.sent row).2 = [] ∨ ValueWord (config.sent row).2 := by
  have number (value : UInt32) : (sentNumber value).2 = [] ∨ ValueWord (sentNumber value).2 :=
    Or.inr (decimal_value value.toNat)
  have switch : ValueWord (bytes "true") :=
    ⟨⟨_, _, rfl, by decide⟩, List.all_eq_true.mp (by decide), by decide⟩
  cases row with
  | noInputTimeoutEnabled | recognitionTimeoutEnabled | startInputTimers =>
    exact Or.inr (decimal_value 1)
  | inferAgeEnabled | inferEmotionEnabled | inferGenderEnabled | continuousMode
  | verifyBufferUtterance => exact Or.inr switch
  | accountTag => exact worded.account
  | channelIdentifier => exact worded.channel
  | mediaType => exact worded.media
  | _ => exact number _

/-- The name of a parameter on the wire is a word, and none of the headers of every response. -/
theorem header_word (row : Parameter) :
    KeyWord (bytes row.header) ∧ bytes row.header ≠ bytes "Content-Length" ∧
      bytes row.header ∉ UtilityServer.ownHeaders ∧ bytes row.header ≠ bytes "Method" ∧
      bytes row.header ≠ bytes "Handle" := by
  have word : KeyWord (bytes row.header) := by
    cases row <;> exact ⟨by decide, List.all_eq_true.mp (by decide), by decide⟩
  refine ⟨word, ?_⟩
  cases row <;> decide

/-- The request for the parameters of such a configuration is within the alphabet. -/
theorem Worded.codable {config : RecognitionConfig} (worded : config.Worded) :
    Codable (ASRSendMessage.setParameters config) := by
  have added (rows : List Parameter) (request : ASRMessageRequest) (codable : Codable request) :
      Codable (rows.foldl config.addParameter request) := by
    induction rows generalizing request with
    | nil => exact codable
    | cons row rows inductionHypothesis =>
      apply inductionHypothesis
      rw [addParameter, ASRSendMessage.headerIf]
      split_ifs
      · obtain ⟨word, other, -⟩ := header_word row
        exact codable.setHeader _ _ word (worded.sent row) other
      · exact codable
  rw [set_parameters_fold]
  exact added _ _ (create_codable .setParameters)

/-- A configuration is read from the texts of its headers alone, where a missing one is empty. -/
theorem decode_congr {headers headers' : HeaderMap}
    (same : ∀ row : Parameter,
      headers[bytes row.header]?.getD [] = headers'[bytes row.header]?.getD []) :
    decode headers = decode headers' := by
  have number (row : Parameter) : readNumber headers row = readNumber headers' row := by
    rw [readNumber, same row, readNumber]
  have text (row : Parameter) : readText headers row = readText headers' row := same row
  have spelled (headers : HeaderMap) (key word : Bytes) (nonempty : word ≠ []) :
      headers[key]? = some word ↔ headers[key]?.getD [] = word := by
    cases headers[key]? <;> simp [nonempty.symm]
  have switch (row : Parameter) : readSwitch headers row = readSwitch headers' row := by
    have word : bytes "true" ≠ [] ∧ bytes "1" ≠ [] := by decide
    rw [readSwitch, readSwitch]
    simp only [spelled _ _ _ word.1, spelled _ _ _ word.2, same row]
  simp only [decode, number, text, switch]

end RecognitionConfig

namespace UtilityServer

/-- A request asks for the settings of a configuration: for every parameter that is sent, and
for no other one behind one that is sent. -/
structure AsksFor (config : RecognitionConfig) (requested : HeaderMap) : Prop where
  complete : ∀ key ∈ (ASRSendMessage.setParameters config).headers, key ∈ requested
  apart : ∀ key ∈ requested, key ∉ (ASRSendMessage.setParameters config).headers →
    ∀ other ∈ requested, (compare other key).isLE →
      other ∉ (ASRSendMessage.setParameters config).headers

/-- The condition in terms of the lists of keys. -/
theorem asks_for_iff (config : RecognitionConfig) (requested : HeaderMap) :
    AsksFor config requested ↔
      (∀ key ∈ (ASRSendMessage.setParameters config).headers.keys, key ∈ requested) ∧
        ∀ key ∈ requested.keys, key ∉ (ASRSendMessage.setParameters config).headers →
          ∀ other ∈ requested.keys, (compare other key).isLE →
            other ∉ (ASRSendMessage.setParameters config).headers := by
  simp only [Std.ExtTreeMap.mem_keys]
  exact ⟨fun asks => ⟨asks.complete, asks.apart⟩, fun both => ⟨both.1, both.2⟩⟩

instance (config : RecognitionConfig) (requested : HeaderMap) :
    Decidable (AsksFor config requested) :=
  decidable_of_iff _ (asks_for_iff config requested).symm

/-- A requested key with nothing stored up to it is reported as empty. -/
theorem reported_empty {stored requested : HeaderMap} {key : Bytes}
    (nothing : ∀ other ∈ requested, (compare other key).isLE → other ∉ stored) :
    reported stored requested key = [] := by
  have none : (requested.keys.filter fun other => (compare other key).isLE).filterMap
      (stored[·]?) = [] := by
    rw [List.filterMap_eq_nil_iff]
    intro other member
    obtain ⟨isAsked, upTo⟩ := List.mem_filter.mp member
    exact Std.ExtTreeMap.getElem?_eq_none
      (nothing other (Std.ExtTreeMap.mem_keys.mp isAsked) upTo)
  rw [reported, none]
  rfl

/-- An answer that reports what was sent stands for the configuration that was sent. -/
theorem ReportsParameters.decoded {config : RecognitionConfig} {requested : HeaderMap}
    {response : ASRMessageResponse}
    (reports : ReportsParameters (ASRSendMessage.setParameters config).headers requested response)
    (asks : AsksFor config requested) :
    RecognitionConfig.decode response.headers = config.norm := by
  rw [← RecognitionConfig.decode_set_parameters]
  apply RecognitionConfig.decode_congr
  intro row
  obtain ⟨-, -, other, notMethod, notHandle⟩ := RecognitionConfig.header_word row
  by_cases isAsked : bytes row.header ∈ requested
  · rw [reports.reported _ isAsked other, Option.getD_some]
    cases entry : (ASRSendMessage.setParameters config).headers[bytes row.header]? with
    | some value =>
      exact reported_stored isAsked entry
    | none =>
      have absent : bytes row.header ∉ (ASRSendMessage.setParameters config).headers := by
        rw [Std.ExtTreeMap.mem_iff_isSome_getElem?, entry]
        exact Bool.false_ne_true
      exact reported_empty (asks.apart _ isAsked absent)
  · have notSent : bytes row.header ∉ (ASRSendMessage.setParameters config).headers :=
      fun isSent => isAsked (asks.complete _ isSent)
    have notReported : bytes row.header ∉ response.headers := by
      intro member
      rcases reports.others _ member with own | isAsked' | method | handle
      · exact other own
      · exact isAsked isAsked'
      · exact notMethod method
      · exact notHandle handle
    rw [Std.ExtTreeMap.getElem?_eq_none notSent, Std.ExtTreeMap.getElem?_eq_none notReported]

/-- The parameters that were set last are those of the last request that sets any. -/
theorem latest_set_behind (before between : List ServerEvent) (event : ServerEvent)
    (parser : WsParser) (sets : setsParameters event = some parser)
    (quiet : ∀ event ∈ between, setsParameters event = none) :
    latestSet (before ++ event :: between) = parser := by
  have none : between.filterMap setsParameters = [] := List.filterMap_eq_nil_iff.mpr quiet
  rw [latestSet, List.filterMap_append, List.filterMap_cons_some sets, none, List.getLast?_concat]
  rfl

/-- Whatever happened before, and whatever happens until then short of another request that sets
parameters: a client that asks for the settings of a configuration that was sent, on whatever
connection, reads this configuration, up to the parameters that are not enabled. -/
theorem settings_read_back (config : RecognitionConfig) (worded : config.Worded)
    (before between : List ServerEvent) (setter getter : ConnectionHdl) (payload : Bytes)
    (request : WsParser) (after : UtilityServer) (sent : List (ServerEvent × Reply))
    (quiet : ∀ event ∈ between, setsParameters event = none)
    (read : WsParser.ofString payload = .ok request)
    (asks : request.command = bytes "GET_PARAMETERS")
    (noLength : bytes "Content-Length" ∉ request.props)
    (settings : AsksFor config request.props)
    (ran : run react {} ((before ++ .message setter
      (ASRMessageParser.raw (ASRSendMessage.setParameters config)) :: between) ++
        [.message getter payload]) = .ok (after, sent)) :
    ∃ former response behind decoded,
      sent = former ++ (.message getter payload, .response response) :: behind ∧
      ASRMessageResponse.consume (Reply.response response).wire = .ok decoded ∧
      RecognitionConfig.decode decoded.headers = config.norm := by
  obtain ⟨parser, constructed, command, props⟩ := of_string_raw .setParameters
    (ASRSendMessage.setParameters config) (ASRSendMessage.set_parameters_start_line config)
    worded.codable
  have sets : setsParameters (.message setter
      (ASRMessageParser.raw (ASRSendMessage.setParameters config))) = some parser := by
    rw [setsParameters, constructed]
    exact if_pos command
  obtain ⟨former, response, behind, decoded, whole, consumed, reports⟩ :=
    run_get_parameters read asks noLength ran
  rw [latest_set_behind before between _ parser sets quiet, props] at reports
  exact ⟨former, response, behind, decoded, whole, consumed, reports.decoded settings⟩

/-- A configuration with a switch and a text. -/
def taggedAge : RecognitionConfig := { inferAgeEnabled := true, accountTag := bytes "tag" }

/-- Its request for parameters comes behind these events. -/
def firstSession : List ServerEvent :=
  [.opened 0, .opened 1, .message 0 (ASRMessageParser.raw ASRSendMessage.createSession)]

/-- The other client gets a session in the meantime. -/
def otherSession : List ServerEvent :=
  [.message 1 (ASRMessageParser.raw ASRSendMessage.createSession)]

/-- It asks for the settings of the first. -/
def settingsAsked : Bytes :=
  bytes "ASR 2.4 GET_PARAMETERS\r\nInfer-age-enabled:\r\ndecoder.maxSentences:\r\n" ++
    bytes "licenseManager.accountTag:\r\n\r\n"

/-- It reads them back. -/
theorem other_client_reads_settings :
    ∃ response decoded, ASRMessageResponse.consume (Reply.response response).wire = .ok decoded ∧
      RecognitionConfig.decode decoded.headers = taggedAge.norm := by
  have worded : taggedAge.Worded :=
    ⟨Or.inr ⟨⟨_, _, rfl, by decide⟩, List.all_eq_true.mp (by decide), by decide⟩, Or.inl rfl,
      Or.inl rfl⟩
  obtain ⟨request, read, checked⟩ := exists_of_any (WsParser.ofString settingsAsked)
    (fun request => request.command = bytes "GET_PARAMETERS" ∧
      bytes "Content-Length" ∉ request.props ∧ AsksFor taggedAge request.props) (by decide +kernel)
  obtain ⟨asks, noLength, settings⟩ := of_decide_eq_true checked
  obtain ⟨⟨after, sent⟩, ran, -⟩ := exists_of_any
    (run react {} ((firstSession ++ .message 0
      (ASRMessageParser.raw (ASRSendMessage.setParameters taggedAge)) :: otherSession) ++
        [.message 1 settingsAsked])) (fun _ => true) (by decide +kernel)
  obtain ⟨former, response, behind, decoded, -, consumed, same⟩ :=
    settings_read_back taggedAge worded firstSession otherSession 0 1 settingsAsked request after
      sent (by decide +kernel) read asks noLength settings ran
  exact ⟨response, decoded, consumed, same⟩

end UtilityServer

end AsrClient
