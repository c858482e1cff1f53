import AsrClient.Recognizer.ProtocolOrder
import AsrClient.Reprinting
import AsrClient.Server.UtilityServer

/-!
# What the client reads of the server's messages

A response of the server is a package of words, so that the client reads the headers back
that the server has set: the method of the request, and a result that the client takes for
success. The two other messages are fixed texts.

Nothing in a response is a NUL, which would cut it off on the way to the socket. Only the
reply to a request for parameters repeats keys of the request, and may repeat the length of
a body that it does not have.
-/

namespace AsrClient

open TokenStream WsParser ASRMessageParser

namespace WsParser

/-- A package without a body whose keys and values a receiver reads as words, and that
declares no length. -/
structure Speakable (package : WsParser) : Prop where
  keys : ∀ key ∈ package.props, KeyWord key
  values : ∀ key value : Bytes, package.props[key]? = some value → value = [] ∨ ValueWord value
  bodiless : package.body = []
  noLength : bytes "Content-Length" ∉ package.props

/-- A header of a package behind one more. -/
theorem add_getElem (package : WsParser) (key value other : Bytes) :
    (package.add key value).props[other]? =
      if key = other ∧ key ∉ package.props then some value else package.props[other]? := by
  rw [add, Std.ExtTreeMap.getElem?_insertIfNew]
  by_cases same : key = other
  · subst same
    by_cases new : key ∈ package.props
    · simp [new]
    · simp [new]
  · simp [same]

/-- A new header reads back as it was added. -/
theorem add_new (package : WsParser) (key value : Bytes) (new : key ∉ package.props) :
    (package.add key value).props[key]? = some value := by
  rw [add_getElem, if_pos ⟨rfl, new⟩]

/-- One more header leaves the others alone. -/
theorem add_other (package : WsParser) (key value other : Bytes) (apart : key ≠ other) :
    (package.add key value).props[other]? = package.props[other]? := by
  rw [add_getElem, if_neg (fun both => apart both.1)]

/-- The keys of a package behind one more. -/
theorem mem_add (package : WsParser) (key value other : Bytes) :
    other ∈ (package.add key value).props ↔ key = other ∨ other ∈ package.props := by
  rw [add, Std.ExtTreeMap.mem_insertIfNew, Std.compare_eq_iff_eq]

/-- One more header of words keeps a package of words. -/
theorem Speakable.add {package : WsParser} (speakable : Speakable package) (key value : Bytes)
    (keyWord : KeyWord key) (text : value = [] ∨ ValueWord value)
    (other : key ≠ bytes "Content-Length") : Speakable (package.add key value) where
  keys key' member := by
    rcases (mem_add package key value key').mp member with rfl | former
    · exact keyWord
    · exact speakable.keys key' former
  values key' value' entry := by
    rw [add_getElem] at entry
    split_ifs at entry
    · obtain rfl := Option.some.inj entry
      exact text
    · exact speakable.values key' value' entry
  bodiless := speakable.bodiless
  noLength member := by
    rcases (mem_add package key value _).mp member with same | former
    · exact other same
    · exact speakable.noLength former

/-- A package of words under a title of words can be read back. -/
theorem Speakable.encodable {package : WsParser} (speakable : Speakable package)
    (version : KeyWord package.version) (command : KeyWord package.command) :
    Encodable package where
  version := version
  command := command
  message :=
    { keys := speakable.keys
      values := speakable.values
      bounded := by simp [speakable.bodiless]
      sized := fun nonempty => absurd speakable.bodiless nonempty
      unsized := fun _ => Or.inl (Std.ExtTreeMap.getElem?_eq_none speakable.noLength) }

/-- A byte of a word is no NUL. -/
theorem word_byte_ne_nul {c : Byte} {afterSep : Bool} (word : wordByte c afterSep = true) :
    c ≠ 0 := by
  rintro rfl
  cases afterSep <;> exact absurd word (by decide)

/-- No NUL is written for a package of words. -/
theorem Speakable.str_free {package : WsParser} (speakable : Speakable package)
    (version : KeyWord package.version) (command : KeyWord package.command) :
    ∀ c ∈ package.str, c ≠ 0 := by
  have title : ∀ c ∈ package.titleLine, c ≠ 0 := by
    intro c member
    simp only [titleLine, List.mem_append, List.mem_singleton] at member
    rcases member with ((asr | inVersion) | rfl) | inCommand
    · rintro rfl
      exact absurd asr (by decide)
    · exact word_byte_ne_nul (version.word c inVersion)
    · decide
    · exact word_byte_ne_nul (command.word c inCommand)
  have ends : ∀ c ∈ msgDelimiter, c ≠ 0 := by
    intro c member
    rcases List.mem_pair.mp member with rfl | rfl
    · decide
    · decide
  have headers : ∀ c ∈ package.props.toList.flatMap headerLine, c ≠ 0 := by
    intro c member
    obtain ⟨header, isHeader, inLine⟩ := List.mem_flatMap.mp member
    obtain ⟨keyWord, text⟩ := (speakable.encodable version command).message.header header isHeader
    simp only [headerLine, List.mem_append, List.mem_singleton] at inLine
    rcases inLine with ((inKey | rfl) | inValue) | inEnd
    · exact word_byte_ne_nul (keyWord.word c inKey)
    · decide
    · rcases text with empty | valueWord
      · rw [empty] at inValue
        exact absurd inValue List.not_mem_nil
      · exact word_byte_ne_nul (valueWord.word c inValue)
    · exact ends c inEnd
  intro c member
  rw [str, if_pos speakable.bodiless] at member
  simp only [List.append_nil, List.mem_append] at member
  rcases member with (inTitle | inEnd) | inHeaders
  · exact title c inTitle
  · exact ends c inEnd
  · exact headers c inHeaders

end WsParser

/-- A text without a NUL is passed on whole. -/
theorem c_str_free (str : Bytes) (free : ∀ c ∈ str, c ≠ 0) : cStr str = str :=
  List.takeWhile_eq_self_iff.mpr fun c member => decide_eq_true (free c member)

/-- What the client decodes from a package: its command, its headers and its body. -/
theorem consume_str (package : WsParser) (encodable : Encodable package) :
    ASRMessageResponse.consume package.str = .ok
      { startLine := bytes "ASR 2.4 " ++ package.command
        headers := package.props
        extra := package.body } := by
  obtain ⟨tks, scanned⟩ := headers_str package encodable
  obtain ⟨within, suffix⟩ := str_suffix package
  have nonempty : package.str ≠ [] := by
    intro empty
    have title : bytes "ASR " ≠ [] := by decide
    simp [str, titleLine, title] at empty
  have size : (UInt64.ofInt package.body.length).toNat = package.body.length := by
    have converted := size_of_declared package.body.length
    have bounded : package.body.length < 2 ^ 31 := encodable.message.bounded
    omega
  rw [ASRMessageResponse.consume, ofString, if_neg nonempty, scanned]
  simp only [size, body_loop_suffix package.str _ within, suffix, List.nil_append]
  split_ifs with hasBody
  · simp only [Except.map, bind, Except.bind, pure, Except.pure]
  · have empty : package.body = [] := encodable.message.declared.resolve_left hasBody
    simp only [bind, Except.bind, pure, Except.pure, empty]

namespace UtilityServer

/-- The server names a status of its own. -/
def NamesStatus (server : UtilityServer) : Prop :=
  server.sessionStatus ∈ [bytes "IDLE", bytes "LISTENING"]

/-- The words that the server puts into every response. -/
theorem server_words :
    (∀ key ∈ [bytes "Message", bytes "Error-Code", bytes "Result", bytes "Session-Status",
        bytes "InvalidParam", bytes "Method", bytes "Handle"],
      KeyWord key ∧ key ≠ bytes "Content-Length") ∧
    ∀ value ∈ [bytes "success", bytes "000", bytes "SUCCESS ", bytes "IDLE", bytes "LISTENING",
        bytes "ERR_INVALID_PARAMETER", bytes "202106091928510001 "], ValueWord value := by
  constructor
  · intro key member
    simp only [List.mem_cons, List.not_mem_nil, or_false] at member
    rcases member with rfl | rfl | rfl | rfl | rfl | rfl | rfl <;>
      exact ⟨⟨by decide, List.all_eq_true.mp (by decide), by decide⟩, by decide⟩
  · intro value member
    simp only [List.mem_cons, List.not_mem_nil, or_false] at member
    rcases member with rfl | rfl | rfl | rfl | rfl | rfl | rfl <;>
      exact ⟨⟨_, _, rfl, by decide⟩, List.all_eq_true.mp (by decide), by decide⟩

/-- One of the server's own headers keeps a package of words. -/
theorem speakable_add {package : WsParser} (speakable : Speakable package) (key value : Bytes)
    (isKey : key ∈ [bytes "Message", bytes "Error-Code", bytes "Result", bytes "Session-Status",
        bytes "InvalidParam", bytes "Method", bytes "Handle"])
    (isValue : value ∈ [bytes "success", bytes "000", bytes "SUCCESS ", bytes "IDLE",
        bytes "LISTENING", bytes "ERR_INVALID_PARAMETER", bytes "202106091928510001 "]) :
    Speakable (package.add key value) :=
  speakable.add key value (server_words.1 key isKey).1 (Or.inr (server_words.2 value isValue))
    (server_words.1 key isKey).2

/-- The beginning of a response is a package of words. -/
theorem begin_response_speakable (pp : WsParser) (version status : Bytes)
    (named : status ∈ [bytes "IDLE", bytes "LISTENING"]) :
    Speakable (beginResponse pp version status) := by
  have empty : Speakable ((({} : WsParser).setCmd (bytes "RESPONSE")).setVersion version) :=
    ⟨by simp [setVersion, setCmd], by simp [setVersion, setCmd], rfl, by simp [setVersion, setCmd]⟩
  have isValue : status ∈ [bytes "success", bytes "000", bytes "SUCCESS ", bytes "IDLE",
      bytes "LISTENING", bytes "ERR_INVALID_PARAMETER", bytes "202106091928510001 "] := by
    simp only [List.mem_cons, List.not_mem_nil, or_false] at named
    rcases named with rfl | rfl <;> decide
  have message := speakable_add empty (bytes "Message") (bytes "success") (by decide) (by decide)
  have code := speakable_add message (bytes "Error-Code") (bytes "000") (by decide) (by decide)
  have result := speakable_add code (bytes "Result") (bytes "SUCCESS ") (by decide) (by decide)
  exact speakable_add result (bytes "Session-Status") status (by decide) isValue

/-- The end of a response adds words, when the command of the request is one. -/
theorem end_response_speakable (pp : WsParser) {p : WsParser} (speakable : Speakable p)
    (command : pp.command = [] ∨ ValueWord pp.command) : Speakable (endResponse pp p) := by
  have method := speakable.add (bytes "Method") pp.command (server_words.1 _ (by decide)).1 command
    (by decide)
  exact speakable_add method (bytes "Handle") (bytes "202106091928510001 ") (by decide) (by decide)

/-- The status stays one of the server's own when a recognition starts. -/
theorem listen_named (server : UtilityServer) (pp : WsParser) (named : server.NamesStatus) :
    (server.listen pp).NamesStatus := by
  rw [listen]
  split_ifs
  · exact List.mem_cons_of_mem _ (List.mem_singleton_self _)
  · exact named

/-- A response to a request other than that for parameters is its beginning and its end, with
at most one header between them. -/
theorem respond_package (server : UtilityServer) (pp : WsParser) (version : Bytes)
    (other : pp.command ≠ bytes "GET_PARAMETERS") :
    (server.respond pp version).2 =
        endResponse pp (beginResponse pp version (server.listen pp).sessionStatus) ∨
      (server.respond pp version).2 =
        endResponse pp ((beginResponse pp version (server.listen pp).sessionStatus).add
          (bytes "InvalidParam") (bytes "ERR_INVALID_PARAMETER")) := by
  rw [respond]
  split_ifs
  · exact Or.inl rfl
  · exact Or.inr rfl
  · exact Or.inl rfl
  · exact Or.inl rfl

/-- A response leaves the connections alone. -/
theorem respond_sessions (server : UtilityServer) (pp : WsParser) (version : Bytes) :
    (server.respond pp version).1.sessionMap = server.sessionMap := by
  have listens : (server.listen pp).sessionMap = server.sessionMap := by
    rw [listen]
    split_ifs <;> rfl
  rw [respond]
  split_ifs <;> exact listens

/-- The status stays one of the server's own behind a response. -/
theorem respond_named (server : UtilityServer) (pp : WsParser) (version : Bytes)
    (named : server.NamesStatus) : (server.respond pp version).1.NamesStatus := by
  have listening := listen_named server pp named
  rw [respond]
  split_ifs
  · exact List.mem_cons_self
  all_goals exact listening

/-- The beginning of a response reports success, and names no method. -/
theorem begin_response_headers (pp : WsParser) (version status : Bytes) :
    (beginResponse pp version status).props[bytes "Result"]? = some (bytes "SUCCESS ") ∧
      bytes "Method" ∉ (beginResponse pp version status).props := by
  have absent (key : Bytes) (apart : key ∉ [bytes "Error-Code", bytes "Message"]) :
      key ∉ (((({} : WsParser).setCmd (bytes "RESPONSE")).setVersion version).add
        (bytes "Message") (bytes "success") |>.add (bytes "Error-Code") (bytes "000")).props := by
    rw [mem_add, mem_add]
    simpa [setVersion, setCmd, eq_comm] using apart
  have distinct : bytes "Session-Status" ≠ bytes "Result" ∧ bytes "Result" ≠ bytes "Method" ∧
      bytes "Session-Status" ≠ bytes "Method" := by decide
  constructor
  · rw [beginResponse, add_other _ _ _ _ distinct.1]
    exact add_new _ _ _ (absent _ (by decide))
  · rw [beginResponse, mem_add, mem_add]
    rintro (same | same | former)
    · exact distinct.2.2 same
    · exact distinct.2.1 same
    · exact absent _ (by decide) former

end UtilityServer

/-- What the client decodes from a response of the server: it answers the method, and the
result begins with SUCCESS. -/
structure AnswersTo (c : Method) (response : ASRMessageResponse) : Prop where
  start : response.startLine = bytes "ASR 2.4 RESPONSE"
  method : response.getHeader (bytes "Method") = getMethodString c
  result : response.getHeader (bytes "Result") = bytes "SUCCESS "

/-- What the client decodes from a result of the server. -/
structure ReportsResult (response : ASRMessageResponse) : Prop where
  start : response.startLine = bytes "ASR 2.4 RECOGNITION_RESULT"
  sessionStatus : response.getHeader (bytes "Session-Status") = bytes "IDLE"
  resultStatus : response.getHeader (bytes "Result-Status") = bytes "RECOGNIZED"
  extra : response.extra = resultBody

namespace UtilityServer

/-- The client reads a response to any other request back as it was set. -/
theorem respond_decoded (server : UtilityServer) (pp : WsParser) (c : Method)
    (named : server.NamesStatus) (command : pp.command = getMethodString c)
    (other : c ≠ .getParameters) :
    ∃ response, ASRMessageResponse.consume
        (Reply.response (server.respond pp (bytes "2.4")).2).wire = .ok response ∧
      AnswersTo c response := by
  have notGet : pp.command ≠ bytes "GET_PARAMETERS" := by
    rw [command]
    cases c <;> first | decide | exact absurd rfl other
  have word : ValueWord pp.command := by
    rw [command]
    cases c <;> exact ⟨⟨_, _, rfl, by decide⟩, List.all_eq_true.mp (by decide), by decide⟩
  -- The package before its end, with its version and its command.
  have shape := respond_package server pp (bytes "2.4") notGet
  obtain ⟨p, whole, speakable, result, noMethod, title⟩ : ∃ p,
      (server.respond pp (bytes "2.4")).2 = endResponse pp p ∧ Speakable p ∧
      p.props[bytes "Result"]? = some (bytes "SUCCESS ") ∧ bytes "Method" ∉ p.props ∧
      p.version = bytes "2.4" ∧ p.command = bytes "RESPONSE" := by
    have begins := begin_response_speakable pp (bytes "2.4") (server.listen pp).sessionStatus
      (listen_named server pp named)
    obtain ⟨result, noMethod⟩ :=
      begin_response_headers pp (bytes "2.4") (server.listen pp).sessionStatus
    have distinct : bytes "InvalidParam" ≠ bytes "Result" ∧
        bytes "InvalidParam" ≠ bytes "Method" := by decide
    cases shape with
    | inl plain => exact ⟨_, plain, begins, result, noMethod, rfl, rfl⟩
    | inr invalid =>
      refine ⟨_, invalid, speakable_add begins _ _ (by decide) (by decide), ?_, ?_, rfl, rfl⟩
      · rw [add_getElem, if_neg (fun both => distinct.1 both.1), result]
      · rw [mem_add, not_or]
        exact ⟨distinct.2, noMethod⟩
  have ends := end_response_speakable pp speakable (Or.inr word)
  have version : KeyWord (endResponse pp p).version := by
    rw [show (endResponse pp p).version = p.version from rfl, title.1]
    exact ⟨by decide, List.all_eq_true.mp (by decide), by decide⟩
  have isCommand : KeyWord (endResponse pp p).command := by
    rw [show (endResponse pp p).command = p.command from rfl, title.2]
    exact ⟨by decide, List.all_eq_true.mp (by decide), by decide⟩
  rw [whole, Reply.wire, c_str_free _ (ends.str_free version isCommand),
    consume_str _ (ends.encodable version isCommand)]
  refine ⟨_, rfl, ?_⟩
  have distinct : bytes "Handle" ≠ bytes "Method" ∧ bytes "Handle" ≠ bytes "Result" ∧
      bytes "Method" ≠ bytes "Result" := by decide
  constructor
  · show bytes "ASR 2.4 " ++ p.command = _
    rw [title.2]
    rfl
  · show (endResponse pp p).props[bytes "Method"]?.getD [] = getMethodString c
    rw [endResponse, add_other _ _ _ _ distinct.1, add_new _ _ _ noMethod, command]
    rfl
  · show (endResponse pp p).props[bytes "Result"]?.getD [] = bytes "SUCCESS "
    rw [endResponse, add_other _ _ _ _ distinct.2.1, add_other _ _ _ _ distinct.2.2, result]
    rfl

/-- The client reads the announcement of speech. -/
theorem speech_decoded : ∃ response,
    ASRMessageResponse.consume Reply.startOfInput.wire = .ok response ∧
      response.startLine = bytes "ASR 2.4 START_OF_SPEECH" := by
  obtain ⟨response, consumed, start⟩ := exists_of_any
    (ASRMessageResponse.consume Reply.startOfInput.wire)
    (fun response => response.startLine = bytes "ASR 2.4 START_OF_SPEECH") (by decide +kernel)
  exact ⟨response, consumed, of_decide_eq_true start⟩

/-- The client reads the result, with its status and its whole body. -/
theorem result_decoded : ∃ response, ASRMessageResponse.consume Reply.result.wire = .ok response ∧
    ReportsResult response := by
  obtain ⟨response, consumed, read⟩ := exists_of_any
    (ASRMessageResponse.consume Reply.result.wire)
    (fun response => response.startLine = bytes "ASR 2.4 RECOGNITION_RESULT" ∧
      response.getHeader (bytes "Session-Status") = bytes "IDLE" ∧
      response.getHeader (bytes "Result-Status") = bytes "RECOGNIZED" ∧
      response.extra = resultBody) (by decide +kernel)
  obtain ⟨start, sessionStatus, resultStatus, extra⟩ := of_decide_eq_true read
  exact ⟨response, consumed, start, sessionStatus, resultStatus, extra⟩

end UtilityServer

end AsrClient
