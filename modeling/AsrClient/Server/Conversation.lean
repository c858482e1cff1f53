import AsrClient.Server.Replies

/-!
# The conversation with the mock server

The server answers, announces speech and reports results. What a payload says is settled by
what the client decodes from it, and it settles the statements of the handler. What a
payload of the client asks is settled by what the server reads: a method, or audio that may
be the last.

Behind these words the server is a counter for each connection. The counter decides what is
said about the audio, and whether the handler is defined at all.
-/

namespace AsrClient

open UtilityServer BinaryFormat

/-- What a message of the server says. -/
inductive Say where
  | answer (c : Method)
  | speech
  | result
deriving DecidableEq

/-- What a message of the client asks. -/
inductive Ask where
  | request (c : Method)
  | audio (last : Bool)
deriving DecidableEq

/-- The payload says so to the client. -/
inductive Says : Say → Bytes → Prop where
  | answer (c : Method) (payload : Bytes) (response : ASRMessageResponse) (known : c ∈ answered)
      (decoded : ASRMessageResponse.consume payload = .ok response)
      (answersTo : AnswersTo c response) : Says (.answer c) payload
  | speech : Says .speech Reply.startOfInput.wire
  | result : Says .result Reply.result.wire

/-- The payload asks for this, as the server reads it. -/
inductive Asks : Ask → Bytes → Prop where
  | request (c : Method) (payload : Bytes) (parser : WsParser) (known : c ∈ answered)
      (read : WsParser.ofString payload = .ok parser)
      (command : parser.command = getMethodString c) :
      Asks (.request c) payload
  | audio (last : Bool) (payload : Bytes) (parser : WsParser)
      (read : WsParser.ofString payload = .ok parser)
      (command : parser.command = getMethodString .sendAudio)
      (packet : parser.props[bytes "LastPacket"]? =
        some (bytes (if last then "true" else "false"))) :
      Asks (.audio last) payload

/-- The method that is answered. -/
def Say.method : Say → Option Method
  | .answer c => some c
  | .speech => none
  | .result => none

/-- The method that is to be answered. -/
def Ask.method : Ask → Option Method
  | .request c => some c
  | .audio _ => none

/-- The value of the counter when it is looked at, behind a message. -/
def Ask.count (counter : Option Int) : Ask → Option Int
  | .request c => counterBehind (getMethodString c) counter
  | .audio last => counter.map fun counter =>
      if last then endRecognize else if counter < endRecognize then counter + 1 else counter

/-- What the counter makes the server say. -/
def Say.ofCounter (counter : Int) : List Say :=
  (if counter = endRecognize / 5 then [.speech] else []) ++
    if counter = endRecognize then [.result] else []

/-- All that the server says to a message, by the value of the counter. -/
def Ask.saying (counter : Int) : Ask → List Say
  | .request c => .answer c :: Say.ofCounter counter
  | .audio last => (if last then [.speech] else []) ++ Say.ofCounter counter

/-- The body of the result, as the library reads it. -/
def resultJson : Json := .object [
  (bytes "alternatives", .array [.object [
    (bytes "text", .string (bytes "2345678")),
    (bytes "words", .array [.object [
      (bytes "text", .string (bytes "2345678")),
      (bytes "score", .number (.ofInt 99)),
      (bytes "start_time", .number (double.round false 11 10)),
      (bytes "end_time", .number (double.round false 392 100))]]),
    (bytes "score", .number (.ofInt 99)),
    (bytes "lm", .string (bytes "builtin:slm/general"))]]),
  (bytes "segment_index", .number (.ofInt 0)),
  (bytes "last_segment", .bool true),
  (bytes "final_result", .bool true),
  (bytes "start_time", .number (double.round false 95 100)),
  (bytes "end_time", .number (double.round false 401 100)),
  (bytes "result_status", .string (bytes "RECOGNIZED"))]

/-- The library reads the body of the server's result. -/
def ReadsResult (parse : Bytes → Json) : Prop := parse resultBody = resultJson

/-- The result that the client makes of it. -/
def resultValue : RecognitionResult :=
  ASRProcessResult.withTimes resultJson (recognitionResultFromJson resultJson)

/-- What the client does when it is told so. -/
def Say.stmts : Say → List WsStmt
  | .answer .createSession => [.configure]
  | .answer .setParameters => [.startRecognition]
  | .answer .startRecognition => [.startSender]
  | .answer .cancelRecognition => [.clearResult, .clearRecognizing]
  | .answer _ => []
  | .speech => [.invoke (.onSpeechStart 0)]
  | .result => [.setSessionStatus .kIdle, .pushResult resultValue,
      .invoke (.onRecognitionResult { resultValue with lastSegment := some true }),
      .clearRecognizing]

/-- The client takes a message in this sense. -/
structure Takes (parse : Bytes → Json) (say : Say) (response : ASRMessageResponse) : Prop where
  handler : ASRProcessMsg.handle parse response = say.stmts
  answers : answers response = say.method
  isResult : isResult response = true ↔ say = .result
  success : ∀ c, say = .answer c → accepts c response = true

section Client

variable {parse : Bytes → Json}

/-- The word that names the kind of a message. -/
theorem method_word_of_start {response : ASRMessageResponse} {start : Bytes}
    (same : response.startLine = start) : methodWord response = (split start space)[2]? := by
  rw [methodWord, same]

/-- An answer is taken as one. -/
theorem takes_answer {c : Method} {response : ASRMessageResponse} (known : c ∈ answered)
    (answersTo : AnswersTo c response) : Takes parse (.answer c) response := by
  have word : methodWord response = some (getMethodString .response) :=
    (method_word_of_start answersTo.start).trans (by decide)
  have isOne : isResponse response = true := by
    simp only [isResponse, word]
    decide
  have noResult : isResult response = false := by
    simp only [AsrClient.isResult, word]
    decide
  have success : ASRProcessResponse.succeeded response = true := by
    rw [ASRProcessResponse.succeeded,
      show response.getHeader ResponseHeader.result.getString = _ from answersTo.result]
    decide
  have method : response.getHeader ResponseHeader.method.getString = getMethodString c :=
    answersTo.method
  constructor
  · have isMessage : contains (getMethodString .response) (getMethodString .response) = true := by
      decide
    simp only [ASRProcessMsg.handle, word, isMessage, if_true, ASRProcessResponse.handle,
      ASRProcessResponse.session_status_nil, List.nil_append, ASRProcessResponse.dispatch, method,
      ASRProcessResponse.createSession, ASRProcessResponse.setParameters,
      ASRProcessResponse.startRecog, ASRProcessResponse.cancelRecog, ASRProcessResponse.onSuccess,
      success, Bool.true_or]
    cases c <;> decide
  · have finds : ∀ c ∈ answered,
        answered.find? (getMethodString c = getMethodString ·) = some c := by
      decide
    rw [AsrClient.answers, if_pos isOne, method]
    exact finds c known
  · simp [noResult]
  · rintro _ ⟨rfl⟩
    exact (accepts_iff _ response).mpr ⟨isOne, method, success⟩

/-- The announcement of speech is taken as one. -/
theorem takes_speech {response : ASRMessageResponse}
    (start : response.startLine = bytes "ASR 2.4 START_OF_SPEECH") :
    Takes parse .speech response := by
  have word : methodWord response = some (getMethodString .startOfSpeech) :=
    (method_word_of_start start).trans (by decide)
  have noResponse : isResponse response = false := by
    simp only [isResponse, word]
    decide
  have noResult : isResult response = false := by
    simp only [AsrClient.isResult, word]
    decide
  constructor
  · have other : contains (getMethodString .startOfSpeech) (getMethodString .response) = false ∧
        contains (getMethodString .startOfSpeech) (getMethodString .recognitionResult) = false ∧
        contains (getMethodString .startOfSpeech) (getMethodString .startOfSpeech) = true := by
      decide
    simp only [ASRProcessMsg.handle, word, other, Bool.false_eq_true, if_false, if_true]
    rfl
  · rw [AsrClient.answers, noResponse]
    rfl
  · simp [noResult]
  · intro c isAnswer
    cases isAnswer

/-- A result is taken as the last and final one. -/
theorem takes_result {response : ASRMessageResponse} (reports : ReportsResult response)
    (reads : ReadsResult parse) : Takes parse .result response := by
  have word : methodWord response = some (getMethodString .recognitionResult) :=
    (method_word_of_start reports.start).trans (by decide)
  have noResponse : isResponse response = false := by
    simp only [isResponse, word]
    decide
  have isOne : isResult response = true := by
    simp only [AsrClient.isResult, word]
    decide
  constructor
  · have other : contains (getMethodString .recognitionResult) (getMethodString .response) = false ∧
        contains (getMethodString .recognitionResult) (getMethodString .recognitionResult) =
          true := by
      decide
    have canceled : ASRProcessResult.canceled response = false := by
      rw [ASRProcessResult.canceled, ASRProcessResult.resultStatus, reports.resultStatus]
      decide
    have body : resultBody ≠ [] := by decide
    have flags : ASRProcessResult.finalResult response resultJson = true ∧
        ASRProcessResult.lastSegment resultJson = true := ⟨rfl, rfl⟩
    simp only [ASRProcessMsg.handle, word, other, Bool.false_eq_true, if_false, if_true,
      ASRProcessResult.handle, canceled, body, reports.extra, show parse resultBody = _ from reads,
      flags, ASRProcessResult.finalSegment, ASRProcessResult.sessionStatus, reports.sessionStatus]
    rfl
  · rw [AsrClient.answers, noResponse]
    rfl
  · simp [isOne]
  · intro c isAnswer
    cases isAnswer

/-- The client decodes what the server says, and takes it so. -/
theorem Says.taken {say : Say} {payload : Bytes} (said : Says say payload)
    (reads : ReadsResult parse) :
    ∃ response, ASRMessageResponse.consume payload = .ok response ∧ Takes parse say response := by
  cases said with
  | answer c _ response known decoded answersTo =>
    exact ⟨response, decoded, takes_answer known answersTo⟩
  | speech =>
    obtain ⟨response, decoded, start⟩ := speech_decoded
    exact ⟨response, decoded, takes_speech start⟩
  | result =>
    obtain ⟨response, decoded, reports⟩ := result_decoded
    exact ⟨response, decoded, takes_result reports reads⟩

end Client

section Server

variable {server after : UtilityServer} {hdl : ConnectionHdl} {session : Session}
  {payload : Bytes} {replies : List Reply} {ask : Ask}

/-- What is announced is what the counter makes the server say. -/
theorem announce_said (counter : Int) :
    List.Forall₂ Says (Say.ofCounter counter) ((announce counter).2.map Reply.wire) := by
  rw [Say.ofCounter, announce]
  by_cases done : counter = endRecognize
  · have apart : counter ≠ endRecognize / 5 := by
      rw [done]
      decide
    rw [if_neg apart, if_neg apart, if_pos done, if_pos done]
    exact .cons .result .nil
  · rw [if_neg done, if_neg done, List.append_nil]
    split_ifs
    · exact .cons .speech .nil
    · exact .nil

/-- The counter never stays at its end. -/
theorem announce_past (counter : Int) : (announce counter).1 ≠ endRecognize := by
  by_cases done : counter = endRecognize
  · rw [announce, if_pos done]
    exact (by decide : endRecognize + 1 ≠ endRecognize)
  · rw [announce, if_neg done]
    exact done

/-- A message of the client is handled in its sense: the counter takes the value that it asks
for, the other connections keep theirs, and the server says what the counter makes it say. -/
structure Serves (server after : UtilityServer) (hdl : ConnectionHdl) (ask : Ask) (counter : Int)
    (replies : List Reply) : Prop where
  named : after.NamesStatus
  session : after.sessionMap[hdl]? = some { audioCounter := some (announce counter).1 }
  others : ∀ other, other ≠ hdl → after.sessionMap[other]? = server.sessionMap[other]?
  said : List.Forall₂ Says (ask.saying counter) (replies.map Reply.wire)

/-- The counter of one connection is written, and no other. -/
theorem set_counter_frame (server : UtilityServer) (hdl : ConnectionHdl) (counter : Int) :
    (server.setCounter hdl counter).sessionMap[hdl]? = some { audioCounter := some counter } ∧
      ∀ other, other ≠ hdl →
        (server.setCounter hdl counter).sessionMap[other]? = server.sessionMap[other]? := by
  constructor
  · exact Std.ExtTreeMap.getElem?_insert_self
  · intro other apart
    rw [setCounter, Std.ExtTreeMap.getElem?_insert,
      if_neg (fun same => apart (Std.compare_eq_iff_eq.mp same).symm)]

/-- The server handles what it survives in the sense of the client. -/
theorem echo_handler_serves (named : server.NamesStatus)
    (here : server.sessionMap[hdl]? = some session) (asks : Asks ask payload)
    (handled : server.echoHandler hdl payload = .ok (after, replies)) :
    ∃ counter, ask.count session.audioCounter = some counter ∧
      Serves server after hdl ask counter replies := by
  obtain ⟨parser, found, isRead, isHere, handles⟩ := echo_handler_handles handled
  obtain rfl : session = found := Option.some.inj (here.symm.trans isHere)
  have isAudio : getMethodString .sendAudio = bytes "SEND_AUDIO" := rfl
  cases asks with
  | request c _ other known read command =>
    obtain rfl : other = parser := Except.ok.inj (read.symm.trans isRead)
    have noAudio : other.command ≠ bytes "SEND_AUDIO" := by
      rw [command]
      have apart : ∀ c ∈ answered, getMethodString c ≠ bytes "SEND_AUDIO" := by decide
      exact apart c known
    cases handles with
    | request counter _ value =>
      refine ⟨counter, by rw [Ask.count, ← command]; exact value, ?_⟩
      have sessionMap := respond_sessions server other (bytes "2.4")
      have stillNamed := respond_named server other (bytes "2.4") named
      obtain ⟨here, others⟩ := set_counter_frame (server.respond other (bytes "2.4")).1 hdl
        (announce counter).1
      refine ⟨stillNamed, here, fun key apart => ?_, ?_⟩
      · rw [others key apart, sessionMap]
      · have notGet : c ≠ .getParameters := by
          rintro rfl
          exact absurd known (by decide)
        obtain ⟨response, decoded, answersTo⟩ := respond_decoded server other c named command notGet
        exact .cons (.answer c _ response known decoded answersTo) (announce_said counter)
    | audio counter isAudio => exact absurd isAudio noAudio
  | audio last _ other read command packet =>
    obtain rfl : other = parser := Except.ok.inj (read.symm.trans isRead)
    cases handles with
    | request counter noAudio => exact absurd (command.trans isAudio) noAudio
    | audio counter _ value =>
      obtain ⟨here, others⟩ :=
        set_counter_frame server hdl (announce (countAudio other counter).1).1
      have distinct : bytes "false" ≠ bytes "true" := by decide
      refine ⟨(countAudio other counter).1, ?_, named, here, others, ?_⟩
      · rw [Ask.count, value, countAudio, packet]
        cases last <;> simp [distinct]
      · rw [Ask.saying, List.map_append]
        refine List.rel_append ?_ (announce_said _)
        rw [countAudio, packet]
        cases last
        · simp [distinct]
        · simpa using Says.speech

/-- It survives a message exactly when the counter has a value behind it. -/
theorem echo_handler_defined_iff (here : server.sessionMap[hdl]? = some session)
    (asks : Asks ask payload) :
    (∃ after replies, server.echoHandler hdl payload = .ok (after, replies)) ↔
      (ask.count session.audioCounter).isSome = true := by
  have counts (parser : WsParser) (isRead : WsParser.ofString payload = .ok parser) :
      (ask.count session.audioCounter).isSome =
        (counterBehind parser.command session.audioCounter).isSome := by
    cases asks with
    | request c _ other known read command =>
      obtain rfl : other = parser := Except.ok.inj (read.symm.trans isRead)
      rw [Ask.count, command]
    | audio last _ other read command packet =>
      obtain rfl : other = parser := Except.ok.inj (read.symm.trans isRead)
      rw [Ask.count, Option.isSome_map, command, counterBehind, if_neg (by decide)]
  constructor
  · rintro ⟨after, replies, handled⟩
    obtain ⟨parser, found, isRead, isHere, handles⟩ := echo_handler_handles handled
    obtain rfl : session = found := Option.some.inj (here.symm.trans isHere)
    rw [counts parser isRead]
    cases handles with
    | request counter noAudio value => rw [value, Option.isSome_some]
    | audio counter isAudio value =>
      rw [isAudio, counterBehind, if_neg (by decide), value, Option.isSome_some]
  · intro counted
    obtain ⟨parser, isRead⟩ : ∃ parser, WsParser.ofString payload = .ok parser := by
      cases asks with
      | request _ _ parser _ read => exact ⟨parser, read⟩
      | audio _ _ parser read => exact ⟨parser, read⟩
    exact echo_handler_ok server hdl payload parser session isRead here
      (counts parser isRead ▸ counted)

/-- What happens on one connection leaves the others alone. -/
theorem react_others {event : ServerEvent} (reacted : server.react event = .ok (after, replies))
    (other : ConnectionHdl) (apart : other ≠ event.hdl) :
    after.sessionMap[other]? = server.sessionMap[other]? := by
  cases event with
  | opened hdl =>
    cases reacted
    rw [onOpen, Std.ExtTreeMap.getElem?_insertIfNew,
      if_neg (fun new => apart (Std.compare_eq_iff_eq.mp new.1).symm)]
  | closed hdl =>
    cases reacted
    have otherKey : hdl ≠ other := apart.symm
    rw [onClose, Std.ExtTreeMap.getElem?_erase, if_neg (otherKey ∘ Std.compare_eq_iff_eq.mp)]
  | message hdl payload =>
    obtain ⟨parser, session, -, -, handles⟩ := echo_handler_handles reacted
    cases handles with
    | request counter =>
      rw [(set_counter_frame _ hdl _).2 other apart, respond_sessions]
    | audio counter => exact (set_counter_frame server hdl _).2 other apart

/-- Whatever happens, the status stays one of the server's own. -/
theorem react_named {event : ServerEvent} (named : server.NamesStatus)
    (reacted : server.react event = .ok (after, replies)) : after.NamesStatus := by
  cases event with
  | opened hdl =>
    cases reacted
    exact named
  | closed hdl =>
    cases reacted
    exact named
  | message hdl payload =>
    obtain ⟨parser, session, -, -, handles⟩ := echo_handler_handles reacted
    cases handles with
    | request counter => exact respond_named server parser (bytes "2.4") named
    | audio counter => exact named

end Server

end AsrClient
