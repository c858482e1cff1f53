import AsrClient.Recognizer.State

/-!
# The message handlers

A handler turns a decoded message into the statements that the websocket thread
performs for it. What a handler reads from the message alone is decided here; what it
reads from the implementation object is decided when the statement is performed.

The chain tries the response handler first, then the result handler, then the two
speech handlers. Each of them looks for its method name in the third word of the start
line; a start line with fewer words makes the first of them read past the end.
-/

namespace AsrClient

/-- Headers of a response. -/
inductive ResponseHeader where
  | handle
  | method
  | expires
  | result
  | sessionStatus
  | errorCode
  | message
deriving DecidableEq

/-- The name of a response header. -/
def ResponseHeader.getString : ResponseHeader → Bytes
  | .handle => bytes "Handle"
  | .method => bytes "Method"
  | .expires => bytes "Expires"
  | .result => bytes "Result"
  | .sessionStatus => bytes "Session-Status"
  | .errorCode => bytes "Error-Code"
  | .message => bytes "Message"

/-- The name of a session status in a response. -/
def SessionStatus.getString : SessionStatus → Bytes
  | .kNone => []
  | .kIdle => bytes "IDLE"
  | .kListening => bytes "LISTENING"
  | .kRecognizing => bytes "RECOGNIZING"

/-- The third word of the start line. -/
def methodWord (response : ASRMessageResponse) : Option Bytes :=
  (split response.startLine space)[2]?

namespace ASRProcessResponse

/-- `SUCCESS` occurs in the result header. -/
def succeeded (response : ASRMessageResponse) : Bool :=
  contains (response.getHeader ResponseHeader.result.getString) (bytes "SUCCESS")

/-- `INVALID_ACTION` occurs in the result header. -/
def invalidAction (response : ASRMessageResponse) : Bool :=
  contains (response.getHeader ResponseHeader.result.getString) (bytes "INVALID_ACTION")

/-- `Impl::recognitionError`: every listener is told, then the exception is stored. -/
def recognitionError (error : RecognitionError) : List WsStmt :=
  [.invoke (.onError error), .setEptr (.recognition error)]

/-- `generateError`. -/
def generateError (response : ASRMessageResponse) : List WsStmt :=
  let errorMsg := response.getHeader ResponseHeader.errorCode.getString
  let header := response.getHeader ResponseHeader.message.getString
  let errorMsg := if header = [] then errorMsg else errorMsg ++ bytes ": " ++ header
  let method := response.getHeader ResponseHeader.method.getString
  recognitionError ⟨.failure, bytes "[" ++ method ++ bytes "]: " ++ errorMsg⟩

/-- A failed reply is an error; otherwise the statements follow. -/
def onSuccess (response : ASRMessageResponse) (stmts : List WsStmt) : List WsStmt :=
  if succeeded response then stmts else generateError response

/-- The reply to CREATE_SESSION. -/
def createSession (response : ASRMessageResponse) : List WsStmt :=
  onSuccess response [.configure]

/-- The reply to SET_PARAMETERS. -/
def setParameters (response : ASRMessageResponse) : List WsStmt :=
  onSuccess response [.startRecognition]

/-- The reply to START_RECOGNITION. -/
def startRecog (response : ASRMessageResponse) : List WsStmt :=
  onSuccess response [.startSender]

/-- The reply to CANCEL_RECOGNITION: an invalid action is no error. -/
def cancelRecog (response : ASRMessageResponse) : List WsStmt :=
  if succeeded response || invalidAction response then [.clearResult, .clearRecognizing]
  else generateError response

/-- The session status of a response. The comparisons are made with the name of the
header, not with its value. -/
def sessionStatus : List WsStmt :=
  let status := ResponseHeader.sessionStatus.getString
  if status = SessionStatus.kIdle.getString then [.setSessionStatus .kIdle]
  else if status = SessionStatus.kListening.getString then
    [.setSessionStatus .kListening, .invoke .onListening]
  else if status = SessionStatus.kRecognizing.getString then [.setSessionStatus .kRecognizing]
  else []

/-- The reply to a request, by the method that the response names. -/
def dispatch (response : ASRMessageResponse) : List WsStmt :=
  let value := response.getHeader ResponseHeader.method.getString
  if value = getMethodString .createSession then createSession response
  else if value = getMethodString .setParameters then setParameters response
  else if value = getMethodString .startRecognition then startRecog response
  else if value = getMethodString .cancelRecognition then cancelRecog response
  else []

/-- A message with the method name RESPONSE. -/
def handle (response : ASRMessageResponse) : List WsStmt := sessionStatus ++ dispatch response

/-- The name of the header is no session status: a response sets none. -/
theorem session_status_nil : sessionStatus = [] := by decide

/-- The value of the method header is the name of a method. -/
def RepliesTo (c : Method) (response : ASRMessageResponse) : Prop :=
  response.getHeader ResponseHeader.method.getString = getMethodString c

/-- What a reply makes the websocket thread do. -/
inductive Handles (response : ASRMessageResponse) : List WsStmt → Prop where
  | created (method : RepliesTo .createSession response) (success : succeeded response = true) :
      Handles response [.configure]
  | configured (method : RepliesTo .setParameters response) (success : succeeded response = true) :
      Handles response [.startRecognition]
  | started (method : RepliesTo .startRecognition response) (success : succeeded response = true) :
      Handles response [.startSender]
  | cancelled (method : RepliesTo .cancelRecognition response)
      (confirmed : (succeeded response || invalidAction response) = true) :
      Handles response [.clearResult, .clearRecognizing]
  | refused (error : RecognitionError) : Handles response (recognitionError error)
  | ignored : Handles response []

/-- A successful reply is handled as its request asks, any other as an error. -/
theorem on_success_handles (response : ASRMessageResponse) (stmts : List WsStmt)
    (handles : succeeded response = true → Handles response stmts) :
    Handles response (onSuccess response stmts) := by
  rw [onSuccess]
  split_ifs with success
  · exact handles success
  · exact .refused _

/-- Every reply is handled in one of these ways. -/
theorem handle_handles (response : ASRMessageResponse) : Handles response (handle response) := by
  rw [handle, session_status_nil, List.nil_append, dispatch]
  split_ifs with created configured started cancelled
  · exact on_success_handles response _ (.created created)
  · exact on_success_handles response _ (.configured configured)
  · exact on_success_handles response _ (.started started)
  · rw [cancelRecog]
    split_ifs with confirmed
    · exact .cancelled cancelled confirmed
    · exact .refused _
  · exact .ignored

end ASRProcessResponse

namespace ASRProcessResult

/-- The status header of a result. -/
def resultStatus (response : ASRMessageResponse) : Bytes :=
  response.getHeader (bytes "Result-Status")

/-- A result with the status CANCELED. -/
def canceled (response : ASRMessageResponse) : Bool :=
  resultStatus response = RecognitionResult.getString .canceled

/-- A boolean member of the body, or its default. -/
def flag (json : Json) (key : String) (default : Bool) : Bool :=
  if (json.get (bytes key)).isBool then (json.get (bytes key)).boolValue else default

/-- A result is final when the body says so, or else by its status. -/
def finalResult (response : ASRMessageResponse) (json : Json) : Bool :=
  flag json "final_result" (resultStatus response = RecognitionResult.getString .recognized)

/-- The last segment, unless the body says otherwise. -/
def lastSegment (json : Json) : Bool := flag json "last_segment" true

/-- The times of a result, where the body has them. -/
def withTimes (json : Json) (result : RecognitionResult) : RecognitionResult :=
  { result with
    startTime := if (json.get (bytes "start_time")).isNumber then
      BinaryFormat.single.ofNumber (json.get (bytes "start_time")).numberValue
      else result.startTime
    endTime := if (json.get (bytes "end_time")).isNumber then
      BinaryFormat.single.ofNumber (json.get (bytes "end_time")).numberValue else result.endTime }

/-- A final result: it is stored before the flag of its last segment is set, and the
listeners receive it with the flag. -/
def finalSegment (json : Json) : List WsStmt :=
  let res := withTimes json (recognitionResultFromJson json)
  [.pushResult res,
    .invoke (.onRecognitionResult { res with lastSegment := some (lastSegment json) })] ++
    if lastSegment json then [.clearRecognizing] else []

/-- A partial result; the body may have none. -/
def partialSegment (json : Json) : List WsStmt :=
  match partialRecognitionFromJson json with
  | none => [.outOfRange]
  | some partialResult => [.invoke (.onPartialRecognition partialResult)]

/-- The session status of a result. -/
def sessionStatus (response : ASRMessageResponse) : List WsStmt :=
  if response.getHeader (bytes "Session-Status") = bytes "IDLE" then [.setSessionStatus .kIdle]
  else []

/-- A message with the method name RECOGNITION_RESULT. -/
def handle (parse : Bytes → Json) (response : ASRMessageResponse) : List WsStmt :=
  sessionStatus response ++
    if canceled response then [.clearRecognizing]
    else if response.extra = [] then
      [.pushResult (.ofString (resultStatus response)), .invokeResults, .clearRecognizing]
    else
      let json := parse response.extra
      if finalResult response json then finalSegment json else partialSegment json

/-- What a result makes the websocket thread do, behind the session status. -/
inductive Handles (parse : Bytes → Json) (response : ASRMessageResponse) : List WsStmt → Prop where
  | canceled (status : canceled response = true) : Handles parse response [.clearRecognizing]
  | bodiless (going : canceled response = false) (empty : response.extra = []) :
      Handles parse response
        [.pushResult (.ofString (resultStatus response)), .invokeResults, .clearRecognizing]
  | segment (going : canceled response = false) (body : response.extra ≠ [])
      (isFinal : finalResult response (parse response.extra) = true) :
      Handles parse response (finalSegment (parse response.extra))
  | announced (going : canceled response = false) (body : response.extra ≠ [])
      (notFinal : finalResult response (parse response.extra) = false)
      (partialResult : PartialRecognition) :
      Handles parse response [.invoke (.onPartialRecognition partialResult)]
  | undefined (going : canceled response = false) (body : response.extra ≠ [])
      (notFinal : finalResult response (parse response.extra) = false) :
      Handles parse response [.outOfRange]

/-- A result sets at most one session status. -/
theorem session_status_cases (response : ASRMessageResponse) :
    sessionStatus response = [] ∨ sessionStatus response = [.setSessionStatus .kIdle] := by
  rw [sessionStatus]
  split_ifs
  · exact Or.inr rfl
  · exact Or.inl rfl

/-- Every result is handled in one of these ways. -/
theorem handle_handles (parse : Bytes → Json) (response : ASRMessageResponse) :
    ∃ stmts, handle parse response = sessionStatus response ++ stmts ∧
      Handles parse response stmts := by
  refine ⟨_, rfl, ?_⟩
  dsimp only
  split_ifs with status empty isFinal
  · exact .canceled status
  · exact .bodiless (by simpa using status) empty
  · exact .segment (by simpa using status) empty isFinal
  · rw [partialSegment]
    split
    · exact .undefined (by simpa using status) empty (by simpa using isFinal)
    · exact .announced (by simpa using status) empty (by simpa using isFinal) _

end ASRProcessResult

/-- The chain of handlers. -/
def ASRProcessMsg.handle (parse : Bytes → Json) (response : ASRMessageResponse) : List WsStmt :=
  match methodWord response with
  | none => [.outOfRange]
  | some method =>
      if contains method (getMethodString .response) then ASRProcessResponse.handle response
      else if contains method (getMethodString .recognitionResult) then
        ASRProcessResult.handle parse response
      else if contains method (getMethodString .startOfSpeech) then [.invoke (.onSpeechStart 0)]
      else if contains method (getMethodString .endOfSpeech) then [.invoke (.onSpeechStop 0)]
      else []

/-- The response handler takes the message. -/
def isResponse (response : ASRMessageResponse) : Bool :=
  match methodWord response with
  | none => false
  | some method => contains method (getMethodString .response)

/-- The result handler takes the message. -/
def isResult (response : ASRMessageResponse) : Bool :=
  match methodWord response with
  | none => false
  | some method => !contains method (getMethodString .response) &&
      contains method (getMethodString .recognitionResult)

/-- The handler of the chain that takes a message. The others are those of the speech, the
end of the chain, and the read past the end of the start line. -/
inductive ASRProcessMsg.Handles (parse : Bytes → Json) (response : ASRMessageResponse) :
    List WsStmt → Prop where
  | response (kind : isResponse response = true) (noResult : isResult response = false) :
      Handles parse response (ASRProcessResponse.handle response)
  | result (kind : isResult response = true) (noResponse : isResponse response = false) :
      Handles parse response (ASRProcessResult.handle parse response)
  | other (stmts : List WsStmt) (noResponse : isResponse response = false)
      (noResult : isResult response = false)
      (few : stmts ∈ [[.outOfRange], [.invoke (.onSpeechStart 0)], [.invoke (.onSpeechStop 0)], []]) :
      Handles parse response stmts

/-- Every message is taken by one of these handlers. -/
theorem ASRProcessMsg.handle_handles (parse : Bytes → Json) (response : ASRMessageResponse) :
    ASRProcessMsg.Handles parse response (ASRProcessMsg.handle parse response) := by
  rw [ASRProcessMsg.handle]
  split
  · rename_i short
    exact .other _ (by simp [isResponse, short]) (by simp [isResult, short]) (by simp)
  · rename_i method word
    split_ifs with response result
    · apply ASRProcessMsg.Handles.response
      · simp [isResponse, word, response]
      · simp [isResult, word, response]
    · apply ASRProcessMsg.Handles.result
      · simp [isResult, word, response, result]
      · simp [isResponse, word, response]
    all_goals
      refine .other _ ?_ ?_ (by simp)
      · simp [isResponse, word, response]
      · simp [isResult, word, result]

/-- What a statement of a handler answers to. No handler reports that the server listens. -/
inductive ASRProcessMsg.Performs (response : ASRMessageResponse) : WsStmt → Prop where
  | idle (kind : isResult response = true)
      (value : response.getHeader (bytes "Session-Status") = bytes "IDLE") :
      Performs response (.setSessionStatus .kIdle)
  | configure (kind : isResponse response = true)
      (method : ASRProcessResponse.RepliesTo .createSession response)
      (success : ASRProcessResponse.succeeded response = true) : Performs response .configure
  | startRecognition (kind : isResponse response = true)
      (method : ASRProcessResponse.RepliesTo .setParameters response)
      (success : ASRProcessResponse.succeeded response = true) :
      Performs response .startRecognition
  | startSender (kind : isResponse response = true)
      (method : ASRProcessResponse.RepliesTo .startRecognition response)
      (success : ASRProcessResponse.succeeded response = true) : Performs response .startSender
  | clearResult : Performs response .clearResult
  | clearRecognizing : Performs response .clearRecognizing
  | pushResult (result : RecognitionResult) : Performs response (.pushResult result)
  | invokeResults : Performs response .invokeResults
  | invoke (callback : Callback) (other : callback ≠ .onListening) :
      Performs response (.invoke callback)
  | setEptr (exception : Exception) : Performs response (.setEptr exception)
  | outOfRange : Performs response .outOfRange

/-- Every statement of the response handler is one of these. -/
theorem ASRProcessResponse.handle_performs (response : ASRMessageResponse)
    (kind : isResponse response = true) :
    ∀ stmt ∈ ASRProcessResponse.handle response, ASRProcessMsg.Performs response stmt := by
  have handles := ASRProcessResponse.handle_handles response
  generalize ASRProcessResponse.handle response = stmts at handles
  cases handles with
  | created method success => simpa using .configure kind method success
  | configured method success => simpa using .startRecognition kind method success
  | started method success => simpa using .startSender kind method success
  | cancelled method confirmed => simpa using ⟨.clearResult, .clearRecognizing⟩
  | refused error =>
    simpa [ASRProcessResponse.recognitionError] using
      ⟨ASRProcessMsg.Performs.invoke _ (by simp), ASRProcessMsg.Performs.setEptr _⟩
  | ignored => simp

/-- Every statement of the result handler is one of these. -/
theorem ASRProcessResult.handle_performs (parse : Bytes → Json) (response : ASRMessageResponse)
    (kind : isResult response = true) :
    ∀ stmt ∈ ASRProcessResult.handle parse response, ASRProcessMsg.Performs response stmt := by
  obtain ⟨stmts, handler, handles⟩ := ASRProcessResult.handle_handles parse response
  rw [handler, List.forall_mem_append]
  constructor
  · rw [ASRProcessResult.sessionStatus]
    split_ifs with value
    · simpa using .idle kind value
    · simp
  · have announces (result : RecognitionResult) :
        ASRProcessMsg.Performs response (.invoke (.onRecognitionResult result)) :=
      .invoke _ (by simp)
    cases handles with
    | canceled status => simpa using .clearRecognizing
    | bodiless going empty => simpa using ⟨.pushResult _, .invokeResults, .clearRecognizing⟩
    | segment going body isFinal =>
      rw [ASRProcessResult.finalSegment]
      split_ifs
      · simpa using ⟨.pushResult _, announces _, .clearRecognizing⟩
      · simpa using ⟨.pushResult _, announces _⟩
    | announced going body notFinal partialResult => simpa using .invoke _ (by simp)
    | undefined going body notFinal => simpa using .outOfRange

/-- Every statement of a handler is one of these. -/
theorem ASRProcessMsg.handle_performs (parse : Bytes → Json) (response : ASRMessageResponse) :
    ∀ stmt ∈ ASRProcessMsg.handle parse response, ASRProcessMsg.Performs response stmt := by
  have handles := ASRProcessMsg.handle_handles parse response
  generalize ASRProcessMsg.handle parse response = stmts at handles
  cases handles with
  | response kind noResult => exact ASRProcessResponse.handle_performs response kind
  | result kind noResponse => exact ASRProcessResult.handle_performs parse response kind
  | other _ noResponse noResult few =>
    simp only [List.mem_cons, List.not_mem_nil, or_false] at few
    rcases few with rfl | rfl | rfl | rfl
    · simpa using .outOfRange
    · simpa using .invoke _ (by simp)
    · simpa using .invoke _ (by simp)
    · simp

end AsrClient
