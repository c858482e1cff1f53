import AsrClient.WsParser

/-!
# Requests and responses

A message has a start line, headers ordered by key, and extra content. A request is
built from a method and edited, and `raw` encodes it for the wire. A response is what
`consume` decodes from a received payload through the message parser.

The two halves were written separately. `raw` closes extra content with a line end of
its own; the parser takes the body from the end of the payload.
-/

namespace AsrClient

/-- The methods of the protocol. -/
inductive Method where
  | createSession
  | setParameters
  | getParameters
  | startRecognition
  | startInputTimers
  | sendAudio
  | cancelRecognition
  | releaseSession
  | response
  | startOfSpeech
  | endOfSpeech
  | recognitionResult
deriving DecidableEq

/-- The name of a method on the wire. -/
def getMethodString : Method → Bytes
  | .createSession => bytes "CREATE_SESSION"
  | .setParameters => bytes "SET_PARAMETERS"
  | .getParameters => bytes "GET_PARAMETERS"
  | .startRecognition => bytes "START_RECOGNITION"
  | .startInputTimers => bytes "START_INPUT_TIMERS"
  | .sendAudio => bytes "SEND_AUDIO"
  | .cancelRecognition => bytes "CANCEL_RECOGNITION"
  | .releaseSession => bytes "RELEASE_SESSION"
  | .response => bytes "RESPONSE"
  | .startOfSpeech => bytes "START_OF_SPEECH"
  | .endOfSpeech => bytes "END_OF_SPEECH"
  | .recognitionResult => bytes "RECOGNITION_RESULT"

/-- The protocol version at the start of every message. -/
def asrVersion : Bytes := bytes "ASR 2.4"

/-- The line end of the protocol. -/
def msgDelimiter : Bytes := [cr, lf]

/-- The start line of a request. -/
def firstLine (c : Method) : Bytes := asrVersion ++ [space] ++ getMethodString c

/-- `split`: the pieces between delimiters, read by `std::getline`. -/
def split (s : Bytes) (delim : Byte) : List Bytes := getlines delim s

/-- The data common to all messages. -/
structure ASRMessageParser where
  startLine : Bytes := []
  headers : HeaderMap := ∅
  extra : Bytes := []

/-- A message to be sent. -/
abbrev ASRMessageRequest := ASRMessageParser

/-- A received message. -/
abbrev ASRMessageResponse := ASRMessageParser

namespace ASRMessageParser

/-- One header on the wire. -/
def headerLine (header : Bytes × Bytes) : Bytes :=
  header.1 ++ [colon] ++ header.2 ++ msgDelimiter

/-- The encoded message. -/
def raw (message : ASRMessageParser) : Bytes :=
  (if message.startLine = [] then [] else message.startLine ++ msgDelimiter) ++
    message.headers.toList.flatMap headerLine ++ msgDelimiter ++
    (if message.extra = [] then [] else message.extra ++ msgDelimiter)

/-- The value of a header; a missing header reads as the empty string. -/
def getHeader (message : ASRMessageParser) (key : Bytes) : Bytes :=
  message.headers[key]?.getD []

end ASRMessageParser

namespace ASRMessageRequest

/-- A request for a method, without headers or extra content. -/
def create (c : Method) : ASRMessageRequest := { startLine := firstLine c }

/-- Set a header, replacing a former value. -/
def setHeader (request : ASRMessageRequest) (key val : Bytes) : ASRMessageRequest :=
  { request with headers := request.headers.insert key val }

/-- Remove a header. -/
def removeHeader (request : ASRMessageRequest) (key : Bytes) : ASRMessageRequest :=
  { request with headers := request.headers.erase key }

/-- Set the extra content. -/
def setExtra (request : ASRMessageRequest) (value : Bytes) : ASRMessageRequest :=
  { request with extra := value }

/-- A header reads back as it was set, and the others as before. -/
theorem get_set_header (request : ASRMessageRequest) (key val other : Bytes) :
    (request.setHeader key val).getHeader other =
      if key = other then val else request.getHeader other := by
  rw [setHeader, ASRMessageParser.getHeader, Std.ExtTreeMap.getElem?_insert]
  by_cases same : key = other
  · rw [if_pos (Std.compare_eq_iff_eq.mpr same), if_pos same]
    rfl
  · rw [if_neg (fun equal => same (Std.compare_eq_iff_eq.mp equal)), if_neg same]
    rfl

end ASRMessageRequest

namespace ASRMessageResponse

/-- Decode a received payload. The version in the rebuilt start line is fixed; the
search for the empty line has no effect on the message. -/
def consume (payload : Bytes) : Except Thrown ASRMessageResponse := do
  let parser ← WsParser.ofString payload
  pure {
    startLine := bytes "ASR 2.4 " ++ parser.command
    headers := parser.props
    extra := parser.body }

end ASRMessageResponse

end AsrClient
