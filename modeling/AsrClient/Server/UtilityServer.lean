import AsrClient.Package

/-!
# The mock server

The repository brings a server of its own, against which the tests of the client run. It
reads every message with the parser class. A message that is no audio is answered by one
response, which names its method and reports success. Audio is not answered: the server
counts it for each connection, announces speech when it has a few pieces, and sends one
result, always the same, when it has enough of them or the last one.

The counter of a new connection has no value until a request for a session assigns one,
and to read it before is undefined. The status of the session and the parameters are kept
once for all connections. What the server prints and dumps to files is left out.
-/

namespace AsrClient

/-- A connection of the server, told apart by a number. -/
abbrev ConnectionHdl := Nat

/-- What the server keeps for a connection. -/
structure Session where
  audioCounter : Option Int := none
deriving DecidableEq

/-- The server. The status of the session is a static variable of a function. -/
structure UtilityServer where
  sessionStatus : Bytes := bytes "IDLE"
  parser : WsParser := {}
  sessionMap : Std.ExtTreeMap ConnectionHdl Session compare := ∅

/-- A message of the server, before it is written. -/
inductive Reply where
  | response (package : WsParser)
  | startOfInput
  | result

/-- A string that is passed on as a pointer to its characters ends at its first NUL. -/
def cStr (str : Bytes) : Bytes := str.takeWhile (· ≠ 0)

/-- The announcement of speech. -/
def startOfInputMsg : Bytes :=
  bytes "ASR 2.4 START_OF_SPEECH\r\n" ++
  bytes "Handle: dee87ac1-ab75-464c-8f1d-8cb62fc24c57\r\n" ++
  bytes "Session-Status: LISTENING\r\n\r\n"

/-- The body of the result. -/
def resultBody : Bytes :=
  bytes "\x7b\"alternatives\":[\x7b\"text\":\"2345678\",\"words\":[\x7b\"text\":\"2345678\",\"score\":" ++
  bytes "99," ++
  bytes "\"start_time\":1.1,\"end_time\":3.92\x7d],\"score\":99,\"lm\":\"builtin:slm/general\"\x7d]," ++
  bytes "\"segment_index\":0,\"last_segment\":true,\"final_result\":true,\"start_time\":0.95," ++
  bytes "\"end_time\":4.01,\"result_status\":\"RECOGNIZED\"\x7d"

/-- The result. -/
def resultChar : Bytes :=
  bytes "ASR 2.4 RECOGNITION_RESULT\r\n" ++
  bytes "Handle: 202204121653500000\r\n" ++
  bytes "Result-Status: RECOGNIZED\r\n" ++
  bytes "Session-Status: IDLE\r\n" ++
  bytes "Content-Length: 269\r\n" ++
  bytes "Content-Type: application/json\r\n" ++
  bytes "\r\n" ++ resultBody

/-- A message as it is sent. -/
def Reply.wire : Reply → Bytes
  | .response package => cStr package.str
  | .startOfInput => cStr startOfInputMsg
  | .result => cStr resultChar

namespace UtilityServer

/-- The number of audio messages that make the server send its result. -/
def endRecognize : Int := 20

/-- `GenerateCompletionCause`: whether the request succeeds, with a code and a message. -/
def generateCompletionCause (_ : WsParser) : Bool × Bytes × Bytes :=
  (true, bytes "000", bytes "success")

/-- The loop over the requested parameters. The value is declared in front of the loop: a
parameter that is not stored is reported with the value found last. -/
def reportParams (stored : WsParser) : List (Bytes × Bytes) → Bytes → WsParser → WsParser
  | [], _, p => p
  | par :: pars, value, p =>
      let value := stored.props[par.1]?.getD value
      reportParams stored pars value (p.add par.1 value)

/-- The part of a response that comes before the parameters. -/
def beginResponse (pp : WsParser) (version sessionStatus : Bytes) : WsParser :=
  let ret := generateCompletionCause pp
  ((({} : WsParser).setCmd (bytes "RESPONSE")).setVersion version)
    |>.add (bytes "Message") ret.2.2
    |>.add (bytes "Error-Code") ret.2.1
    |>.add (bytes "Result") (if ret.1 then bytes "SUCCESS " else bytes "FAILURE ")
    |>.add (bytes "Session-Status") sessionStatus

/-- The part that comes behind them. -/
def endResponse (pp p : WsParser) : WsParser :=
  (p.add (bytes "Method") pp.command).add (bytes "Handle") (bytes "202106091928510001 ")

/-- The start of a recognition sets the status before it is reported. -/
def listen (server : UtilityServer) (pp : WsParser) : UtilityServer :=
  if pp.command = bytes "START_RECOGNITION" then { server with sessionStatus := bytes "LISTENING" }
  else server

/-- The server and its response behind a request that has been read. -/
def respond (server : UtilityServer) (pp : WsParser) (version : Bytes) : UtilityServer × WsParser :=
  let server := server.listen pp
  let p := beginResponse pp version server.sessionStatus
  if pp.command = bytes "CREATE_SESSION" then
    ({ server with sessionStatus := bytes "IDLE" }, endResponse pp p)
  else if pp.command = bytes "GET_PARAMETERS" then
    (server, endResponse pp (reportParams server.parser pp.props.toList [] p))
  else if pp.command = bytes "SET_PARAMETERS" then
    if bytes "InvalidParam" ∈ pp.props then
      ({ server with parser := pp.add (bytes "InvalidParam") (bytes "ERR_INVALID_PARAMETER") },
        endResponse pp (p.add (bytes "InvalidParam") (bytes "ERR_INVALID_PARAMETER")))
    else ({ server with parser := pp }, endResponse pp p)
  else (server, endResponse pp p)

/-- `FillResponseWithParams`. -/
def fillResponseWithParams (server : UtilityServer) (message version : Bytes) :
    Except Thrown (UtilityServer × WsParser) :=
  (WsParser.ofString message).map fun pp => server.respond pp version

/-- The value of the counter; to read it before it is assigned is undefined. -/
def readCounter : Option Int → Except Thrown Int
  | none => .error .undefined
  | some counter => .ok counter

/-- The counter of a connection behind a message that is no audio. -/
def counterBehind (command : Bytes) (counter : Option Int) : Option Int :=
  if command = bytes "CREATE_SESSION" ∨ command = bytes "RELEASE_SESSION" then some 0 else counter

/-- The counter behind an audio message, and what is sent for the last one. -/
def countAudio (parser : WsParser) (counter : Int) : Int × List Reply :=
  let counter := if counter < endRecognize then counter + 1 else counter
  if parser.props[bytes "LastPacket"]? = some (bytes "true") then (endRecognize, [.startOfInput])
  else (counter, [])

/-- What follows from the counter behind every message. Once the result is sent the counter
stops. -/
def announce (counter : Int) : Int × List Reply :=
  let speech := if counter = endRecognize / 5 then [Reply.startOfInput] else []
  if counter = endRecognize then (endRecognize + 1, speech ++ [.result]) else (counter, speech)

/-- What a message makes of the server, of the counter of its connection, and what is sent
for it before the counter is looked at. -/
def serveMessage (server : UtilityServer) (session : Session) (parser : WsParser)
    (payload : Bytes) : Except Thrown (UtilityServer × Int × List Reply) := do
  if parser.command ≠ bytes "SEND_AUDIO" then
    let (server, ans) ← server.fillResponseWithParams payload (bytes "2.4")
    let counter ← readCounter (counterBehind parser.command session.audioCounter)
    pure (server, counter, [.response ans])
  else
    let counter ← readCounter session.audioCounter
    let (counter, sent) := countAudio parser counter
    pure (server, counter, sent)

/-- `echo_handler`: a message arrives on a connection. -/
def echoHandler (server : UtilityServer) (hdl : ConnectionHdl) (payload : Bytes) :
    Except Thrown (UtilityServer × List Reply) := do
  let parser ← WsParser.ofString payload
  match server.sessionMap[hdl]? with
  | none => throw .undefined
  | some session =>
      let (server, counter, sent) ← server.serveMessage session parser payload
      let (counter, more) := announce counter
      let session := { session with audioCounter := some counter }
      pure ({ server with sessionMap := server.sessionMap.insert hdl session }, sent ++ more)

/-- `on_open`: a connection is there that was not. -/
def onOpen (server : UtilityServer) (hdl : ConnectionHdl) : UtilityServer :=
  { server with sessionMap := server.sessionMap.insertIfNew hdl {} }

/-- `on_close`. -/
def onClose (server : UtilityServer) (hdl : ConnectionHdl) : UtilityServer :=
  { server with sessionMap := server.sessionMap.erase hdl }

/-- What the server meets: a connection opens or closes, or a message arrives on it. -/
inductive ServerEvent where
  | opened (hdl : ConnectionHdl)
  | closed (hdl : ConnectionHdl)
  | message (hdl : ConnectionHdl) (payload : Bytes)
deriving DecidableEq

/-- The connection of an event. -/
def ServerEvent.hdl : ServerEvent → ConnectionHdl
  | .opened hdl => hdl
  | .closed hdl => hdl
  | .message hdl _ => hdl

/-- The handler of an event. All that it sends goes to the connection of the event. -/
def react (server : UtilityServer) : ServerEvent → Except Thrown (UtilityServer × List Reply)
  | .opened hdl => .ok (server.onOpen hdl, [])
  | .closed hdl => .ok (server.onClose hdl, [])
  | .message hdl payload => server.echoHandler hdl payload

/-- The state of the server behind a message, with the counter of its connection. -/
def setCounter (server : UtilityServer) (hdl : ConnectionHdl) (counter : Int) : UtilityServer :=
  { server with sessionMap := server.sessionMap.insert hdl { audioCounter := some counter } }

/-- How a message is handled: as a request, which is answered, or as audio. -/
inductive Handles (server : UtilityServer) (hdl : ConnectionHdl) (parser : WsParser)
    (session : Session) : UtilityServer → List Reply → Prop where
  | request (counter : Int) (noAudio : parser.command ≠ bytes "SEND_AUDIO")
      (value : counterBehind parser.command session.audioCounter = some counter) :
      Handles server hdl parser session
        ((server.respond parser (bytes "2.4")).1.setCounter hdl (announce counter).1)
        (.response (server.respond parser (bytes "2.4")).2 :: (announce counter).2)
  | audio (counter : Int) (isAudio : parser.command = bytes "SEND_AUDIO")
      (value : session.audioCounter = some counter) :
      Handles server hdl parser session
        (server.setCounter hdl (announce (countAudio parser counter).1).1)
        ((countAudio parser counter).2 ++ (announce (countAudio parser counter).1).2)

/-- Every message that the server survives is read, belongs to a connection, and is handled in
one of these ways. -/
theorem echo_handler_handles {server after : UtilityServer} {hdl : ConnectionHdl} {payload : Bytes}
    {replies : List Reply} (handled : server.echoHandler hdl payload = .ok (after, replies)) :
    ∃ parser session, WsParser.ofString payload = .ok parser ∧
      server.sessionMap[hdl]? = some session ∧
      Handles server hdl parser session after replies := by
  rw [echoHandler] at handled
  cases read : WsParser.ofString payload with
  | error thrown =>
    rw [read] at handled
    cases handled
  | ok parser =>
    cases here : server.sessionMap[hdl]? with
    | none =>
      simp only [read, here, bind, Except.bind] at handled
      cases handled
    | some session =>
      refine ⟨parser, session, rfl, rfl, ?_⟩
      simp only [read, here, serveMessage, fillResponseWithParams, bind, Except.bind,
        Except.map, pure, Except.pure] at handled
      by_cases noAudio : parser.command ≠ bytes "SEND_AUDIO"
      · rw [if_pos noAudio] at handled
        cases value : counterBehind parser.command session.audioCounter with
        | none =>
          simp only [value, readCounter] at handled
          cases handled
        | some counter =>
          simp only [value, readCounter] at handled
          cases handled
          exact .request counter noAudio value
      · rw [if_neg noAudio] at handled
        cases value : session.audioCounter with
        | none =>
          simp only [value, readCounter] at handled
          cases handled
        | some counter =>
          simp only [value, readCounter] at handled
          cases handled
          exact .audio counter (not_not.mp noAudio) value

/-- A message that is read, on a connection whose counter has a value behind it, is handled. -/
theorem echo_handler_ok (server : UtilityServer) (hdl : ConnectionHdl) (payload : Bytes)
    (parser : WsParser) (session : Session) (read : WsParser.ofString payload = .ok parser)
    (here : server.sessionMap[hdl]? = some session)
    (counted : (counterBehind parser.command session.audioCounter).isSome = true) :
    ∃ after replies, server.echoHandler hdl payload = .ok (after, replies) := by
  obtain ⟨counter, value⟩ := Option.isSome_iff_exists.mp counted
  rw [echoHandler]
  simp only [read, here, serveMessage, fillResponseWithParams, bind, Except.bind, Except.map, pure,
    Except.pure]
  by_cases noAudio : parser.command ≠ bytes "SEND_AUDIO"
  · rw [if_pos noAudio]
    simp only [value, readCounter]
    exact ⟨_, _, rfl⟩
  · rw [if_neg noAudio]
    have same : session.audioCounter = some counter := by
      rw [counterBehind, not_not.mp noAudio, if_neg (by decide)] at value
      exact value
    simp only [same, readCounter]
    exact ⟨_, _, rfl⟩

end UtilityServer

end AsrClient
