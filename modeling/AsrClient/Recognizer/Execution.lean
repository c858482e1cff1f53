import AsrClient.Library.Transitions
import AsrClient.Recognizer.Handlers

/-!
# The steps of a speech recognizer

The functions of the public interface and of the implementation are lists of
statements. A statement is performed in one step; it may put the statements of a branch
or of a called function before the rest, or end the call by an exception.

A step takes what the program does not decide as its label: the call of the
application, a payload of the server, the events of the connection, the audio that is
read, the end of a timeout, and whether a call of the network library succeeds. A wait
on the condition variable may wake at any time, as the standard allows, so
notifications have no step of their own. Time and the contents of the log file are left
out.
-/

namespace AsrClient

/-- How a call of the network library ends. -/
inductive Outcome where
  | ok
  | fails
  | throws
deriving DecidableEq

/-- What happens in a step. -/
inductive Label where
  | call (call : Call)
  | app (outcome : Outcome)
  | timeout
  | receive (payload : Bytes)
  | opened
  | failed
  | closed
  | ws (outcome : Outcome)
  | read (ret : Int) (chunk : Bytes)
  | sender (outcome : Outcome)
deriving DecidableEq

namespace SpeechRecognizer

/-- `Impl::open`, behind its test of the open flag. -/
def implOpen : List AppStmt := [.init, .lock, .await .status, .unlock, .checkStatus]

/-- `Impl::terminateSendMessageThread`. -/
def terminateSendMessageThread : List AppStmt := [.testJoinable, .closeAudio, .clearTerminate]

/-- `Impl::close`. -/
def implClose : List AppStmt := terminateSendMessageThread ++ [.joinThread, .clearOpen]

/-- `resetImpl`: the former object is destroyed, and closed if it is open. -/
def resetImpl : List AppStmt :=
  [.closeIfOpen, .freshImpl, .moveConfig, .moveListener, .connectUnlessDeferred]

/-- `recognize`. -/
def recognize (audioSrc : Option AudioSource) (lm : Option LanguageModelList) : List AppStmt :=
  [.rejectActive, .setRecognizing, .clearEptr, .clearResult, .setAudioSrc audioSrc, .setLm lm,
    .connect, .firstRequest, .ret (.recognize audioSrc lm)]

/-- `waitRecognitionResult`. -/
def waitRecognitionResult : List AppStmt := [.branchOpen, .ret .waitRecognitionResult]

/-- What both branches of `waitRecognitionResult` do before they return. -/
def takeResults : List AppStmt := [.takeResult, .clearResult, .rethrow, .resetIfAutoClose]

/-- `cancelRecognition`. -/
def cancelRecognition : List AppStmt :=
  [.cancelRequest, .testJoinable, .clearTerminate, .closeIfAutoClose, .ret .cancelRecognition]

/-- `close`. -/
def close : List AppStmt := [.closeIfOpen, .ret .close]

/-- The statements of a call. -/
def program : Call → List AppStmt
  | .recognize audioSrc lm => recognize audioSrc lm
  | .waitRecognitionResult => waitRecognitionResult
  | .cancelRecognition => cancelRecognition
  | .close => close

end SpeechRecognizer

/-- The predicate of a wait. -/
def Condition.holds (impl : Impl) : Condition → Bool
  | .result => 0 < impl.result.length || impl.eptr.isSome || !impl.recognizing
  | .status => impl.status ≠ .kConnecting

open SpeechRecognizer

/-- Perform a statement of the application thread, which has been taken off its list. A
statement without a result is blocked. -/
def execApp (outcome : Outcome) (system : System) : AppStmt → Option System
  | .rejectActive =>
      if system.impl.recognizing then
        system.raise (.recognition ⟨.activeRecognition,
          bytes "There is a recognition already running in this recognizier!"⟩)
      else system
  | .setRecognizing =>
      (system.withImpl { system.impl with recognizing := true }).record .accepted
  | .clearEptr => system.withImpl { system.impl with eptr := none }
  | .clearResult => (system.withImpl { system.impl with result := [] }).record .emptied
  | .setAudioSrc audioSrc => system.withImpl { system.impl with audioSrc }
  | .setLm lm => system.withImpl { system.impl with lm }
  | .connect => if system.impl.isOpen then system else system.appThen implOpen
  | .firstRequest =>
      if system.impl.sessionStatus = .kNone then system.appThen [.createSession]
      else system.appThen [.startRecognition]
  | .createSession => system.send .application ASRSendMessage.createSession (outcome = .ok)
  | .startRecognition =>
      match system.impl.lm with
      | none => system.crash .undefined
      | some lm =>
          match ASRSendMessage.startRecognition lm with
          | none => system.raise (.recognition ⟨.failure, bytes "lm uri and grammar body is emprty"⟩)
          | some request => system.send .application request (outcome = .ok)
  | .cancelRequest => system.send .application ASRSendMessage.cancelRecognition (outcome = .ok)
  | .branchOpen =>
      if system.impl.isOpen then
        system.appThen ([.lock, .await .result] ++ terminateSendMessageThread ++ takeResults)
      else system.appThen takeResults
  | .takeResult => some { system with taken := system.impl.result }
  | .rethrow =>
      match system.impl.eptr with
      | none => system
      | some exception => system.raise exception
  | .resetIfAutoClose =>
      if system.properties.autoClose && system.impl.isOpen then system.appThen resetImpl
      else system
  | .testJoinable =>
      if system.impl.sendAudioMessageThread.isSome then system.appThen [.setTerminate, .join]
      else system
  | .setTerminate => system.withImpl { system.impl with sendAudioMessageTerminate := true }
  | .join =>
      if system.impl.sendAudioMessageThread = some .finished then
        (system.withImpl { system.impl with sendAudioMessageThread := none }).record .senderJoined
      else none
  | .closeAudio =>
      match system.impl.audioSrc with
      | none => system
      | some audioSrc => system.record (.audioClosed audioSrc)
  | .clearTerminate => system.withImpl { system.impl with sendAudioMessageTerminate := false }
  | .closeIfOpen => if system.impl.isOpen then system.appThen implClose else system
  | .closeIfAutoClose =>
      if system.properties.autoClose && system.impl.isOpen then system.appThen implClose
      else system
  | .joinThread =>
      if system.ws = [] then system.withImpl { system.impl with thread := false } else none
  | .clearOpen => (system.withImpl { system.impl with isOpen := false }).record .closed
  | .init =>
      match outcome with
      | .throws => system.raise .library
      | .fails => system
      | .ok =>
          if system.impl.thread then system.crash .threadDestroyed
          else (system.withImpl { system.impl with thread := true }).appThen [.setOpen]
  | .setOpen => system.withImpl { system.impl with isOpen := true }
  | .lock =>
      if system.impl.lock = none then
        system.withImpl { system.impl with lock := some .application }
      else none
  | .unlock => system.withImpl { system.impl with lock := none }
  | .await condition =>
      if condition.holds system.impl then system
      else (system.withImpl { system.impl with lock := none }).appThen [.sleep condition]
  | .sleep condition =>
      if system.impl.lock = none then
        (system.withImpl { system.impl with lock := some .application }).appThen
          [.await condition]
      else none
  | .checkStatus =>
      let error : RecognitionError :=
        ⟨.connectionFailure, bytes "Failure on connecting to server " ++ system.properties.url⟩
      if system.impl.status = .kOpen then system.appThen [.setOpen]
      else system.appThen
        (system.impl.listener.map (.notifyListener · (.onError error)) ++
          [.throwException (.recognition error)])
  | .notifyListener listener callback => system.record (.notified listener callback)
  | .throwException exception => system.raise exception
  | .freshImpl =>
      if system.impl.sendAudioMessageThread.isSome || system.impl.thread then
        system.crash .threadDestroyed
      else system.withImpl {}
  | .moveConfig =>
      some { system with
        impl := { system.impl with config := system.properties.recogConfig }
        properties := { system.properties with recogConfig := none } }
  | .moveListener =>
      if system.properties.listener = [] then system
      else some { system with
        impl := { system.impl with listener := system.properties.listener }
        properties := { system.properties with listener := [] } }
  | .connectUnlessDeferred =>
      if system.properties.connectOnRecognize then system
      else system.appThen (implOpen ++ [.deferIfAutoClose])
  | .deferIfAutoClose =>
      if system.properties.autoClose then
        some { system with properties := { system.properties with connectOnRecognize := true } }
      else system
  | .constructed => some { system with isConstructed := true }
  | .ret call =>
      let value := if call = .waitRecognitionResult then system.taken else []
      (system.withImpl (System.released system.impl)).record (.returned call value)

/-- The deadline of a wait passes: the mutex is taken again, and the predicate is asked
once more. Only the wait for a result fails then. -/
def expire (system : System) (condition : Condition) : Option System :=
  if system.impl.lock = none then
    if condition = .result ∧ condition.holds system.impl = false then
      system.raise (.recognition ⟨.failure, bytes "Timeout on speech recog"⟩)
    else system.withImpl { system.impl with lock := some .application }
  else none

/-- Perform a statement of the websocket thread, which has been taken off its list. -/
def execWs (outcome : Outcome) (system : System) : WsStmt → System
  | .setStatus status => system.withImpl { system.impl with status }
  | .setSessionStatus status => system.withImpl { system.impl with sessionStatus := status }
  | .invoke callback => system.wsThen (system.impl.listener.map (.notifyListener · callback))
  | .invokeResults =>
      system.wsThen ((List.range system.impl.result.length).flatMap fun place =>
        system.impl.listener.map (.notifyStored · place))
  | .notifyListener listener callback => system.record (.notified listener callback)
  | .notifyStored listener place =>
      -- The reference of the loop is to an element that a wait may have destroyed.
      match system.impl.result[place]? with
      | none => system.crash .undefined
      | some result => system.record (.notified listener (.onRecognitionResult result))
  | .setEptr exception => system.withImpl { system.impl with eptr := some exception }
  | .configure =>
      if system.impl.config.isNone then system.wsThen [.startRecognition]
      else system.wsThen [.setParameters]
  | .setParameters =>
      match system.impl.config with
      | none => system.crash .undefined
      | some config =>
          system.send .websocket (ASRSendMessage.setParameters config) (outcome = .ok)
  | .startRecognition =>
      match system.impl.lm with
      | none => system.crash .undefined
      | some lm =>
          match ASRSendMessage.startRecognition lm with
          | none => system.crash .uncaughtException
          | some request => system.send .websocket request (outcome = .ok)
  | .startSender =>
      if system.impl.audioSrc.isNone then system
      else if system.impl.sendAudioMessageThread.isSome then system.crash .senderOverwritten
      else (system.withImpl { system.impl with sendAudioMessageThread := some .read }).record
        .senderStarted
  | .clearResult => system.withImpl { system.impl with result := [] }
  | .clearRecognizing => system.withImpl { system.impl with recognizing := false }
  | .pushResult result =>
      system.withImpl { system.impl with result := system.impl.result ++ [result] }
  | .outOfRange => system.crash .undefined

/-- The audio sender at another position. -/
def System.senderAt (system : System) (sender : Sender) : System :=
  system.withImpl { system.impl with sendAudioMessageThread := some sender }

/-- A read of the audio source returns. -/
def execRead (ret : Int) (chunk : Bytes) (system : System) : Option System :=
  if system.impl.sendAudioMessageThread = some .read then
    if system.impl.audioSrc.isNone then system.crash .undefined
    else system.senderAt (.test ret chunk)
  else none

/-- The other steps of the audio sender. An empty buffer that is not the last starts the
loop over. -/
def execSender (outcome : Outcome) (system : System) : Option System :=
  match system.impl.sendAudioMessageThread with
  | some (.test ret buffer) =>
      if system.impl.sendAudioMessageTerminate then system.senderAt .finished
      else if buffer = [] ∧ ret ≠ -1 then system.senderAt .read
      else system.senderAt (.wantLock ret buffer)
  | some (.wantLock ret buffer) =>
      if system.impl.lock = none then
        (system.withImpl { system.impl with lock := some .sender }).senderAt (.logging ret buffer)
      else none
  | some (.logging ret buffer) =>
      (system.withImpl { system.impl with lock := none }).senderAt (.sending ret buffer)
  | some (.sending ret buffer) =>
      (system.send .sender (ASRSendMessage.sendAudio ret buffer) (outcome = .ok)).senderAt
        (if ret = -1 then .finished else .read)
  | some .read => none
  | some .finished => none
  | none => none

/-- The websocket thread turns to a new event once the last one is handled. -/
def System.listen (system : System) (stmts : List WsStmt) : Option System :=
  if system.impl.thread ∧ system.ws = [] then some { system with ws := stmts } else none

/-- One step. A lost process makes none. -/
def step (parse : Bytes → Json) (system : System) (label : Label) : Option System :=
  if system.crashed.isSome then none
  else match label with
    | .call call =>
        if system.isConstructed ∧ system.app = [] then
          ({ system with app := program call } : System).record (.called call)
        else none
    | .app outcome =>
        match system.app with
        | [] => none
        | stmt :: rest => execApp outcome { system with app := rest } stmt
    | .timeout =>
        match system.app with
        | .sleep condition :: rest => expire { system with app := rest } condition
        | _ => none
    | .receive payload =>
        match ASRMessageResponse.consume payload with
        | .error thrown =>
            (system.listen []).map
              (·.crash (if thrown = .undefined then .undefined else .uncaughtException))
        | .ok response =>
            (system.listen (ASRProcessMsg.handle parse response)).map
              (·.record (.received response))
    | .opened => system.listen [.setStatus .kOpen]
    | .failed => system.listen [.setEptr .library, .setStatus .kFailed]
    | .closed => system.listen [.setStatus .kClose]
    | .ws outcome =>
        match system.ws with
        | [] => none
        | stmt :: rest => execWs outcome { system with ws := rest } stmt
    | .read ret chunk => execRead ret chunk system
    | .sender outcome => execSender outcome system

/-- A recognizer that is about to be constructed from its properties. -/
def System.create (properties : Properties) : System where
  properties
  app := resetImpl ++ [.constructed]

/-- The application thread performs its next statements. -/
def application (count : Nat) : List Label := List.replicate count (.app .ok)

/-- The websocket thread performs its next statements. -/
def websocket (count : Nat) : List Label := List.replicate count (.ws .ok)

/-- The server replies to a request. -/
def reply (method : Method) (result : String) : Label :=
  .receive (bytes "ASR 2.4 RESPONSE\r\nMethod:" ++ getMethodString method ++
    bytes "\r\nResult:" ++ bytes result ++ bytes "\r\n\r\n")

/-- The server sends a result with a body. -/
def resultMessage (body : Bytes) : Label :=
  .receive (bytes "ASR 2.4 RECOGNITION_RESULT\r\nResult-Status:RECOGNIZED\r\nContent-Length:" ++
    decimal body.length ++ bytes "\r\n\r\n" ++ body)

/-- A recognizer with a deferred connection is constructed; a recognition connects, and
sends the request that opens a session. -/
def firstRecognition (audioSrc : AudioSource) (lm : LanguageModelList) : List Label :=
  application 6 ++ [.call (.recognize (some audioSrc) (some lm))] ++ application 9 ++
    [.opened, .ws .ok] ++ application 8

/-- The server accepts the session and the recognition, and the audio sender starts. -/
def handshake : List Label :=
  [reply .createSession "SUCCESS"] ++ websocket 2 ++ [reply .startRecognition "SUCCESS"] ++
    websocket 1

end AsrClient
