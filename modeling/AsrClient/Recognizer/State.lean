import AsrClient.SendMessage

/-!
# The state of a speech recognizer

Three threads work on the implementation object: the application thread in a call of
the public interface, the websocket thread in a handler, and the audio sender. Each of
the first two is given by the statements it has still to perform, in order; the sender
is a loop and is given by its position. A statement is one atomic step. Shared fields
may be read and written between any two of them, as the program does it, since only few
of its accesses take the mutex.

The log is a history of what the recognizer did and of what reached it, latest entry
first. No statement reads it.
-/

namespace AsrClient

/-- The state of the connection. -/
inductive Status where
  | kOpen
  | kClose
  | kFailed
  | kConnecting
deriving DecidableEq

/-- The state of the session, as far as the server has told. -/
inductive SessionStatus where
  | kNone
  | kIdle
  | kListening
  | kRecognizing
deriving DecidableEq

/-- An audio source of the application, told apart by a number. -/
abbrev AudioSource := Nat

/-- A listener of the application, told apart by a number. -/
abbrev Listener := Nat

/-- An exception: a recognition error of the client, or another one. The others are those of
the network library, and the one that is stored when the connection fails. -/
inductive Exception where
  | recognition (error : RecognitionError)
  | library
deriving DecidableEq

/-- The callbacks of a listener. -/
inductive Callback where
  | onListening
  | onSpeechStart (time : Int)
  | onSpeechStop (time : Int)
  | onPartialRecognition (partialResult : PartialRecognition)
  | onRecognitionResult (result : RecognitionResult)
  | onError (error : RecognitionError)
deriving DecidableEq

/-- The threads. -/
inductive Thread where
  | application
  | websocket
  | sender
deriving DecidableEq

/-- The position of the audio sender in its loop, with what its last read returned. -/
inductive Sender where
  | read
  | test (ret : Int) (buffer : Bytes)
  | wantLock (ret : Int) (buffer : Bytes)
  | logging (ret : Int) (buffer : Bytes)
  | sending (ret : Int) (buffer : Bytes)
  | finished
deriving DecidableEq

/-- The implementation object. A thread object holds a thread until it is joined, even
when the thread has ended. -/
structure Impl where
  recognizing : Bool := false
  sendAudioMessageTerminate : Bool := false
  isOpen : Bool := false
  status : Status := .kConnecting
  sessionStatus : SessionStatus := .kNone
  audioSrc : Option AudioSource := none
  lm : Option LanguageModelList := none
  config : Option RecognitionConfig := none
  listener : List Listener := []
  result : List RecognitionResult := []
  eptr : Option Exception := none
  sendAudioMessageThread : Option Sender := none
  thread : Bool := false
  lock : Option Thread := none

/-- The properties that the builder collects. -/
structure Properties where
  url : Bytes := []
  recogConfig : Option RecognitionConfig := none
  listener : List Listener := []
  connectOnRecognize : Bool := false
  autoClose : Bool := false

/-- The calls of the application. -/
inductive Call where
  | recognize (audioSrc : Option AudioSource) (lm : Option LanguageModelList)
  | waitRecognitionResult
  | cancelRecognition
  | close
deriving DecidableEq

/-- What a wait on the condition variable waits for. -/
inductive Condition where
  | result
  | status
deriving DecidableEq

/-- The statements of the application thread. -/
inductive AppStmt where
  | rejectActive
  | setRecognizing
  | clearEptr
  | clearResult
  | setAudioSrc (audioSrc : Option AudioSource)
  | setLm (lm : Option LanguageModelList)
  | connect
  | firstRequest
  | createSession
  | startRecognition
  | cancelRequest
  | branchOpen
  | takeResult
  | rethrow
  | resetIfAutoClose
  | testJoinable
  | setTerminate
  | join
  | closeAudio
  | clearTerminate
  | closeIfOpen
  | closeIfAutoClose
  | joinThread
  | clearOpen
  | init
  | setOpen
  | lock
  | unlock
  | await (condition : Condition)
  | sleep (condition : Condition)
  | checkStatus
  | notifyListener (listener : Listener) (callback : Callback)
  | throwException (exception : Exception)
  | freshImpl
  | moveConfig
  | moveListener
  | connectUnlessDeferred
  | deferIfAutoClose
  | constructed
  | ret (call : Call)
deriving DecidableEq

/-- The statements of the websocket thread. The stored results are announced by their
places in the list, which the loop of the handler refers to. -/
inductive WsStmt where
  | setStatus (status : Status)
  | setSessionStatus (status : SessionStatus)
  | invoke (callback : Callback)
  | invokeResults
  | notifyListener (listener : Listener) (callback : Callback)
  | notifyStored (listener : Listener) (place : Nat)
  | setEptr (exception : Exception)
  | configure
  | setParameters
  | startRecognition
  | startSender
  | clearResult
  | clearRecognizing
  | pushResult (result : RecognitionResult)
  | outOfRange
deriving DecidableEq

/-- The ways in which the process is lost: a thread object that still holds a thread is
assigned or destroyed, an exception leaves the websocket thread, or an operation is
undefined. -/
inductive Crash where
  | senderOverwritten
  | threadDestroyed
  | uncaughtException
  | undefined
deriving DecidableEq

/-- What the log records. -/
inductive Event where
  | called (call : Call)
  | accepted
  | emptied
  | returned (call : Call) (value : List RecognitionResult)
  | threw (exception : Exception)
  | sent (thread : Thread) (request : ASRMessageRequest)
  | sendFailed (thread : Thread) (request : ASRMessageRequest)
  | received (response : ASRMessageResponse)
  | notified (listener : Listener) (callback : Callback)
  | senderStarted
  | senderJoined
  | audioClosed (audioSrc : AudioSource)
  | closed

/-- A recognizer with its threads. `taken` is the local variable of a wait. -/
structure System where
  properties : Properties
  impl : Impl := {}
  app : List AppStmt := []
  taken : List RecognitionResult := []
  ws : List WsStmt := []
  isConstructed : Bool := false
  crashed : Option Crash := none
  log : List Event := []

namespace System

/-- The same system with another implementation object. -/
def withImpl (system : System) (impl : Impl) : System := { system with impl }

/-- Statements that the application thread performs before the rest. -/
def appThen (system : System) (stmts : List AppStmt) : System :=
  { system with app := stmts ++ system.app }

/-- Statements that the websocket thread performs before the rest. -/
def wsThen (system : System) (stmts : List WsStmt) : System :=
  { system with ws := stmts ++ system.ws }

/-- Record an event. -/
def record (system : System) (event : Event) : System :=
  { system with log := event :: system.log }

/-- The process is lost. -/
def crash (system : System) (cause : Crash) : System := { system with crashed := some cause }

/-- `WsClient::send_msg`, in one of the threads: an exception of the library is stored. -/
def send (system : System) (thread : Thread) (request : ASRMessageRequest) (isSent : Bool) :
    System :=
  { system with
    impl := { system.impl with eptr := if isSent then system.impl.eptr else some .library }
    log := (if isSent then .sent thread request else .sendFailed thread request) ::
      system.log }

/-- The end of a call releases a mutex that the call has taken. -/
def released (impl : Impl) : Impl :=
  { impl with lock := if impl.lock = some .application then none else impl.lock }

/-- An exception leaves the call of the application. -/
def raise (system : System) (exception : Exception) : System :=
  { system with
    impl := released system.impl
    app := []
    log := .threw exception :: system.log }

end System

end AsrClient
