import AsrClient.Recognizer.Execution

/-!
# What a step changes

A step of one thread leaves most of the system alone. The kinds of steps are listed
once, with what enables them; then each thread is described field by field: which of its
statements write a field, which entries it adds to the log, and which statements a
statement puts before the rest. The proofs about runs refer to these facts and do not
unfold the statements again.

The log only grows, by at most one entry a step. The message received last divides it
into what came before and what its handler, and the other threads, have done since.
-/

namespace AsrClient

open SpeechRecognizer

/-- The events of the connection, with the statements of their handlers. -/
inductive ConnectionEvent : Label → List WsStmt → Prop where
  | opened : ConnectionEvent .opened [.setStatus .kOpen]
  | failed : ConnectionEvent .failed [.setEptr .library, .setStatus .kFailed]
  | closed : ConnectionEvent .closed [.setStatus .kClose]

/-- The kinds of steps, with what enables them. -/
inductive Moves (parse : Bytes → Json) (system : System) : Label → System → Prop where
  | call (call : Call) (idle : system.app = []) :
      Moves parse system (.call call)
        (({ system with app := program call } : System).record (.called call))
  | app (outcome : Outcome) (stmt : AppStmt) (rest : List AppStmt) (after : System)
      (next : system.app = stmt :: rest)
      (performed : execApp outcome { system with app := rest } stmt = some after) :
      Moves parse system (.app outcome) after
  | gaveUp (rest : List AppStmt) (exception : Exception)
      (asleep : system.app = .sleep .result :: rest) (free : system.impl.lock = none) :
      Moves parse system .timeout (({ system with app := rest } : System).raise exception)
  | expired (condition : Condition) (rest : List AppStmt)
      (asleep : system.app = .sleep condition :: rest) (free : system.impl.lock = none)
      (met : condition = .result → condition.holds system.impl = true) :
      Moves parse system .timeout
        (({ system with app := rest } : System).withImpl
          { system.impl with lock := some .application })
  | rejected (payload : Bytes) (cause : Crash) (other : cause ≠ .senderOverwritten)
      (free : system.ws = []) (listening : system.impl.thread = true) :
      Moves parse system (.receive payload) (system.crash cause)
  | received (payload : Bytes) (response : ASRMessageResponse)
      (decoded : ASRMessageResponse.consume payload = .ok response) (free : system.ws = [])
      (listening : system.impl.thread = true) :
      Moves parse system (.receive payload)
        (({ system with ws := ASRProcessMsg.handle parse response } : System).record
          (.received response))
  | event (label : Label) (stmts : List WsStmt) (connection : ConnectionEvent label stmts)
      (free : system.ws = []) (listening : system.impl.thread = true) :
      Moves parse system label { system with ws := stmts }
  | ws (outcome : Outcome) (stmt : WsStmt) (rest : List WsStmt) (next : system.ws = stmt :: rest) :
      Moves parse system (.ws outcome) (execWs outcome { system with ws := rest } stmt)
  | read (ret : Int) (chunk : Bytes) (after : System)
      (performed : execRead ret chunk system = some after) :
      Moves parse system (.read ret chunk) after
  | sender (outcome : Outcome) (after : System)
      (performed : execSender outcome system = some after) :
      Moves parse system (.sender outcome) after

/-- The websocket thread takes up an event only while it runs, and only when it has handled
the last one. -/
theorem listen_free (system after : System) (stmts : List WsStmt)
    (listened : system.listen stmts = some after) :
    system.ws = [] ∧ system.impl.thread = true ∧ after = { system with ws := stmts } := by
  rw [System.listen] at listened
  split_ifs at listened with ready
  exact ⟨ready.2, ready.1, (Option.some.inj listened).symm⟩

/-- Every step is of one of these kinds, and is made by a process that is not lost. -/
theorem step_moves (parse : Bytes → Json) (system after : System) (label : Label)
    (moved : step parse system label = some after) :
    system.crashed = none ∧ Moves parse system label after := by
  unfold step at moved
  by_cases lost : system.crashed.isSome = true
  · rw [if_pos lost] at moved
    exact absurd moved (by simp)
  rw [if_neg lost] at moved
  refine ⟨by simpa using lost, ?_⟩
  have connection (stmts : List WsStmt) (event : ConnectionEvent label stmts)
      (listened : system.listen stmts = some after) : Moves parse system label after := by
    obtain ⟨free, listening, rfl⟩ := listen_free system after stmts listened
    exact .event label stmts event free listening
  cases label with
  | call call =>
    simp only at moved
    split_ifs at moved with ready
    cases moved
    exact .call call ready.2
  | app outcome =>
    simp only at moved
    split at moved
    · exact absurd moved (by simp)
    · rename_i stmt rest next
      exact .app outcome stmt rest after next moved
  | timeout =>
    simp only at moved
    split at moved
    · rename_i condition rest asleep
      rw [expire] at moved
      split_ifs at moved with free unmet
      · cases moved
        obtain ⟨rfl, _⟩ := unmet
        exact .gaveUp rest _ asleep free
      · cases moved
        refine .expired condition rest asleep free fun isResult => ?_
        by_contra still
        exact unmet ⟨isResult, by simpa using still⟩
    · exact absurd moved (by simp)
  | receive payload =>
    simp only at moved
    split at moved
    · rename_i thrown _
      obtain ⟨before, listened, rfl⟩ := Option.map_eq_some_iff.mp moved
      obtain ⟨free, listening, rfl⟩ := listen_free system before [] listened
      have same : ({ system with ws := [] } : System) = system := by rw [← free]
      rw [same]
      exact .rejected payload _ (by split_ifs <;> decide) free listening
    · rename_i response decoded
      obtain ⟨before, listened, rfl⟩ := Option.map_eq_some_iff.mp moved
      obtain ⟨free, listening, rfl⟩ := listen_free system before _ listened
      exact .received payload response decoded free listening
  | opened => exact connection _ .opened moved
  | failed => exact connection _ .failed moved
  | closed => exact connection _ .closed moved
  | ws outcome =>
    simp only at moved
    split at moved
    · exact absurd moved (by simp)
    · rename_i stmt rest next
      cases moved
      exact .ws outcome stmt rest next
  | read ret chunk => exact .read ret chunk after moved
  | sender outcome => exact .sender outcome after moved

/-- The entry that a statement of the application thread may add to the log. -/
def AppStmt.MayLog : AppStmt → Outcome → Event → Prop
  | .setRecognizing, _, .accepted => True
  | .clearResult, _, .emptied => True
  | .createSession, .ok, .sent .application request => request = ASRSendMessage.createSession
  | .startRecognition, .ok, .sent .application request =>
      ∃ lm, ASRSendMessage.startRecognition lm = some request
  | .cancelRequest, .ok, .sent .application request => request = ASRSendMessage.cancelRecognition
  | .createSession, .fails, .sendFailed .application _ => True
  | .createSession, .throws, .sendFailed .application _ => True
  | .startRecognition, .fails, .sendFailed .application _ => True
  | .startRecognition, .throws, .sendFailed .application _ => True
  | .cancelRequest, .fails, .sendFailed .application _ => True
  | .cancelRequest, .throws, .sendFailed .application _ => True
  | .join, _, .senderJoined => True
  | .closeAudio, _, .audioClosed _ => True
  | .clearOpen, _, .closed => True
  | .notifyListener listener callback, _, .notified listener' callback' =>
      listener' = listener ∧ callback' = callback
  | .ret call, _, .returned call' _ => call' = call
  | _, _, .threw _ => True
  | _, _, _ => False

/-- The statements that a statement of the application thread may put before the rest. -/
def AppStmt.Expands : AppStmt → List AppStmt → Prop
  | .connect, new => new = [] ∨ new = implOpen
  | .firstRequest, new => new = [.createSession] ∨ new = [.startRecognition]
  | .branchOpen, new => new = takeResults ∨
      new = [.lock, .await .result] ++ terminateSendMessageThread ++ takeResults
  | .resetIfAutoClose, new => new = [] ∨ new = resetImpl
  | .testJoinable, new => new = [] ∨ new = [.setTerminate, .join]
  | .closeIfOpen, new => new = [] ∨ new = implClose
  | .closeIfAutoClose, new => new = [] ∨ new = implClose
  | .init, new => new = [] ∨ new = [.setOpen]
  | .await condition, new => new = [] ∨ new = [.sleep condition]
  | .sleep condition, new => new = [.await condition]
  | .checkStatus, new => new = [.setOpen] ∨ ∃ (listeners : List Listener) (error : RecognitionError),
      new = listeners.map (.notifyListener · (.onError error)) ++
        [.throwException (.recognition error)]
  | .connectUnlessDeferred, new => new = [] ∨ new = implOpen ++ [.deferIfAutoClose]
  | _, new => new = []

/-- All of them together, but for what a failed start tells the listeners and throws. -/
def AppStmt.pushes : AppStmt → List AppStmt
  | .connect => implOpen
  | .firstRequest => [.createSession, .startRecognition]
  | .branchOpen => [.lock, .await .result] ++ terminateSendMessageThread ++ takeResults
  | .resetIfAutoClose => resetImpl
  | .testJoinable => [.setTerminate, .join]
  | .closeIfOpen => implClose
  | .closeIfAutoClose => implClose
  | .init => [.setOpen]
  | .await condition => [.sleep condition]
  | .sleep condition => [.await condition]
  | .checkStatus => [.setOpen]
  | .connectUnlessDeferred => implOpen ++ [.deferIfAutoClose]
  | _ => []

/-- What holds of all the statements that one may put before the rest holds of those that it
puts there. -/
theorem expands_all {holds : AppStmt → Prop} {stmt : AppStmt} {new : List AppStmt}
    (expands : stmt.Expands new)
    (notifies : ∀ listener error, holds (.notifyListener listener (.onError error)))
    (throws : ∀ error, holds (.throwException (.recognition error)))
    (pushes : ∀ pushed ∈ stmt.pushes, holds pushed) : ∀ pushed ∈ new, holds pushed := by
  cases stmt with
  | checkStatus =>
    rcases expands with rfl | ⟨listeners, error, rfl⟩
    · exact pushes
    · rw [List.forall_mem_append, List.forall_mem_map, List.forall_mem_singleton]
      exact ⟨fun listener _ => notifies listener error, throws error⟩
  | firstRequest =>
    rcases expands with rfl | rfl
    · exact List.forall_mem_singleton.mpr (pushes _ (by simp [AppStmt.pushes]))
    · exact List.forall_mem_singleton.mpr (pushes _ (by simp [AppStmt.pushes]))
  | branchOpen =>
    rcases expands with rfl | rfl
    · exact fun pushed member => pushes pushed (List.mem_append_right _ member)
    · exact pushes
  | sleep condition =>
    obtain rfl : new = [.await condition] := expands
    exact pushes
  | connect | resetIfAutoClose | testJoinable | closeIfOpen | closeIfAutoClose | init | await
  | connectUnlessDeferred =>
    rcases expands with rfl | rfl
    · exact List.forall_mem_nil _
    · exact pushes
  | _ =>
    obtain rfl : new = [] := expands
    exact pushes

section Application

variable {outcome : Outcome} {system after : System} {stmt : AppStmt}

/-- The application thread leaves the statements of the websocket thread alone. -/
theorem app_ws (performed : execApp outcome system stmt = some after) : after.ws = system.ws := by
  cases stmt <;> simp only [execApp, Option.some.injEq] at performed <;>
    (repeat' split at performed) <;> cases performed <;> rfl

/-- An exception ends the call; any other statement leaves the rest of it in place. -/
theorem app_list (performed : execApp outcome system stmt = some after) :
    after.app = [] ∨ ∃ new, after.app = new ++ system.app ∧ stmt.Expands new := by
  cases stmt <;> simp only [execApp, Option.some.injEq] at performed <;>
    (repeat' split at performed) <;> cases performed <;>
    first
    | exact Or.inl rfl
    | exact Or.inr ⟨_, rfl, rfl⟩
    | exact Or.inr ⟨_, rfl, Or.inl rfl⟩
    | exact Or.inr ⟨_, rfl, Or.inr rfl⟩
    | exact Or.inr ⟨_, rfl, Or.inr ⟨_, _, rfl⟩⟩

/-- The application thread adds at most one entry to the log. -/
theorem app_log (performed : execApp outcome system stmt = some after) :
    after.log = system.log ∨ ∃ event, after.log = event :: system.log ∧ stmt.MayLog outcome event := by
  cases stmt <;> cases outcome <;> simp only [execApp, Option.some.injEq] at performed <;>
    (repeat' split at performed) <;> cases performed <;>
    first
    | exact Or.inl rfl
    | exact Or.inr ⟨_, rfl, trivial⟩
    | exact Or.inr ⟨_, rfl, rfl⟩
    | exact Or.inr ⟨_, rfl, rfl, rfl⟩
    | exact Or.inr ⟨_, rfl, _, by assumption⟩

/-- Only the acceptance of a recognition sets the flag. -/
theorem app_recognizing (performed : execApp outcome system stmt = some after)
    (recognizing : after.impl.recognizing = true) :
    (stmt = .setRecognizing ∧ after.log = .accepted :: system.log) ∨
      system.impl.recognizing = true := by
  cases stmt <;> simp only [execApp, Option.some.injEq] at performed <;>
    (repeat' split at performed) <;> cases performed <;>
    first
    | exact Or.inl ⟨rfl, rfl⟩
    | exact Or.inr recognizing
    | exact absurd recognizing (by simp [System.withImpl])

/-- Statements that occur only in the public functions and the constructor themselves, and
not in a branch or in a function that they call. -/
def AppStmt.isInterface : AppStmt → Bool
  | .rejectActive => true
  | .setRecognizing => true
  | .clearEptr => true
  | .setAudioSrc _ => true
  | .setLm _ => true
  | .connect => true
  | .firstRequest => true
  | .cancelRequest => true
  | .branchOpen => true
  | .constructed => true
  | .ret _ => true
  | _ => false

/-- No statement puts one of them before the rest, and only the first request of a
recognition puts a start of the recognition there. -/
theorem expands_inner {new : List AppStmt} (expands : stmt.Expands new) :
    (∀ pushed ∈ new, pushed.isInterface = false) ∧
      (.startRecognition ∈ new → stmt = .firstRequest) := by
  constructor
  · refine expands_all expands (fun _ _ => rfl) (fun _ => rfl) ?_
    cases stmt <;>
      first
      | exact List.forall_mem_nil _
      | exact List.forall_mem_singleton.mpr rfl
      | decide
  · have only : ∀ pushed ∈ new, pushed = .startRecognition → stmt = .firstRequest := by
      refine expands_all expands (by simp) (by simp) ?_
      cases stmt with
      | firstRequest => exact fun _ _ _ => rfl
      | await | sleep => simp [AppStmt.pushes]
      | _ => first | exact List.forall_mem_nil _ | decide
    exact fun member => only _ member rfl

end Application

/-- The statements that a statement of the websocket thread may put before the rest. -/
def WsStmt.MayPush : WsStmt → WsStmt → Prop
  | .invoke callback, .notifyListener _ callback' => callback' = callback
  | .invokeResults, .notifyStored _ _ => True
  | .configure, .startRecognition => True
  | .configure, .setParameters => True
  | _, _ => False

/-- Statements that refer to the list of stored results. -/
def WsStmt.announces : WsStmt → Bool
  | .invokeResults => true
  | .notifyStored _ _ => true
  | _ => false

/-- The entry that a statement of the websocket thread may add to the log. -/
def WsStmt.MayLog : WsStmt → Outcome → Event → Prop
  | .setParameters, .ok, .sent .websocket request =>
      ∃ config, request = ASRSendMessage.setParameters config
  | .startRecognition, .ok, .sent .websocket request =>
      ∃ lm, ASRSendMessage.startRecognition lm = some request
  | .setParameters, .fails, .sendFailed .websocket _ => True
  | .setParameters, .throws, .sendFailed .websocket _ => True
  | .startRecognition, .fails, .sendFailed .websocket _ => True
  | .startRecognition, .throws, .sendFailed .websocket _ => True
  | .startSender, _, .senderStarted => True
  | .notifyListener listener callback, _, .notified listener' callback' =>
      listener' = listener ∧ callback' = callback
  | .notifyStored listener _, _, .notified listener' (.onRecognitionResult _) =>
      listener' = listener
  | _, _, _ => False

/-- The entries of the handlers and of the audio sender: no call, no return of one and no
exception, no receipt and nothing that only the application thread does. -/
def Event.isBackground : Event → Bool
  | .sent .. => true
  | .sendFailed .. => true
  | .notified .. => true
  | .senderStarted => true
  | _ => false

/-- A statement of a handler may log such entries only. -/
theorem WsStmt.MayLog.background {stmt : WsStmt} {outcome : Outcome} {event : Event}
    (mayLog : stmt.MayLog outcome event) : event.isBackground = true := by
  cases event with
  | sent | sendFailed | notified | senderStarted => rfl
  | _ => cases stmt <;> cases outcome <;> exact absurd mayLog id

section Websocket

variable (outcome : Outcome) (system : System) (stmt : WsStmt)

/-- The websocket thread leaves the statements of the application thread alone. -/
theorem ws_app : (execWs outcome system stmt).app = system.app := by
  cases stmt <;> simp only [execWs] <;> (repeat' split) <;> rfl

/-- Statements are put before the rest, and the rest stays. -/
theorem ws_list : ∃ new, (execWs outcome system stmt).ws = new ++ system.ws ∧
    ∀ pushed ∈ new, stmt.MayPush pushed := by
  have none : ∀ pushed ∈ ([] : List WsStmt), stmt.MayPush pushed := by simp
  cases stmt with
  | invoke callback => exact ⟨_, rfl, by simp [WsStmt.MayPush]⟩
  | invokeResults =>
    refine ⟨_, rfl, fun pushed member => ?_⟩
    obtain ⟨place, _, listened⟩ := List.mem_flatMap.mp member
    obtain ⟨listener, _, rfl⟩ := List.mem_map.mp listened
    trivial
  | configure =>
    simp only [execWs]
    split
    · exact ⟨_, rfl, by simp [WsStmt.MayPush]⟩
    · exact ⟨_, rfl, by simp [WsStmt.MayPush]⟩
  | _ =>
    refine ⟨[], ?_, none⟩
    simp only [execWs]
    (repeat' split) <;> rfl

/-- The websocket thread adds at most one entry to the log. -/
theorem ws_log : (execWs outcome system stmt).log = system.log ∨
    ∃ event, (execWs outcome system stmt).log = event :: system.log ∧
      stmt.MayLog outcome event := by
  cases stmt <;> cases outcome <;> simp only [execWs] <;> (repeat' split) <;>
    first
    | exact Or.inl rfl
    | exact Or.inr ⟨_, rfl, trivial⟩
    | exact Or.inr ⟨_, rfl, rfl⟩
    | exact Or.inr ⟨_, rfl, rfl, rfl⟩
    | exact Or.inr ⟨_, rfl, _, rfl⟩
    | exact Or.inr ⟨_, rfl, _, by assumption⟩

/-- With a statement of a handler the log has what holds of every entry of the background. -/
theorem ws_logs {holds : Event → Prop}
    (background : ∀ event, event.isBackground = true → holds event) :
    (execWs outcome system stmt).log = system.log ∨
      ∃ event, (execWs outcome system stmt).log = event :: system.log ∧ holds event := by
  rcases ws_log outcome system stmt with same | ⟨event, logged, mayLog⟩
  · exact Or.inl same
  · exact Or.inr ⟨event, logged, background event mayLog.background⟩

/-- The websocket thread clears the flag and never sets it. -/
theorem ws_recognizing : (execWs outcome system stmt).impl.recognizing =
    (system.impl.recognizing && stmt ≠ .clearRecognizing) := by
  cases stmt <;> simp only [execWs] <;> (repeat' split) <;> simp [System.withImpl, System.wsThen,
    System.record, System.crash, System.send]

end Websocket

/-- What a step of the audio sender leaves alone: all but its own position, the mutex and
the stored exception. It stays in its thread object, even when it ends. -/
structure SenderFrame (system after : System) : Prop where
  app : after.app = system.app
  ws : after.ws = system.ws
  taken : after.taken = system.taken
  properties : after.properties = system.properties
  isConstructed : after.isConstructed = system.isConstructed
  crashed : after.crashed = system.crashed ∨ after.crashed = some .undefined
  held : after.impl.sendAudioMessageThread.isSome = system.impl.sendAudioMessageThread.isSome
  impl : ∃ thread lock eptr, after.impl =
    { system.impl with sendAudioMessageThread := thread, lock := lock, eptr := eptr }

/-- A part of the implementation object that the sender does not work on stays as it is. -/
theorem SenderFrame.keeps {system after : System} {Part : Type} (frame : SenderFrame system after)
    (part : Impl → Part)
    (other : ∀ impl thread lock eptr, part { impl with
      sendAudioMessageThread := thread, lock := lock, eptr := eptr } = part impl := by
      intros; rfl) : part after.impl = part system.impl := by
  obtain ⟨thread, lock, eptr, same⟩ := frame.impl
  rw [same]
  exact other ..

/-- A read changes only the position. -/
theorem read_frame (ret : Int) (chunk : Bytes) (system after : System)
    (performed : execRead ret chunk system = some after) :
    SenderFrame system after ∧ after.log = system.log := by
  rw [execRead] at performed
  split_ifs at performed with reading
  · cases performed
    exact ⟨⟨rfl, rfl, rfl, rfl, rfl, Or.inr rfl, rfl, _, _, _, rfl⟩, rfl⟩
  · cases performed
    exact ⟨⟨rfl, rfl, rfl, rfl, rfl, Or.inl rfl, by rw [reading]; rfl, _, _, _, rfl⟩, rfl⟩

/-- Every other step of the sender stays within its frame, and adds at most the request
it sends to the log, or the failure to send it. -/
theorem sender_frame (outcome : Outcome) (system after : System)
    (performed : execSender outcome system = some after) :
    SenderFrame system after ∧ (after.log = system.log ∨
      ∃ ret buffer, system.impl.sendAudioMessageThread = some (.sending ret buffer) ∧
        ((outcome = .ok ∧
            after.log = .sent .sender (ASRSendMessage.sendAudio ret buffer) :: system.log) ∨
          (outcome ≠ .ok ∧ after.log =
            .sendFailed .sender (ASRSendMessage.sendAudio ret buffer) :: system.log))) := by
  rw [execSender] at performed
  split at performed
  · rename_i ret buffer position
    split_ifs at performed <;> cases performed <;>
      exact ⟨⟨rfl, rfl, rfl, rfl, rfl, Or.inl rfl, by rw [position]; rfl, _, _, _, rfl⟩, Or.inl rfl⟩
  · rename_i ret buffer position
    split_ifs at performed
    cases performed
    exact ⟨⟨rfl, rfl, rfl, rfl, rfl, Or.inl rfl, by rw [position]; rfl, _, _, _, rfl⟩, Or.inl rfl⟩
  · rename_i ret buffer position
    cases performed
    exact ⟨⟨rfl, rfl, rfl, rfl, rfl, Or.inl rfl, by rw [position]; rfl, _, _, _, rfl⟩, Or.inl rfl⟩
  · rename_i ret buffer position
    cases performed
    refine ⟨⟨rfl, rfl, rfl, rfl, rfl, Or.inl rfl, by rw [position]; rfl, _, _, _, rfl⟩,
      Or.inr ⟨ret, buffer, position, ?_⟩⟩
    cases outcome with
    | ok => exact Or.inl ⟨rfl, rfl⟩
    | fails => exact Or.inr ⟨by decide, rfl⟩
    | throws => exact Or.inr ⟨by decide, rfl⟩
  · exact absurd performed (by simp)
  · exact absurd performed (by simp)
  · exact absurd performed (by simp)

/-- The log of the sender has what holds of its requests and of a failure to send one. -/
theorem sender_logs {outcome : Outcome} {system after : System} {holds : Event → Prop}
    (performed : execSender outcome system = some after)
    (request : ∀ ret buffer, holds (.sent .sender (ASRSendMessage.sendAudio ret buffer)))
    (failure : ∀ ret buffer, holds (.sendFailed .sender (ASRSendMessage.sendAudio ret buffer))) :
    after.log = system.log ∨ ∃ event, after.log = event :: system.log ∧ holds event := by
  rcases (sender_frame outcome system after performed).2 with same |
    ⟨ret, buffer, -, ⟨-, sent⟩ | ⟨-, unsent⟩⟩
  · exact Or.inl same
  · exact Or.inr ⟨_, sent, request ret buffer⟩
  · exact Or.inr ⟨_, unsent, failure ret buffer⟩

/-- An entry that a statement of a handler adds is one of the background. -/
theorem ws_adds {outcome : Outcome} {system : System} {stmt : WsStmt} {event : Event}
    (added : (execWs outcome system stmt).log = event :: system.log) :
    event.isBackground = true := by
  rcases ws_log outcome system stmt with same | ⟨other, logged, mayLog⟩
  · exact absurd (same.symm.trans added) (List.cons_ne_self _ _).symm
  · obtain ⟨rfl, -⟩ := List.cons.inj (logged.symm.trans added)
    exact mayLog.background

/-- An entry that a step of the audio sender adds is one of the background. -/
theorem sender_adds {outcome : Outcome} {system after : System} {event : Event}
    (performed : execSender outcome system = some after)
    (added : after.log = event :: system.log) : event.isBackground = true := by
  have logged : after.log = system.log ∨
      ∃ entry, after.log = entry :: system.log ∧ entry.isBackground = true :=
    sender_logs performed (fun _ _ => rfl) fun _ _ => rfl
  rcases logged with same | ⟨entry, logged, background⟩
  · exact absurd (same.symm.trans added) (List.cons_ne_self _ _).symm
  · obtain ⟨rfl, -⟩ := List.cons.inj (logged.symm.trans added)
    exact background

/-- The entries that end a call. -/
def Event.endsCall : Event → Bool
  | .returned .. => true
  | .threw _ => true
  | _ => false

/-- Only the application thread logs the end of a call: with a statement of the call, or with
the exception of a wait that gives up. -/
theorem step_ends_call {parse : Bytes → Json} {before after : System} {label : Label} {event : Event}
    (moved : step parse before label = some after) (added : after.log = event :: before.log)
    (ends : event.endsCall = true) :
    (∃ outcome stmt rest, before.app = stmt :: rest ∧
      execApp outcome { before with app := rest } stmt = some after) ∨
      after.app = [] ∧ ∃ exception, event = .threw exception := by
  obtain ⟨-, moves⟩ := step_moves parse before after label moved
  cases moves with
  | call call idle =>
    obtain ⟨rfl, -⟩ := List.cons.inj added
    exact absurd ends Bool.false_ne_true
  | app outcome stmt rest _ next performed =>
    exact Or.inl ⟨outcome, stmt, rest, next, performed⟩
  | gaveUp rest exception asleep free =>
    obtain ⟨rfl, -⟩ := List.cons.inj added
    exact Or.inr ⟨rfl, exception, rfl⟩
  | expired condition rest asleep free met => exact absurd added (List.cons_ne_self _ _).symm
  | rejected payload cause other free => exact absurd added (List.cons_ne_self _ _).symm
  | received payload response decoded free =>
    obtain ⟨rfl, -⟩ := List.cons.inj added
    exact absurd ends Bool.false_ne_true
  | event label stmts connection free => exact absurd added (List.cons_ne_self _ _).symm
  | ws outcome stmt rest next =>
    have background : event.isBackground = true := ws_adds added
    cases event <;> contradiction
  | read ret chunk _ performed =>
    have same : after.log = before.log := (read_frame ret chunk before after performed).2
    exact absurd (same.symm.trans added) (List.cons_ne_self _ _).symm
  | sender outcome _ performed =>
    have background : event.isBackground = true := sender_adds performed added
    cases event <;> contradiction

section History

/-- The message that the websocket thread received last. -/
def lastReceived : List Event → Option ASRMessageResponse
  | [] => none
  | .received response :: _ => some response
  | _ :: log => lastReceived log

/-- The entries behind it, latest first. -/
def sinceReceived : List Event → List Event
  | [] => []
  | .received _ :: _ => []
  | event :: log => event :: sinceReceived log

/-- A log goes on by at most one entry, which is no receipt. -/
def Continues (log after : List Event) : Prop :=
  after = log ∨ ∃ event, after = event :: log ∧ ∀ response, event ≠ .received response

variable {log after : List Event}

/-- Without a receipt the message received last is the same. -/
theorem Continues.last (continued : Continues log after) : lastReceived after = lastReceived log := by
  rcases continued with rfl | ⟨event, rfl, other⟩
  · rfl
  · cases event <;> first | rfl | exact absurd rfl (other _)

/-- Without a receipt the entries behind it stay, and a new one is added to them. -/
theorem Continues.since (continued : Continues log after) :
    sinceReceived after = sinceReceived log ∨
      ∃ event, after = event :: log ∧ sinceReceived after = event :: sinceReceived log := by
  rcases continued with rfl | ⟨event, rfl, other⟩
  · exact Or.inl rfl
  · refine Or.inr ⟨event, rfl, ?_⟩
    cases event <;> first | rfl | exact absurd rfl (other _)

/-- An entry behind the message received last stays there. -/
theorem Continues.mem (continued : Continues log after) {event : Event}
    (member : event ∈ sinceReceived log) : event ∈ sinceReceived after := by
  rcases continued.since with same | ⟨entry, -, added⟩
  · rwa [same]
  · rw [added]
    exact List.mem_cons_of_mem _ member

/-- The log goes on with every step of the application thread. -/
theorem app_continues {outcome : Outcome} {system next : System} {stmt : AppStmt}
    (performed : execApp outcome system stmt = some next) : Continues system.log next.log := by
  rcases app_log performed with same | ⟨event, logged, mayLog⟩
  · exact Or.inl same
  · refine Or.inr ⟨event, logged, ?_⟩
    rintro other rfl
    cases stmt <;> cases outcome <;> exact mayLog

/-- The log goes on with every statement of a handler. -/
theorem ws_continues (outcome : Outcome) (system : System) (stmt : WsStmt) :
    Continues system.log (execWs outcome system stmt).log := by
  apply ws_logs
  rintro event background response rfl
  exact absurd background Bool.false_ne_true

/-- The log goes on with every step of the audio sender. -/
theorem sender_continues {outcome : Outcome} {system next : System}
    (performed : execSender outcome system = some next) : Continues system.log next.log :=
  sender_logs performed (by simp) (by simp)

end History

end AsrClient
