import AsrClient.Recognizer.Configuration
import AsrClient.Recognizer.SessionStatus
import Mathlib.Data.List.Nodup

/-!
# Requests on one connection

The requests leave from several places: the recognition itself, the handlers of three
replies, the cancellation and the audio sender. Each place sends the request of one
method, so that a request in the log tells which statement sent it.

A connection of an implementation object lasts until the object closes it. A recognizer
asks for a session on it when it knows of no session status. It learns of one by a
result only, and by no reply, so that a recognition behind one that ended without such a
result asks for a second session.
-/

namespace AsrClient

open Transitions SpeechRecognizer

/-- The method of the request that a statement of the application thread sends. -/
def AppStmt.method : AppStmt → Option Method
  | .createSession => some .createSession
  | .startRecognition => some .startRecognition
  | .cancelRequest => some .cancelRecognition
  | _ => none

/-- The method of the request that a statement of the websocket thread sends. -/
def WsStmt.method : WsStmt → Option Method
  | .setParameters => some .setParameters
  | .startRecognition => some .startRecognition
  | _ => none

/-- The application closes its connection. -/
def closes (system : System) : Label → Bool
  | .app _ => system.app.head? = some .clearOpen
  | _ => false

/-- The step keeps the implementation object and its connection. -/
def OneConnection (system : System) (label : Label) : Prop :=
  KeepsImpl system label ∧ closes system label = false

instance (system : System) (label : Label) : Decidable (OneConnection system label) :=
  inferInstanceAs (Decidable (_ ∧ _))

/-- A reply that accepts a session has been handled: it was the last message and has sent
the request that follows it, or another message came behind it. -/
def sessionOpened (system : System) : Bool :=
  (received system.log).tail.any (accepts .createSession) ||
    ((lastReceived system.log).any (accepts .createSession) && system.ws.all (!·.requests))

/-- A step that leads to a second session: a recognition finds no session status behind an
accepted session, or a session is accepted while the application is about to ask for
one. -/
def opensAgain (system : System) : Label → Bool
  | .app _ => system.app.head? = some .firstRequest &&
      (sessionOpened system && system.impl.sessionStatus = .kNone)
  | .ws _ => (lastReceived system.log).any (accepts .createSession) &&
      (.createSession ∈ system.app && (system.ws.head?.bind WsStmt.method).isSome)
  | _ => false

/-- The step leads to no second session. -/
def KeepsSession (system : System) (label : Label) : Prop := opensAgain system label = false

instance (system : System) (label : Label) : Decidable (KeepsSession system label) :=
  inferInstanceAs (Decidable (_ = _))

/-- The start lines of the methods differ. -/
theorem first_line_injective {c d : Method} (same : firstLine c = firstLine d) : c = d := by
  let methods : List Method := [.createSession, .setParameters, .getParameters, .startRecognition,
    .startInputTimers, .sendAudio, .cancelRecognition, .releaseSession, .response, .startOfSpeech,
    .endOfSpeech, .recognitionResult]
  have every (c : Method) : c ∈ methods := by cases c <;> decide
  have distinct : (methods.map getMethodString).Nodup := by decide
  exact List.inj_on_of_nodup_map distinct (every c) (every d) (List.append_cancel_left same)

/-- A request is for one method. -/
theorem is_request_iff {c d : Method} {request : ASRMessageRequest}
    (start : request.startLine = firstLine d) : isRequest c request = true ↔ d = c := by
  rw [isRequest, start, decide_eq_true_iff]
  exact ⟨first_line_injective, congrArg firstLine⟩

/-- A request that starts a recognition is for that method. -/
theorem start_recognition_start_line {lm : LanguageModelList} {request : ASRMessageRequest}
    (made : ASRSendMessage.startRecognition lm = some request) :
    request.startLine = firstLine .startRecognition := by
  simp only [ASRSendMessage.startRecognition] at made
  split_ifs at made <;> cases made <;> rfl

/-- A statement of the application thread sends the request of its method. -/
theorem app_sends {outcome : Outcome} {stmt : AppStmt} {thread : Thread}
    {request : ASRMessageRequest} (logged : stmt.MayLog outcome (.sent thread request)) :
    ∃ c, stmt.method = some c ∧ request.startLine = firstLine c := by
  cases stmt <;> cases outcome <;> cases thread <;>
    first
    | exact absurd logged id
    | (obtain ⟨lm, made⟩ := logged; exact ⟨_, rfl, start_recognition_start_line made⟩)
    | (subst logged; exact ⟨_, rfl, rfl⟩)

/-- A statement of the websocket thread sends the request of its method. -/
theorem ws_sends {outcome : Outcome} {stmt : WsStmt} {thread : Thread}
    {request : ASRMessageRequest} (logged : stmt.MayLog outcome (.sent thread request)) :
    ∃ c, stmt.method = some c ∧ request.startLine = firstLine c := by
  cases stmt <;> cases outcome <;> cases thread <;>
    first
    | exact absurd logged id
    | (obtain ⟨lm, made⟩ := logged; exact ⟨_, rfl, start_recognition_start_line made⟩)
    | (obtain ⟨config, rfl⟩ := logged; exact ⟨_, rfl, ASRSendMessage.set_parameters_start_line config⟩)

section Session

variable {parse : Bytes → Json} {before after : System}

/-- The message received last is the first of the messages. -/
theorem last_received_eq (log : List Event) : lastReceived log = (received log).head? := by
  induction log with
  | nil => rfl
  | cons event log inductionHypothesis => cases event <;> first | rfl | exact inductionHypothesis

/-- A step that changes neither the messages nor the pending statements opens no session. -/
theorem session_opened_same (ws : after.ws = before.ws) (continued : Continues before.log after.log) :
    sessionOpened after = sessionOpened before := by
  rw [sessionOpened, sessionOpened, ws, continued.received, continued.last]

/-- When the websocket thread is free, every accepted session has been handled. -/
theorem session_opened_free (free : before.ws = []) :
    sessionOpened before = (received before.log).any (accepts .createSession) := by
  rw [sessionOpened, free, last_received_eq]
  cases received before.log with
  | nil => rfl
  | cons last former => simp [Bool.or_comm]

/-- A message that has just been received opens no session: its handler has still to send. -/
theorem session_opened_received (response : ASRMessageResponse) (free : before.ws = [])
    (opened : sessionOpened (({ before with ws := ASRProcessMsg.handle parse response } :
      System).record (.received response)) = true) : sessionOpened before = true := by
  rw [session_opened_free free]
  rw [sessionOpened, Bool.or_eq_true, Bool.and_eq_true] at opened
  refine opened.resolve_right fun accepted => ?_
  have created : accepts .createSession response = true := accepted.1
  have quiet : (ASRProcessMsg.handle parse response).all (!·.requests) = true := accepted.2
  rw [created_handler parse response created] at quiet
  exact absurd quiet (by decide)

/-- An event of the connection opens no session. -/
theorem session_opened_event (stmts : List WsStmt) (free : before.ws = [])
    (opened : sessionOpened { before with ws := stmts } = true) : sessionOpened before = true := by
  rw [sessionOpened, Bool.or_eq_true, Bool.and_eq_true] at opened ⊢
  exact opened.imp_right fun ⟨created, _⟩ => ⟨created, by simp [free]⟩

/-- A statement of a handler opens a session only by sending the request that follows it. -/
theorem session_opened_ws (outcome : Outcome) (stmt : WsStmt) (rest : List WsStmt)
    (next : before.ws = stmt :: rest)
    (opened : sessionOpened (execWs outcome { before with ws := rest } stmt) = true) :
    sessionOpened before = true ∨
      ((lastReceived before.log).any (accepts .createSession) = true ∧
        stmt.method.isSome = true) := by
  have continued : Continues before.log (execWs outcome { before with ws := rest } stmt).log :=
    ws_continues outcome { before with ws := rest } stmt
  obtain ⟨new, list, -⟩ := ws_list outcome { before with ws := rest } stmt
  rw [sessionOpened, continued.received, continued.last, list, Bool.or_eq_true,
    Bool.and_eq_true, List.all_append, Bool.and_eq_true] at opened
  rcases opened with former | ⟨created, pushed, quiet⟩
  · left
    rw [sessionOpened, former, Bool.true_or]
  · by_cases requests : stmt.requests = true
    · refine Or.inr ⟨created, ?_⟩
      cases stmt with
      | configure =>
        -- The statements that a configuration puts there have still to send.
        simp only [execWs] at list
        split at list
        · obtain rfl : new = [.startRecognition] := (List.append_cancel_right list).symm
          exact absurd pushed (by decide)
        · obtain rfl : new = [.setParameters] := (List.append_cancel_right list).symm
          exact absurd pushed (by decide)
      | setParameters | startRecognition => rfl
      | _ => exact absurd requests Bool.false_ne_true
    · left
      rw [sessionOpened, created, next, List.all_cons, quiet]
      simp [requests]

/-- Only the first request of a recognition puts statements that send before the rest. -/
theorem expands_silent {stmt : AppStmt} {new : List AppStmt} (expands : stmt.Expands new)
    (other : stmt ≠ .firstRequest) : ∀ pushed ∈ new, pushed.method = none := by
  refine expands_all expands (fun _ _ => rfl) (fun _ => rfl) ?_
  cases stmt with
  | firstRequest => exact absurd rfl other
  | _ =>
    first
    | exact List.forall_mem_nil _
    | exact List.forall_mem_singleton.mpr rfl
    | decide

/-- The application thread comes to a request for a session only where a recognition finds
no session status, and to a start only where it finds one. -/
theorem app_asks {outcome : Outcome} {stmt asked : AppStmt}
    (performed : execApp outcome before stmt = some after) (asks : asked ∈ after.app)
    (sends : asked.method.isSome = true) :
    asked ∈ before.app ∨ (stmt = .firstRequest ∧
      asked = if before.impl.sessionStatus = .kNone then .createSession else .startRecognition) := by
  rcases app_list performed with empty | ⟨new, list, expands⟩
  · simp [empty] at asks
  · rw [list, List.mem_append] at asks
    cases asks with
    | inl pushed =>
      by_cases first : stmt = .firstRequest
      · subst first
        refine Or.inr ⟨rfl, ?_⟩
        simp only [execApp] at performed
        split_ifs at performed ⊢ <;> cases performed
        · obtain rfl : new = [.createSession] := (List.append_cancel_right list).symm
          exact List.mem_singleton.mp pushed
        · obtain rfl : new = [.startRecognition] := (List.append_cancel_right list).symm
          exact List.mem_singleton.mp pushed
      · simp [expands_silent expands first asked pushed] at sends
    | inr later =>
      exact Or.inl later

/-- Behind an accepted session the application is not about to ask for another. -/
def AsksOnce (system : System) : Prop :=
  sessionOpened system = true → .createSession ∉ system.app

/-- Every step that leads to no second session keeps it so. -/
theorem AsksOnce.step {label : Label} (once : AsksOnce before)
    (allowed : KeepsSession before label) (moved : step parse before label = some after) :
    AsksOnce after := by
  obtain ⟨-, moves⟩ := step_moves parse before after label moved
  intro opened asks
  -- Another thread neither opens a session nor asks for one.
  have apart (app : after.app = before.app) (ws : after.ws = before.ws)
      (continued : Continues before.log after.log) : False :=
    once (session_opened_same ws continued ▸ opened) (app ▸ asks)
  cases moves with
  | call call idle => cases call <;> simp [System.record, program, recognize,
      waitRecognitionResult, cancelRecognition, close] at asks
  | app outcome stmt rest _ next performed =>
    have openedBefore : sessionOpened before = true :=
      session_opened_same (app_ws performed :) (app_continues performed :) ▸ opened
    rcases app_asks performed asks rfl with later | ⟨rfl, unknown⟩
    · exact once openedBefore (next ▸ List.mem_cons_of_mem _ later)
    · split_ifs at unknown with none
      have known : before.impl.sessionStatus ≠ .kNone := by
        simpa [KeepsSession, opensAgain, next, openedBefore] using allowed
      exact known none
  | gaveUp rest exception asleep free => exact absurd asks List.not_mem_nil
  | expired condition rest asleep free met =>
    exact once opened (asleep ▸ List.mem_cons_of_mem _ asks)
  | rejected payload cause other free => exact once opened asks
  | received payload response decoded free =>
    exact once (session_opened_received response free opened) asks
  | event label stmts connection free =>
    exact once (session_opened_event stmts free opened) asks
  | ws outcome stmt rest next =>
    rw [ws_app] at asks
    rcases session_opened_ws outcome stmt rest next opened with former | ⟨created, sends⟩
    · exact once former asks
    · have pending : .createSession ∈ before.app := asks
      simp [KeepsSession, opensAgain, next, created, sends, pending] at allowed
  | read ret chunk _ performed =>
    obtain ⟨frame, log⟩ := read_frame ret chunk before after performed
    exact apart frame.app frame.ws (Or.inl log)
  | sender outcome _ performed =>
    have frame := (sender_frame outcome before after performed).1
    exact apart frame.app frame.ws (sender_continues performed)

/-- A request for a session is sent by the application, when it comes to that statement. -/
theorem session_request_asks {label : Label} {thread : Thread} {request : ASRMessageRequest}
    (moved : step parse before label = some after)
    (sent : after.log = .sent thread request :: before.log)
    (isSession : isRequest .createSession request = true) : .createSession ∈ before.app := by
  obtain ⟨-, moves⟩ := step_moves parse before after label moved
  have grown : after.log ≠ before.log := by
    rw [sent]
    exact List.cons_ne_self _ _
  cases moves with
  | call call idle => cases sent
  | app outcome stmt rest _ next performed =>
    rcases app_log performed with same | ⟨event, logged, mayLog⟩
    · exact absurd same grown
    · obtain ⟨rfl, -⟩ := List.cons.inj (logged.symm.trans sent)
      obtain ⟨c, method, start⟩ := app_sends mayLog
      obtain rfl := (is_request_iff start).mp isSession
      cases stmt <;> first | exact next ▸ List.mem_cons_self .. | cases method
  | gaveUp rest exception asleep free => cases sent
  | expired condition rest asleep free met => exact absurd rfl grown
  | rejected payload cause other free => exact absurd rfl grown
  | received payload response decoded free => cases sent
  | event label stmts connection free => exact absurd rfl grown
  | ws outcome stmt rest next =>
    rcases ws_log outcome { before with ws := rest } stmt with same | ⟨event, logged, mayLog⟩
    · exact absurd same grown
    · obtain ⟨rfl, -⟩ := List.cons.inj (logged.symm.trans sent)
      obtain ⟨c, method, start⟩ := ws_sends mayLog
      obtain rfl := (is_request_iff start).mp isSession
      cases stmt <;> cases method
  | read ret chunk _ performed => exact absurd (read_frame ret chunk before after performed).2 grown
  | sender outcome _ performed =>
    rcases (sender_frame outcome before after performed).2 with same |
      ⟨ret, buffer, -, ⟨-, logged⟩ | ⟨-, logged⟩⟩
    · exact absurd same grown
    · obtain ⟨same, -⟩ := List.cons.inj (logged.symm.trans sent)
      cases same
      exact absurd ((is_request_iff rfl).mp isSession) (by decide)
    · exact absurd (List.cons.inj (logged.symm.trans sent)).1 (by simp)

end Session

/-- A run with no step that leads to a second session: once a reply that accepts a session
has been handled, no step sends another request for one. -/
theorem one_session (parse : Bytes → Json) (properties : Properties) (labels : List Label)
    (before after : System) (label : Label)
    (execution : Execution (step parse) KeepsSession (System.create properties) labels before)
    (moved : step parse before label = some after) (opened : sessionOpened before = true)
    (thread : Thread) (request : ASRMessageRequest)
    (sent : after.log = .sent thread request :: before.log) :
    isRequest .createSession request = false := by
  have once : AsksOnce before :=
    execution.invariant AsksOnce (by simp [AsksOnce, System.create, resetImpl])
      fun before label after once allowed moved => once.step allowed moved
  rw [← Bool.not_eq_true]
  exact fun isSession => once opened (session_request_asks moved sent isSession)

/-- The application recognizes again on the open connection, up to its request. -/
def recognizeAgain : List Label :=
  [.call (.recognize (some 1) (some { uri := bytes "builtin:slm/general" }))] ++ application 8

/-- Behind a result that names IDLE the next recognition starts in the session that
exists. -/
theorem idle_session_kept :
    ∃ before after request, Execution (step fun _ => .null) KeepsSession
        (System.create { connectOnRecognize := true, listener := [7] })
        (idleRecognition ++ recognizeAgain) before ∧
      step (fun _ => .null) before (.app .ok) = some after ∧ sessionOpened before = true ∧
      after.log = .sent .application request :: before.log ∧
      isRequest .createSession request = false := by
  let lm : LanguageModelList := { uri := bytes "builtin:slm/general" }
  obtain ⟨before, execution, check⟩ := exists_execution_of_run
    (step fun _ => .null) KeepsSession
    (System.create { connectOnRecognize := true, listener := [7] })
    (idleRecognition ++ recognizeAgain)
    (fun before => before.crashed = none ∧ sessionOpened before = true ∧
      before.app.head? = some .startRecognition ∧ before.impl.lm = some lm) (by decide +kernel)
  obtain ⟨running, opened, head, models⟩ := of_decide_eq_true check
  obtain ⟨rest, next⟩ := List.head?_eq_some_iff.mp head
  obtain ⟨request, made⟩ : ∃ request, ASRSendMessage.startRecognition lm = some request := ⟨_, rfl⟩
  have moved : step (fun _ => .null) before (.app .ok) =
      some (({ before with app := rest } : System).send .application request true) := by
    simp [step, running, next, execApp, models, made]
  have sent : (({ before with app := rest } : System).send .application request true).log =
      .sent .application request :: before.log := rfl
  exact ⟨before, _, request, execution, moved, opened, sent,
    one_session _ _ _ before _ _ execution moved opened .application request sent⟩

/-- Behind a cancelled recognition the next one asks for a second session. -/
theorem cancelled_session_again :
    ¬ ∀ (parse : Bytes → Json) (properties : Properties) (labels : List Label)
      (before after : System) (label : Label),
      Execution (step parse) OneConnection (System.create properties) labels before →
        OneConnection before label → step parse before label = some after →
          sessionOpened before = true → ∀ thread request,
            after.log = .sent thread request :: before.log →
              isRequest .createSession request = false := by
  intro always
  obtain ⟨before, execution, check⟩ := exists_execution_of_run
    (step fun _ => .null) OneConnection (System.create { connectOnRecognize := true })
    (firstRecognition 0 { uri := bytes "builtin:slm/general" } ++ handshake ++ cancelAndJoin ++
      [reply .cancelRecognition "SUCCESS"] ++ websocket 2 ++ recognizeAgain)
    (fun before => before.crashed = none ∧ OneConnection before (.app .ok) ∧
      sessionOpened before = true ∧ before.app.head? = some .createSession) (by decide +kernel)
  obtain ⟨running, allowed, opened, head⟩ := of_decide_eq_true check
  obtain ⟨rest, next⟩ := List.head?_eq_some_iff.mp head
  have moved : step (fun _ => .null) before (.app .ok) = some
      (({ before with app := rest } : System).send .application ASRSendMessage.createSession true) := by
    simp [step, running, next, execApp]
  have other := always _ _ _ before _ _ execution allowed moved opened .application _ rfl
  exact absurd other (by decide)

end AsrClient
