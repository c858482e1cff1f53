import AsrClient.Recognizer.Construction

/-!
# The status of the session

The server names the status of the session in a header of its messages. A result that
names IDLE sets it. A response is compared by the name of the header, which is the same
in every message and is no status: it sets nothing and calls no listener.

The recognizer therefore stays without a session status until the first result that
names IDLE, and is idle from then on. It follows the server exactly when that is what
the server has told.
-/

namespace AsrClient

open Transitions SpeechRecognizer

/-- The value of the header of the session status. -/
def statusValue (response : ASRMessageResponse) : Bytes :=
  response.getHeader ResponseHeader.sessionStatus.getString

/-- A result names the status IDLE. -/
def idleResult (response : ASRMessageResponse) : Bool :=
  isResult response && statusValue response = SessionStatus.kIdle.getString

/-- The status that a message names: any of the three in a response, IDLE in a result. -/
def named (response : ASRMessageResponse) : Option SessionStatus :=
  if isResponse response then
    if statusValue response = SessionStatus.kIdle.getString then some .kIdle
    else if statusValue response = SessionStatus.kListening.getString then some .kListening
    else if statusValue response = SessionStatus.kRecognizing.getString then some .kRecognizing
    else none
  else if idleResult response then some .kIdle
  else none

/-- The status that the messages tell, latest first. -/
def told (messages : List ASRMessageResponse) : SessionStatus :=
  (messages.findSome? named).getD .kNone

/-- How often a listener was told that the server listens. -/
def listeningCalls (listener : Listener) (log : List Event) : Nat :=
  log.countP fun
    | .notified other .onListening => other = listener
    | _ => false

/-- The recognizer follows the server: its status is the one named last, and every
listener was told of every response that named LISTENING. -/
structure FollowsServer (listeners : List Listener) (system : System) : Prop where
  status : system.impl.sessionStatus = told (received system.log)
  listening (listener : Listener) : listeningCalls listener system.log =
    listeners.count listener * (received system.log).countP (named · = some .kListening)

/-- No message named a status, or a result named IDLE and the last named status is IDLE;
and no response named LISTENING to a listener. -/
structure ToldByResults (listeners : List Listener) (messages : List ASRMessageResponse) : Prop where
  status : (∀ message ∈ messages, named message = none) ∨
    (∃ message ∈ messages, idleResult message = true) ∧ told messages = .kIdle
  listening : listeners = [] ∨ ∀ message ∈ messages, named message ≠ some .kListening

/-- A statement that sets no status other than IDLE, and tells no listener that the server
listens. -/
def WsStmt.idles : WsStmt → Bool
  | .setSessionStatus status => status = .kIdle
  | .invoke callback => callback ≠ .onListening
  | .notifyListener _ callback => callback ≠ .onListening
  | _ => true

/-- The status is set by results only. -/
structure SetByResults (system : System) : Prop where
  status : system.impl.sessionStatus = .kNone ∨ system.impl.sessionStatus = .kIdle
  idle : (system.impl.sessionStatus = .kIdle ∨ .setSessionStatus .kIdle ∈ system.ws) ↔
    ∃ message ∈ received system.log, idleResult message = true
  idles : ∀ stmt ∈ system.ws, stmt.idles = true
  unheard (listener : Listener) : .notified listener .onListening ∉ system.log

section Handler

variable (parse : Bytes → Json) (response : ASRMessageResponse)

/-- A handler sets the status IDLE exactly for a result that names it. -/
theorem handler_sets_idle : .setSessionStatus .kIdle ∈ ASRProcessMsg.handle parse response ↔
    idleResult response = true := by
  rw [idleResult, Bool.and_eq_true, decide_eq_true_eq]
  constructor
  · intro member
    cases ASRProcessMsg.handle_performs parse response _ member with
    | idle kind value => exact ⟨kind, value⟩
  · rintro ⟨kind, value⟩
    have named : response.getHeader (bytes "Session-Status") = bytes "IDLE" := value
    have handles := ASRProcessMsg.handle_handles parse response
    generalize ASRProcessMsg.handle parse response = stmts at handles
    cases handles with
    | response isReply noResult => exact absurd (kind.symm.trans noResult) (by decide)
    | result isResult noResponse =>
      rw [ASRProcessResult.handle, ASRProcessResult.sessionStatus, if_pos named]
      exact List.mem_cons_self ..
    | other _ noResponse noResult few => exact absurd (kind.symm.trans noResult) (by decide)

/-- A handler sets no other status, and tells no listener that the server listens. -/
theorem handler_idles : ∀ stmt ∈ ASRProcessMsg.handle parse response, stmt.idles = true := by
  intro stmt member
  cases ASRProcessMsg.handle_performs parse response stmt member with
  | invoke callback other => exact decide_eq_true other
  | _ => rfl

end Handler

/-- The handlers of the connection set no session status. -/
theorem connection_idles {label : Label} {stmts : List WsStmt}
    (connection : ConnectionEvent label stmts) :
    .setSessionStatus .kIdle ∉ stmts ∧ ∀ stmt ∈ stmts, stmt.idles = true := by
  cases connection <;> decide

/-- Such a statement puts such statements before the rest, none of which sets a status. -/
theorem pushed_idles {stmt pushed : WsStmt} (may : stmt.MayPush pushed)
    (idles : stmt.idles = true) : pushed.idles = true ∧ pushed ≠ .setSessionStatus .kIdle := by
  cases stmt <;> cases pushed <;>
    first
    | exact absurd may id
    | exact ⟨rfl, by simp⟩
    | (obtain rfl := may; exact ⟨idles, by simp⟩)

/-- Only one statement sets the session status. -/
theorem ws_session (outcome : Outcome) (system : System) (stmt : WsStmt)
    (other : ∀ status, stmt ≠ .setSessionStatus status) :
    (execWs outcome system stmt).impl.sessionStatus = system.impl.sessionStatus := by
  cases stmt <;> simp only [execWs] <;> (repeat' split) <;>
    first
    | rfl
    | exact absurd rfl (other _)

/-- A statement that tells no listener that the server listens logs no such call. -/
theorem ws_unheard (outcome : Outcome) (system : System) (stmt : WsStmt) (listener : Listener)
    (idles : stmt.idles = true)
    (heard : .notified listener .onListening ∈ (execWs outcome system stmt).log) :
    .notified listener .onListening ∈ system.log := by
  rcases ws_log outcome system stmt with same | ⟨event, logged, mayLog⟩
  · rwa [same] at heard
  · rw [logged, List.mem_cons] at heard
    refine heard.resolve_left ?_
    rintro rfl
    cases stmt with
    | notifyListener other callback =>
      obtain ⟨-, rfl⟩ : listener = other ∧ .onListening = callback := by
        cases outcome <;> exact mayLog
      exact absurd idles Bool.false_ne_true
    | _ => cases outcome <;> exact absurd mayLog id

section Run

variable {parse : Bytes → Json} {before after : System}

/-- The receipt of a message keeps the status set by results only. -/
theorem SetByResults.received (sets : SetByResults before) (free : before.ws = [])
    (response : ASRMessageResponse) :
    SetByResults (({ before with ws := ASRProcessMsg.handle parse response } : System).record
      (.received response)) where
  status := sets.status
  idle := by
    have former := sets.idle
    simp only [free, List.not_mem_nil, or_false] at former
    show (_ ∨ .setSessionStatus .kIdle ∈ ASRProcessMsg.handle parse response) ↔
      ∃ message ∈ response :: AsrClient.received before.log, _
    rw [handler_sets_idle, List.exists_mem_cons_iff, ← former, or_comm]
    rfl
  idles := handler_idles parse response
  unheard listener heard := sets.unheard listener ((List.mem_cons.mp heard).resolve_left (by simp))

/-- A statement of a handler keeps the status set by results only. -/
theorem SetByResults.ws (sets : SetByResults before) (outcome : Outcome) (stmt : WsStmt)
    (rest : List WsStmt) (next : before.ws = stmt :: rest) :
    SetByResults (execWs outcome { before with ws := rest } stmt) := by
  have idles := sets.idles
  have idle := sets.idle
  rw [next, List.forall_mem_cons] at idles
  rw [next, List.mem_cons] at idle
  obtain ⟨new, list, pushed⟩ := ws_list outcome { before with ws := rest } stmt
  have messages : AsrClient.received (execWs outcome { before with ws := rest } stmt).log =
      AsrClient.received before.log := (ws_continues outcome { before with ws := rest } stmt).received
  have allIdle : ∀ other ∈ (execWs outcome { before with ws := rest } stmt).ws,
      other.idles = true := by
    rw [list, List.forall_mem_append]
    exact ⟨fun other member => (pushed_idles (pushed other member) idles.1).1, idles.2⟩
  have unheard (listener : Listener) : .notified listener .onListening ∉
      (execWs outcome { before with ws := rest } stmt).log := fun heard =>
    sets.unheard listener (ws_unheard outcome { before with ws := rest } stmt listener idles.1 heard)
  by_cases session : ∃ status, stmt = .setSessionStatus status
  · obtain ⟨status, rfl⟩ := session
    obtain rfl : status = .kIdle := of_decide_eq_true idles.1
    refine ⟨Or.inr rfl, ?_, allIdle, unheard⟩
    rw [messages, ← idle]
    simp [execWs, System.withImpl]
  · have other (status : SessionStatus) : stmt ≠ .setSessionStatus status :=
      fun same => session ⟨status, same⟩
    have same := ws_session outcome { before with ws := rest } stmt other
    refine ⟨same ▸ sets.status, ?_, allIdle, unheard⟩
    have put : .setSessionStatus .kIdle ∉ new := fun member =>
      (pushed_idles (pushed _ member) idles.1).2 rfl
    rw [messages, ← idle, same, list, List.mem_append, or_iff_right put,
      or_iff_right (other .kIdle).symm]

/-- Every step on the object keeps the status set by results only. -/
theorem SetByResults.turn {label : Label} (sets : SetByResults before)
    (turn : Turn parse before label after) : SetByResults after := by
  cases turn with
  | apart _ _ apart _ =>
    constructor
    · rw [apart.sessionStatus]
      exact sets.status
    · rw [apart.sessionStatus, apart.ws, apart.continues.received]
      exact sets.idle
    · rw [apart.ws]
      exact sets.idles
    · intro listener
      rw [apart.notified rfl]
      exact sets.unheard listener
  | received payload response free decoded => exact sets.received free response
  | event _ stmts connection free =>
    obtain ⟨silent, idles⟩ := connection_idles connection
    refine ⟨sets.status, ?_, idles, sets.unheard⟩
    rw [← sets.idle, free]
    simp [silent]
  | ws outcome stmt rest next => exact sets.ws outcome stmt rest next

/-- The status of a new object is set by nothing. -/
theorem SetByResults.built {properties : Properties} (built : Built properties before) :
    SetByResults before where
  status := by simp [built.impl]
  idle := by simp [built.impl, built.ws, built.log, AsrClient.received]
  idles := by simp [built.ws]
  unheard := by simp [built.log]

end Run

/-- A result that names IDLE names a status. -/
theorem named_idle {message : ASRMessageResponse} (idle : idleResult message = true) :
    named message = some .kIdle := by
  have value : statusValue message = SessionStatus.kIdle.getString := by
    simpa using (Bool.and_eq_true_iff.mp idle).2
  rw [named]
  split_ifs <;> rfl

/-- The last named status is none exactly when no message names one. -/
theorem told_none_iff (messages : List ASRMessageResponse) :
    told messages = .kNone ↔ ∀ message ∈ messages, named message = none := by
  rw [← List.findSome?_eq_none_iff, told]
  cases found : messages.findSome? named with
  | none => simp
  | some status =>
    obtain ⟨message, -, isNamed⟩ := List.exists_of_findSome?_eq_some found
    rw [named] at isNamed
    split_ifs at isNamed <;> cases isNamed <;> simp

/-- A status that is set by results only follows the server exactly when the results have
told it. -/
theorem SetByResults.follows_iff {system : System} (sets : SetByResults system)
    (handled : system.ws = []) (listeners : List Listener) :
    FollowsServer listeners system ↔ ToldByResults listeners (AsrClient.received system.log) := by
  have idle := sets.idle
  simp only [handled, List.not_mem_nil, or_false] at idle
  have status : system.impl.sessionStatus = told (AsrClient.received system.log) ↔
      (∀ message ∈ AsrClient.received system.log, named message = none) ∨
        (∃ message ∈ AsrClient.received system.log, idleResult message = true) ∧
          told (AsrClient.received system.log) = .kIdle := by
    rw [← told_none_iff, ← idle]
    cases sets.status with
    | inl none =>
      rw [none]
      simp [eq_comm]
    | inr isIdle =>
      have named : told (AsrClient.received system.log) ≠ .kNone := by
        obtain ⟨message, member, isResult⟩ := idle.mp isIdle
        rw [ne_eq, told_none_iff]
        intro silent
        exact absurd ((silent message member).symm.trans (named_idle isResult)) (by simp)
      rw [isIdle, or_iff_right named]
      simp [eq_comm]
  have silent (listener : Listener) : listeningCalls listener system.log = 0 := by
    rw [listeningCalls, List.countP_eq_zero]
    intro event member heard
    split at heard
    · exact sets.unheard _ member
    · exact absurd heard (by simp)
  have listening : (∀ listener, listeningCalls listener system.log = listeners.count listener *
        (AsrClient.received system.log).countP (named · = some .kListening)) ↔
      listeners = [] ∨ ∀ message ∈ AsrClient.received system.log,
        named message ≠ some .kListening := by
    simp only [silent, eq_comm (a := 0), Nat.mul_eq_zero, List.count_eq_zero, forall_or_right,
      List.countP_eq_zero, decide_eq_true_eq, List.eq_nil_iff_forall_not_mem]
  exact ⟨fun follows => ⟨status.mp follows.status, listening.mp follows.listening⟩,
    fun byResults => ⟨status.mpr byResults.status, listening.mpr byResults.listening⟩⟩

/-- Behind any sequence of handled messages, in any run that keeps the implementation
object, the recognizer follows the server exactly when its results have told the status. -/
theorem session_status_follows_iff (parse : Bytes → Json) (properties : Properties)
    (labels : List Label) (system : System)
    (execution : Execution (step parse) KeepsImpl (System.create properties) labels system)
    (handled : system.ws = []) :
    FollowsServer properties.listener system ↔
      ToldByResults properties.listener (received system.log) := by
  have sets : SetByResults system := by
    rcases impl_invariant execution (fun _ _ => id) SetByResults
      (fun _ built => .built built)
      (fun _ _ _ same sets _ moved => sets.turn (same.turn moved)) with building | ⟨-, sets⟩
    · constructor
      · cases building <;> exact Or.inl rfl
      · cases building <;> simp [System.create, received]
      · cases building <;> simp [System.create]
      · simp [building.silent]
    · exact sets
  exact sets.follows_iff handled properties.listener

/-- A recognition ends with a result that names IDLE, for a listener. -/
def idleRecognition : List Label :=
  firstRecognition 0 { uri := bytes "builtin:slm/general" } ++ handshake ++
    [.receive (bytes
      "ASR 2.4 RECOGNITION_RESULT\r\nSession-Status:IDLE\r\nResult-Status:NO_SPEECH\r\n\r\n")] ++
    websocket 5

/-- The status follows the server there. -/
theorem idle_result_followed :
    ∃ system, Execution (step fun _ => .null) KeepsImpl
        (System.create { connectOnRecognize := true, listener := [7] }) idleRecognition system ∧
      system.ws = [] ∧ system.impl.sessionStatus = .kIdle ∧ FollowsServer [7] system := by
  obtain ⟨system, execution, check⟩ := exists_execution_of_run
    (step fun _ => .null) KeepsImpl (System.create { connectOnRecognize := true, listener := [7] })
    idleRecognition
    (fun system => system.ws = [] ∧ system.impl.sessionStatus = .kIdle ∧
      (received system.log).any idleResult = true ∧ told (received system.log) = .kIdle ∧
      (received system.log).all (named · ≠ some .kListening) = true) (by decide +kernel)
  obtain ⟨handled, isIdle, result, isTold, unlistened⟩ := of_decide_eq_true check
  refine ⟨system, execution, handled, isIdle,
    (session_status_follows_iff _ _ _ system execution handled).mpr ⟨?_, Or.inr ?_⟩⟩
  · exact Or.inr ⟨List.any_eq_true.mp result, isTold⟩
  · exact fun message member => of_decide_eq_true (List.all_eq_true.mp unlistened message member)

/-- The reply to the start of the recognition names LISTENING, and the status stays as it
was. -/
theorem listening_response_ignored :
    ¬ ∀ (parse : Bytes → Json) (properties : Properties) (labels : List Label) (system : System),
      Execution (step parse) KeepsImpl (System.create properties) labels system →
        system.ws = [] → FollowsServer properties.listener system := by
  intro always
  obtain ⟨system, execution, check⟩ := exists_execution_of_run
    (step fun _ => .null) KeepsImpl (System.create { connectOnRecognize := true, listener := [7] })
    (firstRecognition 0 { uri := bytes "builtin:slm/general" } ++
      [reply .createSession "SUCCESS"] ++ websocket 2 ++
      [.receive (bytes
        "ASR 2.4 RESPONSE\r\nMethod:START_RECOGNITION\r\nResult:SUCCESS\r\nSession-Status:LISTENING\r\n\r\n")] ++
      websocket 1)
    (fun system => system.ws = [] ∧ system.impl.sessionStatus = .kNone ∧
      told (received system.log) = .kListening) (by decide +kernel)
  obtain ⟨handled, none, listening⟩ := of_decide_eq_true check
  have follows := always _ _ _ system execution handled
  exact absurd (none.symm.trans (follows.status.trans listening)) (by decide)

end AsrClient
