import AsrClient.Recognizer.Cancellation
import AsrClient.Recognizer.Construction

/-!
# The configuration of a recognition

The properties of a recognizer own the configuration and the listeners that its builder
collected. The construction moves both into the implementation object. A wait that
returns on an open connection of an auto-closing recognizer builds a new object from the
same properties, which have nothing left to give. The recognitions behind it are neither
configured nor observed.

A recognizer that keeps its implementation object treats every recognition like the
first: the session that it opens is configured before the recognition starts, and every
listener hears of every message.
-/

namespace AsrClient

open Transitions SpeechRecognizer

/-- A successful reply to a request. -/
def accepts (c : Method) (response : ASRMessageResponse) : Bool :=
  match methodWord response with
  | none => false
  | some method => contains method (getMethodString .response) &&
      (response.getHeader ResponseHeader.method.getString = getMethodString c &&
        ASRProcessResponse.succeeded response)

/-- The callbacks with which the listeners hear of a message: those that its handler
invokes, and the result that it stores when it announces the stored ones. -/
inductive Announces (parse : Bytes → Json) (response : ASRMessageResponse) : Callback → Prop where
  | invoked (callback : Callback)
      (member : .invoke callback ∈ ASRProcessMsg.handle parse response) :
      Announces parse response callback
  | stored (result : RecognitionResult)
      (pushed : .pushResult result ∈ ASRProcessMsg.handle parse response)
      (announced : .invokeResults ∈ ASRProcessMsg.handle parse response) :
      Announces parse response (.onRecognitionResult result)

/-- The requests that the websocket thread has sent in the handler of the message received
last. -/
def websocketRequests (log : List Event) : List ASRMessageRequest :=
  (sinceReceived log).filterMap fun
    | .sent .websocket request => some request
    | _ => none

/-- The parameters of the session were sent, and nothing else; or the library failed to
send them. -/
def ParametersSent (config : RecognitionConfig) (log : List Event) : Prop :=
  websocketRequests log = [ASRSendMessage.setParameters config] ∨
    (websocketRequests log = [] ∧
      .sendFailed .websocket (ASRSendMessage.setParameters config) ∈ sinceReceived log)

/-- A recognition is treated like the first one: its accepted session has been configured
and not started, it is started only when the configuration has been accepted, and every
listener has heard of every message that is handled. -/
structure LikeTheFirst (parse : Bytes → Json) (config : RecognitionConfig)
    (listeners : List Listener) (system : System) : Prop where
  configured (response : ASRMessageResponse) (last : lastReceived system.log = some response)
    (created : accepts .createSession response = true) (handled : system.ws = []) :
    ParametersSent config system.log
  ordered (thread : Thread) (request : ASRMessageRequest)
    (sent : .sent thread request ∈ sinceReceived system.log)
    (start : isRequest .startRecognition request = true) :
    ∃ response, lastReceived system.log = some response ∧ accepts .setParameters response = true
  observed (response : ASRMessageResponse) (last : lastReceived system.log = some response)
    (handled : system.ws = []) (callback : Callback)
    (announced : Announces parse response callback) (listener : Listener)
    (member : listener ∈ listeners) :
    .notified listener callback ∈ sinceReceived system.log

/-- A step with which a later recognition may lose what the first one had: the object is
built anew behind a wait, a recognition starts without a session of its own, or a result is
taken before the listeners have heard of it. -/
def losesSetup (system : System) : Label → Bool
  | .app _ =>
      match system.app.head? with
      | some .resetIfAutoClose => system.properties.autoClose && system.impl.isOpen
      | some .firstRequest => system.impl.sessionStatus ≠ .kNone
      | some .clearResult => system.ws.any WsStmt.announces
      | _ => false
  | _ => false

/-- The step loses nothing. -/
def KeepsSetup (system : System) (label : Label) : Prop := losesSetup system label = false

instance (system : System) (label : Label) : Decidable (KeepsSetup system label) :=
  inferInstanceAs (Decidable (_ = _))

/-- Statements that build the implementation object, or start a recognition in a session
that exists. -/
def AppStmt.skipsSetup : AppStmt → Bool
  | .freshImpl => true
  | .moveConfig => true
  | .moveListener => true
  | .startRecognition => true
  | _ => false

/-- Statements of the websocket thread that send a request. -/
def WsStmt.requests : WsStmt → Bool
  | .configure => true
  | .setParameters => true
  | .startRecognition => true
  | _ => false

/-- The statements with which a handler stores a result and announces the stored ones. -/
def announceStored (result : RecognitionResult) : List WsStmt :=
  [.pushResult result, .invokeResults, .clearRecognizing]

/-- A callback is still to be made. -/
inductive Pending (system : System) : Callback → Prop where
  | invoke (callback : Callback) (member : .invoke callback ∈ system.ws) : Pending system callback
  | push (result : RecognitionResult) (suffix : announceStored result <:+ system.ws) :
      Pending system (.onRecognitionResult result)
  | announce (result : RecognitionResult) (next : system.ws = [.invokeResults, .clearRecognizing])
      (stored : result ∈ system.impl.result) : Pending system (.onRecognitionResult result)

/-- A listener is about to be told: directly, or of the stored result in a place of the list,
which nothing empties before. -/
inductive Due (system : System) (listener : Listener) : Callback → Prop where
  | notify (callback : Callback) (member : .notifyListener listener callback ∈ system.ws) :
      Due system listener callback
  | stored (place : Nat) (result : RecognitionResult)
      (member : .notifyStored listener place ∈ system.ws)
      (inPlace : system.impl.result[place]? = some result) (keeps : .clearResult ∉ system.ws) :
      Due system listener (.onRecognitionResult result)

/-- The handler of an accepted session: it is about to configure, about to send, or it has
sent. -/
inductive Configuring (config : RecognitionConfig) (system : System) : Prop where
  | configure (next : system.ws = [.configure]) (silent : websocketRequests system.log = [])
  | send (next : system.ws = [.setParameters]) (silent : websocketRequests system.log = [])
  | sent (finished : ∀ stmt ∈ system.ws, stmt.requests = false)
      (sent : ParametersSent config system.log)

/-- What a pending request of the websocket thread answers to. -/
def Answers (response : ASRMessageResponse) : WsStmt → Prop
  | .startRecognition => accepts .setParameters response = true
  | _ => accepts .createSession response = true

/-- The invariant of a recognizer that keeps its implementation object. -/
structure SetUp (parse : Bytes → Json) (config : RecognitionConfig) (listeners : List Listener)
    (system : System) : Prop where
  keepsConfig : system.impl.config = some config
  keepsListener : system.impl.listener = listeners
  keepsImpl : ∀ stmt ∈ system.app, stmt.skipsSetup = false
  answers (stmt : WsStmt) (member : stmt ∈ system.ws) (requests : stmt.requests = true) :
    ∃ response, lastReceived system.log = some response ∧ Answers response stmt
  ordered (thread : Thread) (request : ASRMessageRequest)
    (sent : .sent thread request ∈ sinceReceived system.log)
    (start : isRequest .startRecognition request = true) :
    ∃ response, lastReceived system.log = some response ∧ accepts .setParameters response = true
  configuring (response : ASRMessageResponse) (last : lastReceived system.log = some response)
    (created : accepts .createSession response = true) : Configuring config system
  announcing (response : ASRMessageResponse) (last : lastReceived system.log = some response)
    (callback : Callback) (announced : Announces parse response callback) :
    Pending system callback ∨ ∀ listener ∈ listeners,
      Due system listener callback ∨ .notified listener callback ∈ sinceReceived system.log

/-- A successful response names its method. -/
theorem accepts_iff (c : Method) (response : ASRMessageResponse) :
    accepts c response = true ↔ isResponse response = true ∧
      ASRProcessResponse.RepliesTo c response ∧ ASRProcessResponse.succeeded response = true := by
  rw [accepts, isResponse, ASRProcessResponse.RepliesTo]
  cases methodWord response with
  | none => simp
  | some method => simp

/-- A message has one method: an accepted session is no accepted configuration. -/
theorem accepts_exclusive (response : ASRMessageResponse)
    (created : accepts .createSession response = true) :
    accepts .setParameters response = false := by
  rw [accepts] at created ⊢
  split at created
  · exact absurd created (by simp)
  · simp only [Bool.and_eq_true, decide_eq_true_eq] at created
    rw [created.2.1]
    simp only [show getMethodString .createSession ≠ getMethodString .setParameters by decide,
      decide_false, Bool.false_and, Bool.and_false]

/-- The handler of an accepted session configures it. -/
theorem created_handler (parse : Bytes → Json) (response : ASRMessageResponse)
    (created : accepts .createSession response = true) :
    ASRProcessMsg.handle parse response = [.configure] := by
  rw [accepts] at created
  split at created
  · exact absurd created (by simp)
  · rename_i method word
    simp only [Bool.and_eq_true, decide_eq_true_eq] at created
    obtain ⟨isResponse, value, succeeded⟩ := created
    simp only [ASRProcessMsg.handle, word, isResponse, if_true, ASRProcessResponse.handle,
      ASRProcessResponse.session_status_nil, List.nil_append, ASRProcessResponse.dispatch, value,
      ASRProcessResponse.createSession, ASRProcessResponse.onSuccess, succeeded]

/-- Only the handlers of accepted sessions and configurations send requests. -/
theorem handler_answers (parse : Bytes → Json) (response : ASRMessageResponse) (stmt : WsStmt)
    (member : stmt ∈ ASRProcessMsg.handle parse response) (requests : stmt.requests = true) :
    Answers response stmt := by
  cases ASRProcessMsg.handle_performs parse response stmt member with
  | configure kind method success => exact (accepts_iff _ response).mpr ⟨kind, method, success⟩
  | startRecognition kind method success =>
    exact (accepts_iff _ response).mpr ⟨kind, method, success⟩
  | _ => exact absurd requests Bool.false_ne_true

/-- The handler of a reply does not announce the stored results. -/
theorem reply_announces_nothing (response : ASRMessageResponse) :
    .invokeResults ∉ ASRProcessResponse.handle response := by
  have handles := ASRProcessResponse.handle_handles response
  generalize ASRProcessResponse.handle response = stmts at handles
  cases handles <;> simp [ASRProcessResponse.recognitionError]

/-- The handler of a result without a body stores the status, and announces. Any other
handler of a result announces nothing that is stored. -/
theorem result_announces (parse : Bytes → Json) (response : ASRMessageResponse)
    (announced : .invokeResults ∈ ASRProcessResult.handle parse response) :
    ASRProcessResult.handle parse response = ASRProcessResult.sessionStatus response ++
      announceStored (.ofString (ASRProcessResult.resultStatus response)) := by
  obtain ⟨stmts, handler, handles⟩ := ASRProcessResult.handle_handles parse response
  rw [handler] at announced ⊢
  have behind : .invokeResults ∈ stmts := by
    refine (List.mem_append.mp announced).resolve_left fun session => ?_
    cases ASRProcessResult.session_status_cases response with
    | inl none =>
      simp [none] at session
    | inr idle =>
      simp [idle] at session
  cases handles with
  | bodiless going empty => rfl
  | segment going body isFinal =>
    rw [ASRProcessResult.finalSegment] at behind
    split_ifs at behind <;> simp at behind
  | _ => simp at behind

/-- A handler that announces the stored results has stored one just before. -/
theorem handler_announces (parse : Bytes → Json) (response : ASRMessageResponse)
    (result : RecognitionResult) (pushed : .pushResult result ∈ ASRProcessMsg.handle parse response)
    (announced : .invokeResults ∈ ASRProcessMsg.handle parse response) :
    announceStored result <:+ ASRProcessMsg.handle parse response := by
  rw [ASRProcessMsg.handle] at pushed announced ⊢
  split
  · rename_i word
    simp [word] at pushed
  · rename_i method word
    simp only [word] at pushed announced
    split_ifs at pushed announced ⊢ with isResponse isResult
    · exact absurd announced (reply_announces_nothing response)
    · rw [result_announces parse response announced] at pushed ⊢
      have session : .pushResult result ∉ ASRProcessResult.sessionStatus response := by
        rw [ASRProcessResult.sessionStatus]
        split_ifs <;> simp
      have stored := (List.mem_append.mp pushed).resolve_left session
      obtain rfl : result = .ofString (ASRProcessResult.resultStatus response) := by
        simpa [announceStored] using stored
      exact List.suffix_append ..
    · simp at pushed
    · simp at pushed
    · simp at pushed

/-- A statement that does not build the object leaves its configuration and its listeners
alone, and a statement that empties nothing leaves the results. -/
theorem app_keeps {outcome : Outcome} {system after : System} {stmt : AppStmt}
    (performed : execApp outcome system stmt = some after) (keeps : stmt.skipsSetup = false) :
    after.impl.config = system.impl.config ∧ after.impl.listener = system.impl.listener ∧
      (stmt ≠ .clearResult → after.impl.result = system.impl.result) := by
  cases stmt <;> simp only [execApp, Option.some.injEq] at performed <;>
    (repeat' split at performed) <;> cases performed <;>
    first
    | exact ⟨rfl, rfl, fun _ => rfl⟩
    | exact ⟨rfl, rfl, fun other => absurd rfl other⟩
    | exact absurd keeps (by simp [AppStmt.skipsSetup])

/-- The application thread comes to no such statement, unless the setup is lost. -/
theorem app_keeps_list (outcome : Outcome) (before after : System) (stmt : AppStmt)
    (rest : List AppStmt) (next : before.app = stmt :: rest)
    (keeps : ∀ stmt ∈ before.app, stmt.skipsSetup = false)
    (allowed : KeepsSetup before (.app outcome))
    (performed : execApp outcome { before with app := rest } stmt = some after) :
    ∀ stmt ∈ after.app, stmt.skipsSetup = false := by
  rw [next, List.forall_mem_cons] at keeps
  obtain ⟨first, others⟩ := keeps
  have inner {new : List AppStmt} (list : after.app = new ++ rest)
      (pushed : ∀ stmt ∈ new, stmt.skipsSetup = false) :
      ∀ stmt ∈ after.app, stmt.skipsSetup = false := by
    rw [list]
    exact List.forall_mem_append.mpr ⟨pushed, others⟩
  simp only [KeepsSetup, losesSetup, next, List.head?_cons] at allowed
  cases stmt with
  | resetIfAutoClose =>
    simp only [execApp, allowed, Bool.false_eq_true, if_false] at performed
    cases performed
    exact others
  | firstRequest =>
    simp only [ne_eq, decide_not, Bool.not_eq_false', decide_eq_true_eq] at allowed
    simp only [execApp, allowed, if_true] at performed
    cases performed
    exact inner rfl (by simp [AppStmt.skipsSetup])
  | freshImpl | moveConfig | moveListener | startRecognition =>
    exact absurd first (by simp [AppStmt.skipsSetup])
  | _ =>
    rcases app_list performed with empty | ⟨new, list, expands⟩
    · simp [empty]
    · apply inner list
      refine expands_all expands (fun _ _ => rfl) (fun _ => rfl) ?_
      first
      | exact List.forall_mem_nil _
      | exact List.forall_mem_singleton.mpr rfl
      | decide

/-- A stored result stays in its place while the list is not emptied. -/
theorem ws_in_place (outcome : Outcome) (system : System) (stmt : WsStmt)
    (keeps : stmt ≠ .clearResult) {place : Nat} {result : RecognitionResult}
    (inPlace : system.impl.result[place]? = some result) :
    (execWs outcome system stmt).impl.result[place]? = some result := by
  cases stmt with
  | clearResult => exact absurd rfl keeps
  | pushResult added =>
    have within : place < system.impl.result.length := (List.getElem?_eq_some_iff.mp inPlace).1
    exact (List.getElem?_append_left within).trans inPlace
  | _ =>
    simp only [execWs]
    (repeat' split) <;> exact inPlace

/-- An entry that belongs to no handler and starts no recognition. -/
def Event.isForeign : Event → Bool
  | .received _ => false
  | .sent thread request => thread ≠ .websocket && !isRequest .startRecognition request
  | _ => true

/-- The application thread adds only such entries, when it starts no recognition. -/
theorem app_foreign {outcome : Outcome} {stmt : AppStmt} {event : Event}
    (logged : stmt.MayLog outcome event) (keeps : stmt.skipsSetup = false) :
    event.isForeign = true := by
  cases event with
  | sent thread request =>
    cases stmt <;> cases outcome <;> cases thread <;> simp_all [AppStmt.MayLog] <;>
      first
      | decide
      | exact absurd keeps (by simp [AppStmt.skipsSetup])
  | received response => cases stmt <;> cases outcome <;> exact absurd logged id
  | _ => rfl

/-- The audio sender adds only such entries. -/
theorem audio_foreign (ret : Int) (buffer : Bytes) :
    (Event.sent .sender (ASRSendMessage.sendAudio ret buffer)).isForeign = true := by
  show (decide (Thread.sender ≠ .websocket) &&
    !decide (firstLine .sendAudio = firstLine .startRecognition)) = true
  decide

/-- A log grows by at most one such entry. -/
def ForeignStep (log after : List Event) : Prop :=
  after = log ∨ ∃ event, after = event :: log ∧ event.isForeign = true

section Foreign

variable {log after : List Event}

/-- Such an entry is no receipt. -/
theorem ForeignStep.continues (foreign : ForeignStep log after) : Continues log after := by
  refine foreign.imp_right ?_
  rintro ⟨event, rfl, other⟩
  exact ⟨event, rfl, by rintro response rfl; simp [Event.isForeign] at other⟩

/-- Such an entry leaves the requests of the websocket thread. -/
theorem ForeignStep.requests (foreign : ForeignStep log after) :
    websocketRequests after = websocketRequests log := by
  rcases foreign with rfl | ⟨event, rfl, other⟩
  · rfl
  · cases event with
    | received response => simp [Event.isForeign] at other
    | sent thread request => cases thread <;> first | rfl | simp [Event.isForeign] at other
    | _ => rfl

/-- Such an entry is no start. -/
theorem ForeignStep.starts (foreign : ForeignStep log after) {thread : Thread}
    {request : ASRMessageRequest} (start : isRequest .startRecognition request = true)
    (sent : .sent thread request ∈ sinceReceived after) :
    .sent thread request ∈ sinceReceived log := by
  rcases foreign with rfl | ⟨event, rfl, other⟩
  · exact sent
  · cases event with
    | received response => simp [Event.isForeign] at other
    | sent other request =>
      cases List.mem_cons.mp sent with
      | inl same =>
        cases same
        simp_all [Event.isForeign]
      | inr former =>
        exact former
    | _ => exact (List.mem_cons.mp sent).resolve_left (by simp)

end Foreign

section SetUp

variable {parse : Bytes → Json} {config : RecognitionConfig} {listeners : List Listener}
  {before after : System}

/-- The parameters stay sent while others add to the log. -/
theorem ParametersSent.foreign (sent : ParametersSent config before.log)
    (foreign : ForeignStep before.log after.log) : ParametersSent config after.log := by
  rw [ParametersSent, foreign.requests]
  exact sent.imp_right fun ⟨silent, failed⟩ => ⟨silent, foreign.continues.mem failed⟩

/-- A step that is none of the websocket thread, and that leaves the object and the pending
results alone, keeps the setup. -/
theorem SetUp.foreign (setUp : SetUp parse config listeners before)
    (ws : after.ws = before.ws) (log : ForeignStep before.log after.log)
    (keepsConfig : after.impl.config = before.impl.config)
    (keepsListener : after.impl.listener = before.impl.listener)
    (keepsResult : before.ws.any WsStmt.announces = true →
      after.impl.result = before.impl.result)
    (keepsImpl : ∀ stmt ∈ after.app, stmt.skipsSetup = false) :
    SetUp parse config listeners after where
  keepsConfig := keepsConfig.trans setUp.keepsConfig
  keepsListener := keepsListener.trans setUp.keepsListener
  keepsImpl := keepsImpl
  answers stmt member requests := by
    rw [log.continues.last]
    exact setUp.answers stmt (ws ▸ member) requests
  ordered thread request sent start := by
    rw [log.continues.last]
    exact setUp.ordered thread request (log.starts start sent) start
  configuring response last created := by
    rw [log.continues.last] at last
    cases setUp.configuring response last created with
    | configure next silent => exact .configure (ws.trans next) (log.requests.trans silent)
    | send next silent => exact .send (ws.trans next) (log.requests.trans silent)
    | sent finished sent => exact .sent (ws ▸ finished) (sent.foreign log)
  announcing response last callback announced := by
    rw [log.continues.last] at last
    cases setUp.announcing response last callback announced with
    | inl pending =>
      left
      cases pending with
      | invoke _ member => exact .invoke _ (ws ▸ member)
      | push result suffix => exact .push result (ws ▸ suffix)
      | announce result next stored =>
        refine .announce result (ws.trans next) ?_
        rwa [keepsResult (by simp [next, WsStmt.announces])]
    | inr told =>
      right
      refine fun listener member => (told listener member).imp (fun due => ?_) log.continues.mem
      cases due with
      | notify _ waiting => exact .notify _ (ws ▸ waiting)
      | stored place result waiting inPlace keeps =>
        refine .stored place result (ws ▸ waiting) ?_ (ws ▸ keeps)
        rwa [keepsResult (List.any_eq_true.mpr ⟨_, waiting, rfl⟩)]

/-- The receipt of a message keeps the setup: its handler has everything still to do. -/
theorem SetUp.received (setUp : SetUp parse config listeners before)
    (response : ASRMessageResponse) :
    SetUp parse config listeners
      (({ before with ws := ASRProcessMsg.handle parse response } : System).record
        (.received response)) where
  keepsConfig := setUp.keepsConfig
  keepsListener := setUp.keepsListener
  keepsImpl := setUp.keepsImpl
  answers stmt member requests :=
    ⟨response, rfl, handler_answers parse response stmt member requests⟩
  ordered thread request sent start := absurd sent List.not_mem_nil
  configuring last received created := by
    obtain rfl : response = last := Option.some.inj received
    exact .configure (created_handler parse response created) rfl
  announcing last received callback announced := by
    obtain rfl : response = last := Option.some.inj received
    left
    cases announced with
    | invoked _ member => exact .invoke _ member
    | stored result pushed announced =>
      exact .push result (handler_announces parse response result pushed announced)

/-- Nothing is pending when the websocket thread is free. -/
theorem Pending.busy {callback : Callback} (pending : Pending before callback) :
    before.ws ≠ [] := by
  intro free
  cases pending with
  | invoke _ member => simp [free] at member
  | push result suffix => simp [free, announceStored] at suffix
  | announce result next stored => simp [free] at next

/-- No listener is about to be told either. -/
theorem Due.busy {listener : Listener} {callback : Callback} (due : Due before listener callback) :
    before.ws ≠ [] := by
  intro free
  cases due with
  | notify _ member => simp [free] at member
  | stored place result member inPlace keeps => simp [free] at member

/-- The handlers of the connection send no request. -/
theorem connection_silent {label : Label} {stmts : List WsStmt}
    (connection : ConnectionEvent label stmts) : ∀ stmt ∈ stmts, stmt.requests = false := by
  cases connection <;> decide

/-- An event of the connection keeps the setup: the last message has been handled. -/
theorem SetUp.event (setUp : SetUp parse config listeners before) {label : Label}
    {stmts : List WsStmt} (connection : ConnectionEvent label stmts) (free : before.ws = []) :
    SetUp parse config listeners { before with ws := stmts } where
  keepsConfig := setUp.keepsConfig
  keepsListener := setUp.keepsListener
  keepsImpl := setUp.keepsImpl
  answers stmt member requests :=
    absurd requests (by simp [connection_silent connection stmt member])
  ordered := setUp.ordered
  configuring response last created := by
    cases setUp.configuring response last created with
    | configure next silent => simp [free] at next
    | send next silent => simp [free] at next
    | sent finished sent => exact .sent (connection_silent connection) sent
  announcing response last callback announced := by
    right
    intro listener member
    cases setUp.announcing response last callback announced with
    | inl pending =>
      exact absurd free pending.busy
    | inr told =>
      exact Or.inr ((told listener member).resolve_left fun due => due.busy free)

/-- A statement that sends no request leads to no such statement, and leaves the requests
of its handler. -/
theorem ws_silent (outcome : Outcome) (system : System) (stmt : WsStmt)
    (silent : stmt.requests = false) :
    ForeignStep system.log (execWs outcome system stmt).log ∧
      ∀ pushed, stmt.MayPush pushed → pushed.requests = false := by
  constructor
  · cases stmt <;> simp only [execWs] <;> (repeat' split) <;>
      first
      | exact Or.inl rfl
      | exact Or.inr ⟨_, rfl, rfl⟩
      | exact absurd silent (by simp [WsStmt.requests])
  · intro pushed may
    cases stmt <;> cases pushed <;>
      first
      | rfl
      | exact absurd may id
      | exact absurd silent (by simp [WsStmt.requests])

/-- A statement of a handler tells a listener that is about to be told, or leaves it so: only
a statement that empties the list, and none is left, would take a result from its place. -/
theorem Due.ws {listener : Listener} {callback : Callback} (due : Due before listener callback)
    (outcome : Outcome) (stmt : WsStmt) (rest : List WsStmt) (next : before.ws = stmt :: rest) :
    Due (execWs outcome { before with ws := rest } stmt) listener callback ∨
      .notified listener callback ∈
        sinceReceived (execWs outcome { before with ws := rest } stmt).log := by
  obtain ⟨new, list, pushed⟩ := ws_list outcome { before with ws := rest } stmt
  have left {other : WsStmt} (member : other ∈ rest) :
      other ∈ (execWs outcome { before with ws := rest } stmt).ws := by
    rw [list]
    exact List.mem_append_right _ member
  cases due with
  | notify _ member =>
    rw [next, List.mem_cons] at member
    rcases member with rfl | later
    · exact Or.inr (List.mem_cons_self ..)
    · exact Or.inl (.notify _ (left later))
  | stored place result member inPlace keeps =>
    rw [next, List.mem_cons] at member keeps
    obtain ⟨other, none⟩ := not_or.mp keeps
    rcases member with rfl | later
    · right
      simp only [execWs, inPlace]
      exact List.mem_cons_self ..
    · refine Or.inl (.stored place result (left later) ?_ ?_)
      · exact ws_in_place outcome { before with ws := rest } stmt (Ne.symm other) inPlace
      · rw [list, List.mem_append, not_or]
        refine ⟨fun put => ?_, none⟩
        have may := pushed _ put
        cases stmt <;> exact may

/-- A statement of a handler makes a pending callback for every listener, or leaves it
pending; and what a listener was to hear, it hears or has still to hear. -/
theorem SetUp.ws_announcing (setUp : SetUp parse config listeners before) (outcome : Outcome)
    (stmt : WsStmt) (rest : List WsStmt) (next : before.ws = stmt :: rest)
    (response : ASRMessageResponse) (last : lastReceived before.log = some response)
    (callback : Callback) (announced : Announces parse response callback) :
    let after := execWs outcome { before with ws := rest } stmt
    Pending after callback ∨ ∀ listener ∈ listeners,
      Due after listener callback ∨ .notified listener callback ∈ sinceReceived after.log := by
  intro after
  have continued : Continues before.log after.log :=
    ws_continues outcome { before with ws := rest } stmt
  obtain ⟨new, list, -⟩ : ∃ new, after.ws = new ++ rest ∧ ∀ pushed ∈ new, stmt.MayPush pushed :=
    ws_list outcome { before with ws := rest } stmt
  have left {other : WsStmt} (member : other ∈ rest) : other ∈ after.ws := by
    rw [list]
    exact List.mem_append_right _ member
  cases setUp.announcing response last callback announced with
  | inl pending =>
    cases pending with
    | invoke _ member =>
      rw [next, List.mem_cons] at member
      rcases member with rfl | later
      · right
        intro listener member
        refine Or.inl (.notify _ (List.mem_append_left _ (List.mem_map_of_mem ?_)))
        exact setUp.keepsListener.symm ▸ member
      · exact Or.inl (.invoke _ (left later))
    | push result suffix =>
      rw [next, List.suffix_cons_iff] at suffix
      cases suffix with
      | inl same =>
        obtain ⟨rfl, rfl⟩ := List.cons.inj same
        exact Or.inl (.announce result rfl (by simp [after, execWs, System.withImpl]))
      | inr later =>
        refine Or.inl (.push result ?_)
        rw [list]
        exact later.trans (List.suffix_append ..)
    | announce result awaited stored =>
      rw [next] at awaited
      obtain ⟨rfl, rfl⟩ := List.cons.inj awaited
      right
      intro listener member
      obtain ⟨place, inPlace⟩ := List.mem_iff_getElem?.mp stored
      have within : place < before.impl.result.length := (List.getElem?_eq_some_iff.mp inPlace).1
      refine Or.inl (.stored place result (List.mem_append_left _
        (List.mem_flatMap.mpr ⟨place, List.mem_range.mpr within, ?_⟩)) inPlace ?_)
      · exact List.mem_map_of_mem (setUp.keepsListener.symm ▸ member)
      · simp [after, execWs, System.wsThen]
  | inr told =>
    right
    intro listener member
    cases told listener member with
    | inl due => exact due.ws outcome stmt rest next
    | inr heard =>
      exact Or.inr (continued.mem heard)

/-- A statement of a handler leaves the object and the message received last, and the
listeners hear as they should. What it does for the requests is all there is to show. -/
theorem SetUp.of_ws (setUp : SetUp parse config listeners before) (outcome : Outcome)
    (stmt : WsStmt) (rest : List WsStmt) (next : before.ws = stmt :: rest)
    (performed : execWs outcome { before with ws := rest } stmt = after)
    (answers : ∀ other ∈ after.ws, other.requests = true →
      ∃ response, lastReceived before.log = some response ∧ Answers response other)
    (ordered : ∀ thread request, .sent thread request ∈ sinceReceived after.log →
      isRequest .startRecognition request = true →
      ∃ response, lastReceived before.log = some response ∧ accepts .setParameters response = true)
    (configuring : ∀ response, lastReceived before.log = some response →
      accepts .createSession response = true → Configuring config after) :
    SetUp parse config listeners after := by
  subst performed
  obtain ⟨sameConfig, sameListener⟩ := ws_keeps outcome { before with ws := rest } stmt
  have last := (ws_continues outcome { before with ws := rest } stmt).last
  constructor
  · exact sameConfig.trans setUp.keepsConfig
  · exact sameListener.trans setUp.keepsListener
  · rw [ws_app]
    exact setUp.keepsImpl
  · rw [last]
    exact answers
  · rw [last]
    exact ordered
  · rw [last]
    exact configuring
  · rw [last]
    exact setUp.ws_announcing outcome stmt rest next

/-- A statement that sends no request keeps the setup. -/
theorem SetUp.ws_silent (setUp : SetUp parse config listeners before) (outcome : Outcome)
    (stmt : WsStmt) (rest : List WsStmt) (next : before.ws = stmt :: rest)
    (quiet : stmt.requests = false) :
    SetUp parse config listeners (execWs outcome { before with ws := rest } stmt) := by
  obtain ⟨foreign, silent⟩ := AsrClient.ws_silent outcome { before with ws := rest } stmt quiet
  obtain ⟨new, list, pushed⟩ := ws_list outcome { before with ws := rest } stmt
  have other {awaited : WsStmt} (requests : awaited.requests = true) : before.ws ≠ [awaited] := by
    rw [next]
    rintro same
    obtain ⟨rfl, -⟩ := List.cons.inj same
    exact absurd (requests.symm.trans quiet) (by decide)
  refine setUp.of_ws outcome stmt rest next rfl ?_ ?_ ?_
  · intro other member asks
    rw [list, List.mem_append] at member
    cases member with
    | inl put =>
      exact absurd asks (by simp [silent other (pushed other put)])
    | inr left =>
      exact setUp.answers other (next ▸ List.mem_cons_of_mem _ left) asks
  · intro thread request sent start
    exact setUp.ordered thread request (foreign.starts start sent) start
  · intro response last created
    cases setUp.configuring response last created with
    | configure awaited silent => exact absurd awaited (other rfl)
    | send awaited silent => exact absurd awaited (other rfl)
    | sent finished sent =>
      apply Configuring.sent
      · intro other member
        rw [list, List.mem_append] at member
        cases member with
        | inl put =>
          exact silent other (pushed other put)
        | inr left =>
          exact finished other (next ▸ List.mem_cons_of_mem _ left)
      · exact sent.foreign foreign

/-- With a configuration an accepted session goes on to send it. -/
theorem SetUp.ws_configure (setUp : SetUp parse config listeners before) (outcome : Outcome)
    (rest : List WsStmt) (next : before.ws = .configure :: rest) :
    SetUp parse config listeners (execWs outcome { before with ws := rest } .configure) := by
  have performed : execWs outcome { before with ws := rest } .configure =
      { before with ws := .setParameters :: rest } := by
    simp [execWs, setUp.keepsConfig, System.wsThen]
  rw [performed]
  refine setUp.of_ws outcome .configure rest next performed ?_ setUp.ordered ?_
  · intro other member asks
    rcases List.mem_cons.mp member with rfl | left
    · exact setUp.answers .configure (by simp [next]) rfl
    · exact setUp.answers other (next ▸ List.mem_cons_of_mem _ left) asks
  · intro response last created
    cases setUp.configuring response last created with
    | configure awaited silent =>
      obtain ⟨-, rfl⟩ := List.cons.inj (next.symm.trans awaited)
      exact .send rfl silent
    | send awaited silent => exact absurd (next.symm.trans awaited) (by simp)
    | sent finished sent =>
      exact absurd (finished .configure (by simp [next])) (by simp [WsStmt.requests])

/-- The parameters are sent, or the library fails to send them. -/
theorem SetUp.ws_set_parameters (setUp : SetUp parse config listeners before) (outcome : Outcome)
    (rest : List WsStmt) (next : before.ws = .setParameters :: rest) :
    SetUp parse config listeners (execWs outcome { before with ws := rest } .setParameters) := by
  have performed : execWs outcome { before with ws := rest } .setParameters =
      ({ before with ws := rest } : System).send .websocket
        (ASRSendMessage.setParameters config) (outcome = .ok) := by
    simp [execWs, setUp.keepsConfig]
  rw [performed]
  refine setUp.of_ws outcome .setParameters rest next performed ?_ ?_ ?_
  · exact fun other member => setUp.answers other (next ▸ List.mem_cons_of_mem _ member)
  · intro thread request sent start
    have former : .sent thread request ∈ sinceReceived before.log := by
      cases outcome with
      | ok =>
        refine (List.mem_cons.mp sent).resolve_left fun same => ?_
        cases same
        rw [isRequest, ASRSendMessage.set_parameters_start_line] at start
        exact absurd start (by decide)
      | fails | throws => exact (List.mem_cons.mp sent).resolve_left (by simp)
    exact setUp.ordered thread request former start
  · intro response last created
    cases setUp.configuring response last created with
    | configure awaited silent => exact absurd (next.symm.trans awaited) (by simp)
    | send awaited silent =>
      obtain ⟨-, rfl⟩ := List.cons.inj (next.symm.trans awaited)
      apply Configuring.sent
      · simp [System.send]
      · cases outcome with
        | ok => exact Or.inl (congrArg (ASRSendMessage.setParameters config :: ·) silent)
        | fails | throws => exact Or.inr ⟨silent, List.mem_cons_self ..⟩
    | sent finished sent =>
      exact absurd (finished .setParameters (by simp [next])) (by simp [WsStmt.requests])

/-- A recognition is started in the handler of its accepted configuration only. -/
theorem SetUp.ws_start_recognition (setUp : SetUp parse config listeners before)
    (outcome : Outcome) (rest : List WsStmt) (next : before.ws = .startRecognition :: rest) :
    SetUp parse config listeners (execWs outcome { before with ws := rest } .startRecognition) := by
  obtain ⟨answered, last, answers⟩ := setUp.answers .startRecognition (by simp [next]) rfl
  refine setUp.of_ws outcome .startRecognition rest next rfl ?_ ?_ ?_
  · have list : (execWs outcome { before with ws := rest } .startRecognition).ws = rest := by
      simp only [execWs]
      (repeat' split) <;> rfl
    rw [list]
    exact fun other member => setUp.answers other (next ▸ List.mem_cons_of_mem _ member)
  · exact fun _ _ _ _ => ⟨answered, last, answers⟩
  · intro response same created
    obtain rfl := Option.some.inj (last.symm.trans same)
    exact absurd answers (by simp [Answers, accepts_exclusive answered created])

/-- Every statement of a handler keeps the setup. -/
theorem SetUp.ws (setUp : SetUp parse config listeners before) (outcome : Outcome)
    (stmt : WsStmt) (rest : List WsStmt) (next : before.ws = stmt :: rest) :
    SetUp parse config listeners (execWs outcome { before with ws := rest } stmt) := by
  cases stmt with
  | configure => exact setUp.ws_configure outcome rest next
  | setParameters => exact setUp.ws_set_parameters outcome rest next
  | startRecognition => exact setUp.ws_start_recognition outcome rest next
  | _ => exact setUp.ws_silent outcome _ rest next rfl

/-- Every step that loses nothing keeps the setup. -/
theorem SetUp.step {label : Label} (setUp : SetUp parse config listeners before)
    (allowed : KeepsSetup before label) (moved : step parse before label = some after) :
    SetUp parse config listeners after := by
  obtain ⟨-, moves⟩ := step_moves parse before after label moved
  cases moves with
  | call call idle =>
    refine setUp.foreign rfl (Or.inr ⟨_, rfl, rfl⟩) rfl rfl (fun _ => rfl) ?_
    cases call <;> simp [System.record, program, recognize, waitRecognitionResult,
      cancelRecognition, close, AppStmt.skipsSetup]
  | app outcome stmt rest _ next performed =>
    have keeps : stmt.skipsSetup = false := setUp.keepsImpl stmt (by simp [next])
    have ws : after.ws = before.ws := (app_ws performed :)
    have log : ForeignStep before.log after.log := by
      rcases app_log performed with same | ⟨event, logged, mayLog⟩
      · exact Or.inl same
      · exact Or.inr ⟨event, logged, app_foreign mayLog keeps⟩
    obtain ⟨sameConfig, sameListener, sameResult⟩ := app_keeps performed keeps
    refine setUp.foreign ws log sameConfig sameListener (fun announcing => sameResult ?_)
      (app_keeps_list outcome before after stmt rest next setUp.keepsImpl allowed performed)
    rintro rfl
    simp [KeepsSetup, losesSetup, next, announcing] at allowed
  | gaveUp rest exception asleep free =>
    exact setUp.foreign rfl (Or.inr ⟨_, rfl, rfl⟩) rfl rfl (fun _ => rfl) (by simp [System.raise])
  | expired condition rest asleep free met =>
    refine setUp.foreign rfl (Or.inl rfl) rfl rfl (fun _ => rfl) fun stmt member => ?_
    exact setUp.keepsImpl stmt (asleep ▸ List.mem_cons_of_mem _ member)
  | rejected payload cause other free =>
    exact setUp.foreign rfl (Or.inl rfl) rfl rfl (fun _ => rfl) setUp.keepsImpl
  | received payload response decoded free => exact setUp.received response
  | event label stmts connection free => exact setUp.event connection free
  | ws outcome stmt rest next => exact setUp.ws outcome stmt rest next
  | read ret chunk _ performed =>
    obtain ⟨frame, log⟩ := read_frame ret chunk before after performed
    refine setUp.foreign frame.ws (Or.inl log) (frame.keeps (·.config)) (frame.keeps (·.listener))
      (fun _ => frame.keeps (·.result)) ?_
    rw [frame.app]
    exact setUp.keepsImpl
  | sender outcome _ performed =>
    have frame := (sender_frame outcome before after performed).1
    refine setUp.foreign frame.ws (sender_logs performed audio_foreign fun _ _ => rfl)
      (frame.keeps (·.config)) (frame.keeps (·.listener)) (fun _ => frame.keeps (·.result)) ?_
    rw [frame.app]
    exact setUp.keepsImpl

/-- A recognizer to which nothing has happened yet is set up when its object is. -/
theorem SetUp.fresh {system : System} (log : system.log = []) (ws : system.ws = [])
    (keepsConfig : system.impl.config = some config)
    (keepsListener : system.impl.listener = listeners)
    (keepsImpl : ∀ stmt ∈ system.app, stmt.skipsSetup = false) :
    SetUp parse config listeners system where
  keepsConfig := keepsConfig
  keepsListener := keepsListener
  keepsImpl := keepsImpl
  answers stmt member := by simp [ws] at member
  ordered thread request sent := by simp [log, sinceReceived] at sent
  configuring response last := by simp [log, lastReceived] at last
  announcing response last := by simp [log, lastReceived] at last

/-- What is set up treats the recognition like the first one. -/
theorem SetUp.likeTheFirst {system : System} (setUp : SetUp parse config listeners system) :
    LikeTheFirst parse config listeners system where
  configured response last created handled := by
    cases setUp.configuring response last created with
    | configure next silent => simp [handled] at next
    | send next silent => simp [handled] at next
    | sent finished sent => exact sent
  ordered := setUp.ordered
  observed response last handled callback announced listener member := by
    cases setUp.announcing response last callback announced with
    | inl pending =>
      exact absurd handled pending.busy
    | inr told =>
      exact (told listener member).resolve_left fun due => due.busy handled

end SetUp

/-- An auto-closing recognizer with a configuration and a listener. -/
def autoClosing : Properties where
  recogConfig := some {}
  listener := [7]
  connectOnRecognize := true
  autoClose := true

/-- The server accepts the session, its configuration and the recognition. -/
def configuredHandshake : List Label :=
  [reply .createSession "SUCCESS"] ++ websocket 2 ++ [reply .setParameters "SUCCESS"] ++
    websocket 1 ++ [reply .startRecognition "SUCCESS"] ++ websocket 1

/-- A recognition is cancelled, which closes its connection, and the wait returns behind
that. -/
def cancelledRecognition : List Label :=
  firstRecognition 0 { uri := bytes "builtin:slm/general" } ++ configuredHandshake ++
    [.call .cancelRecognition] ++ application 1 ++ [reply .cancelRecognition "SUCCESS"] ++
    websocket 2 ++ application 2 ++ [.read 1 [], .sender .ok] ++ application 9 ++
    [.call .waitRecognitionResult] ++ application 6

/-- A recognition ends with its result, and the wait returns on the open connection. -/
def finishedRecognition : List Label :=
  firstRecognition 0 { uri := bytes "builtin:slm/general" } ++ configuredHandshake ++
    [resultMessage (bytes "{}")] ++ websocket 4 ++
    [.call .waitRecognitionResult] ++ application 5 ++ [.read 1 [], .sender .ok] ++ application 18

end AsrClient
