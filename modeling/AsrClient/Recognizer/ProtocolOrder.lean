import AsrClient.Recognizer.Requests

/-!
# The order of the protocol

A server answers the requests for a session, for its parameters, for a recognition and
for a cancellation with one response each, in the order in which they were sent and with
any result, and it sends results only when it has accepted a recognition. Whatever else
it sends is left open.

Against such a server the requests of one connection are in order, however recognitions,
waits and cancellations are interleaved with the messages: the parameters are sent in an
accepted session, a recognition is started in a session that is accepted and configured,
and audio is sent for an accepted recognition. The client keeps no record of its
requests. That its flags are enough follows from the order of the answers: a reply that
a handler acts on answers a request that was in order.
-/

namespace AsrClient

open Transitions SpeechRecognizer

/-- The requests that the server answers. -/
def answered : List Method :=
  [.createSession, .setParameters, .startRecognition, .cancelRecognition]

/-- The answered method of a request. -/
def awaits (request : ASRMessageRequest) : Option Method := answered.find? (isRequest · request)

/-- The method that a response answers. -/
def answers (response : ASRMessageResponse) : Option Method :=
  if isResponse response then
    answered.find? (response.getHeader ResponseHeader.method.getString = getMethodString ·)
  else none

/-- The requests that have still to be answered, in the order in which they were sent. -/
def awaiting : List Event → List Method
  | [] => []
  | .sent _ request :: log => awaiting log ++ (awaits request).toList
  | .received response :: log =>
      if (answers response).isSome then (awaiting log).tail else awaiting log
  | _ :: log => awaiting log

/-- A successful response to a method was received. -/
def hasAccepted (c : Method) (log : List Event) : Bool := (received log).any (accepts c)

/-- What the server sends: answers in the order of the requests, and results when it has
accepted a recognition. -/
def served (log : List Event) (response : ASRMessageResponse) : Bool :=
  ((answers response).isNone || (awaiting log).head? = answers response) &&
    (!isResult response || hasAccepted .startRecognition log)

/-- The payload of a step is one that the server sends. -/
def serves (system : System) : Label → Bool
  | .receive payload =>
      match ASRMessageResponse.consume payload with
      | .ok response => served system.log response
      | .error _ => true
  | _ => true

/-- A step on one connection to such a server. -/
def Served (system : System) (label : Label) : Prop :=
  OneConnection system label ∧ serves system label = true

instance (system : System) (label : Label) : Decidable (Served system label) :=
  inferInstanceAs (Decidable (_ ∧ _))

/-- The session is accepted and, where there are parameters, so are they. -/
structure Ready (configured : Bool) (log : List Event) : Prop where
  session : hasAccepted .createSession log = true
  parameters : configured = true → hasAccepted .setParameters log = true

/-- What a request needs to come behind. -/
structure InOrder (configured : Bool) (request : ASRMessageRequest) (log : List Event) : Prop where
  parameters : isRequest .setParameters request = true → hasAccepted .createSession log = true
  start : isRequest .startRecognition request = true → Ready configured log
  audio : isRequest .sendAudio request = true → hasAccepted .startRecognition log = true

/-- Every request was sent behind what it needs. -/
def ProtocolOrder (configured : Bool) (log : List Event) : Prop :=
  ∀ thread request earlier, .sent thread request :: earlier <:+ log →
    InOrder configured request earlier

/-- What a statement of a handler needs to come behind. -/
def WsStmt.InOrder (configured : Bool) (log : List Event) : WsStmt → Prop
  | .configure => hasAccepted .createSession log = true
  | .setParameters => hasAccepted .createSession log = true
  | .startRecognition => Ready configured log
  | .startSender => hasAccepted .startRecognition log = true
  | .setSessionStatus _ => Ready configured log
  | _ => True

/-- The requests, those about to be sent, and the flags that decide on the next one are
in order. -/
structure Ordered (configured : Bool) (system : System) : Prop where
  order : ProtocolOrder configured system.log
  started : hasAccepted .startRecognition system.log = true → Ready configured system.log
  handlers : ∀ stmt ∈ system.ws, stmt.InOrder configured system.log
  application : .startRecognition ∈ system.app → Ready configured system.log
  session : system.impl.sessionStatus ≠ .kNone → Ready configured system.log
  sender : system.impl.sendAudioMessageThread.isSome = true →
    hasAccepted .startRecognition system.log = true

/-- What a statement of a handler answers to. -/
def WsStmt.Follows (response : ASRMessageResponse) : WsStmt → Prop
  | .configure => accepts .createSession response = true
  | .setParameters => False
  | .startRecognition => accepts .setParameters response = true
  | .startSender => accepts .startRecognition response = true
  | .setSessionStatus _ => isResult response = true
  | _ => True

/-- Of the results that the protocol has, the client takes SUCCESS for an acceptance. -/
theorem accepts_success (c : Method) (response : ASRMessageResponse)
    (known : response.getHeader ResponseHeader.result.getString ∈
      [bytes "SUCCESS", bytes "FAILURE", bytes "INVALID_ACTION"])
    (accepted : accepts c response = true) :
    response.getHeader ResponseHeader.result.getString = bytes "SUCCESS" := by
  have success := ((accepts_iff c response).mp accepted).2.2
  rw [ASRProcessResponse.succeeded] at success
  generalize response.getHeader ResponseHeader.result.getString = value at known success
  revert value
  decide

/-- The statements of a handler follow from its message. -/
theorem handler_follows (parse : Bytes → Json) (response : ASRMessageResponse) :
    ∀ stmt ∈ ASRProcessMsg.handle parse response, stmt.Follows response := by
  intro stmt member
  cases ASRProcessMsg.handle_performs parse response stmt member with
  | idle kind value => exact kind
  | configure kind method success => exact (accepts_iff _ response).mpr ⟨kind, method, success⟩
  | startRecognition kind method success =>
    exact (accepts_iff _ response).mpr ⟨kind, method, success⟩
  | startSender kind method success => exact (accepts_iff _ response).mpr ⟨kind, method, success⟩
  | _ => trivial

section Log

variable {configured : Bool} {log after : List Event}

/-- A received message adds what it accepts. -/
theorem has_accepted_received (c : Method) (response : ASRMessageResponse) :
    hasAccepted c (.received response :: log) = (accepts c response || hasAccepted c log) := rfl

/-- What was accepted stays accepted. -/
theorem hasAccepted.mono {c : Method} (accepted : hasAccepted c log = true)
    (earlier : log <:+ after) : hasAccepted c after = true := by
  obtain ⟨message, member, accepts⟩ := List.any_eq_true.mp accepted
  exact List.any_eq_true.mpr ⟨message, (earlier.filterMap _).subset member, accepts⟩

/-- What is ready stays ready. -/
theorem Ready.mono (ready : Ready configured log) (earlier : log <:+ after) :
    Ready configured after :=
  ⟨hasAccepted.mono ready.session earlier,
    fun present => hasAccepted.mono (ready.parameters present) earlier⟩

/-- A statement in order stays in order. -/
theorem WsStmt.InOrder.mono {stmt : WsStmt} (inOrder : stmt.InOrder configured log)
    (earlier : log <:+ after) : stmt.InOrder configured after := by
  cases stmt with
  | configure | setParameters | startSender => exact hasAccepted.mono inOrder earlier
  | startRecognition | setSessionStatus => exact Ready.mono inOrder earlier
  | _ => trivial

/-- A log goes on in order with an entry that is in order. -/
theorem ProtocolOrder.cons {event : Event} (order : ProtocolOrder configured log)
    (inOrder : ∀ thread request, event = .sent thread request → InOrder configured request log) :
    ProtocolOrder configured (event :: log) := by
  intro thread request earlier suffix
  cases List.suffix_cons_iff.mp suffix with
  | inl same =>
    obtain ⟨sent, rfl⟩ := List.cons.inj same
    exact inOrder thread request sent.symm
  | inr former =>
    exact order thread request earlier former

/-- A request that has still to be answered was sent. -/
theorem awaiting_sent {c : Method} (member : c ∈ awaiting log) :
    ∃ thread request earlier, .sent thread request :: earlier <:+ log ∧
      isRequest c request = true := by
  induction log with
  | nil => exact absurd member List.not_mem_nil
  | cons event log inductionHypothesis =>
    have later (former : c ∈ awaiting log) : ∃ thread request earlier,
        .sent thread request :: earlier <:+ event :: log ∧ isRequest c request = true := by
      obtain ⟨thread, request, earlier, suffix, isMethod⟩ := inductionHypothesis former
      exact ⟨thread, request, earlier, suffix.trans (List.suffix_cons ..), isMethod⟩
    cases event with
    | sent thread request =>
      rw [awaiting, List.mem_append, Option.mem_toList] at member
      cases member with
      | inl former =>
        exact later former
      | inr new =>
        have isMethod := List.find?_some new
        exact ⟨thread, request, log, List.suffix_rfl, isMethod⟩
    | received response =>
      rw [awaiting] at member
      split_ifs at member
      · exact later (List.mem_of_mem_tail member)
      · exact later member
    | _ => exact later member

/-- A response that the server sends answers a request that was sent. -/
theorem served_sent {c : Method} {response : ASRMessageResponse}
    (serves : served log response = true) (accepted : accepts c response = true)
    (isAnswered : c ∈ answered) :
    ∃ thread request earlier, .sent thread request :: earlier <:+ log ∧
      isRequest c request = true := by
  obtain ⟨kind, method, -⟩ := (accepts_iff c response).mp accepted
  have finds : ∀ c ∈ answered, answered.find? (getMethodString c = getMethodString ·) = some c := by
    decide
  have answersIt : answers response = some c := by
    rw [answers, if_pos kind, show response.getHeader _ = getMethodString c from method]
    exact finds c isAnswered
  rw [served, answersIt, Option.isNone_some, Bool.false_or, Bool.and_eq_true] at serves
  have head : (awaiting log).head? = some c := of_decide_eq_true serves.1
  exact awaiting_sent (List.mem_of_mem_head? head)

end Log

section Step

variable {parse : Bytes → Json} {properties : Properties} {configured : Bool}
  {before after : System}

/-- What is in order stays in order with a step that receives no message, when everything
that is new is in order. -/
theorem Ordered.continue (ordered : Ordered configured before)
    (continued : Continues before.log after.log)
    (order : ∀ thread request, after.log = .sent thread request :: before.log →
      InOrder configured request before.log)
    (handlers : ∀ stmt ∈ after.ws, stmt ∈ before.ws ∨ stmt.InOrder configured before.log)
    (application : .startRecognition ∈ after.app →
      .startRecognition ∈ before.app ∨ Ready configured before.log)
    (session : after.impl.sessionStatus = before.impl.sessionStatus ∨ Ready configured before.log)
    (sender : after.impl.sendAudioMessageThread.isSome = true →
      before.impl.sendAudioMessageThread.isSome = true ∨
        hasAccepted .startRecognition before.log = true) :
    Ordered configured after := by
  have suffix : before.log <:+ after.log := by
    rcases continued with same | ⟨event, logged, -⟩
    · exact same ▸ List.suffix_rfl
    · exact logged ▸ List.suffix_cons ..
  constructor
  · rcases continued with same | ⟨event, logged, -⟩
    · rw [same]
      exact ordered.order
    · rw [logged]
      exact ordered.order.cons fun thread request sent => order thread request (sent ▸ logged)
  · intro accepted
    rw [hasAccepted, continued.received] at accepted
    exact (ordered.started accepted).mono suffix
  · intro stmt member
    exact ((handlers stmt member).elim (ordered.handlers stmt) id).mono suffix
  · intro member
    exact ((application member).elim ordered.application id).mono suffix
  · intro known
    cases session with
    | inl same =>
      exact (ordered.session (same ▸ known)).mono suffix
    | inr ready =>
      exact ready.mono suffix
  · intro held
    exact hasAccepted.mono ((sender held).elim ordered.sender id) suffix

/-- The message of such a server is handled in order: it answers a request that was. -/
theorem Ordered.received (ordered : Ordered configured before) (response : ASRMessageResponse)
    (serves : served before.log response = true) :
    Ordered configured (({ before with ws := ASRProcessMsg.handle parse response } : System).record
      (.received response)) := by
  have suffix : before.log <:+ .received response :: before.log := List.suffix_cons ..
  have now {c : Method} (accepted : accepts c response = true) :
      hasAccepted c (.received response :: before.log) = true := by
    rw [has_accepted_received, accepted, Bool.true_or]
  -- What was sent was in order, and still is.
  have inOrder {c : Method} (accepted : accepts c response = true) (isAnswered : c ∈ answered) :
      ∃ thread request earlier, .sent thread request :: earlier <:+ before.log ∧
        isRequest c request = true ∧ InOrder configured request earlier ∧
        earlier <:+ .received response :: before.log := by
    obtain ⟨thread, request, earlier, sent, isMethod⟩ := served_sent serves accepted isAnswered
    exact ⟨thread, request, earlier, sent, isMethod, ordered.order thread request earlier sent,
      ((List.suffix_cons ..).trans sent).trans suffix⟩
  have started (accepted : accepts .startRecognition response = true) :
      Ready configured (.received response :: before.log) := by
    obtain ⟨thread, request, earlier, -, isStart, needs, former⟩ := inOrder accepted (by decide)
    exact (needs.start isStart).mono former
  constructor
  · exact ordered.order.cons fun thread request sent => absurd sent (by simp)
  · intro accepted
    cases Bool.or_eq_true_iff.mp accepted with
    | inl isNew =>
      exact started isNew
    | inr former =>
      exact (ordered.started former).mono suffix
  · intro stmt member
    have follows := handler_follows parse response stmt member
    cases stmt with
    | configure => exact now follows
    | setParameters => exact absurd follows id
    | startRecognition =>
      obtain ⟨thread, request, earlier, -, isSet, needs, former⟩ := inOrder follows (by decide)
      exact ⟨hasAccepted.mono (needs.parameters isSet) former, fun _ => now follows⟩
    | startSender => exact now follows
    | setSessionStatus status =>
      have isResult : isResult response = true := follows
      have accepted : hasAccepted .startRecognition before.log = true := by
        simpa [served, isResult] using (Bool.and_eq_true_iff.mp serves).2
      exact (ordered.started accepted).mono suffix
    | _ => trivial
  · exact fun member => (ordered.application member).mono suffix
  · exact fun known => (ordered.session known).mono suffix
  · exact fun held => hasAccepted.mono (ordered.sender held) suffix

/-- The application thread brings no audio sender. -/
theorem app_sender {outcome : Outcome} {stmt : AppStmt}
    (performed : execApp outcome before stmt = some after)
    (held : after.impl.sendAudioMessageThread.isSome = true) :
    before.impl.sendAudioMessageThread.isSome = true := by
  cases stmt <;> simp only [execApp, Option.some.injEq] at performed <;>
    (repeat' split at performed) <;> cases performed <;>
    first
    | exact held
    | exact absurd held Bool.false_ne_true

/-- One statement of the websocket thread brings an audio sender. -/
theorem ws_sender (outcome : Outcome) (system : System) (stmt : WsStmt)
    (other : stmt ≠ .startSender) :
    (execWs outcome system stmt).impl.sendAudioMessageThread =
      system.impl.sendAudioMessageThread := by
  cases stmt <;> simp only [execWs] <;> (repeat' split) <;>
    first
    | rfl
    | exact absurd rfl other

/-- A statement of the application thread keeps the order. -/
theorem Ordered.app (ordered : Ordered configured before) (same : SameImpl properties before)
    (outcome : Outcome) (stmt : AppStmt) (rest : List AppStmt) (next : before.app = stmt :: rest)
    (performed : execApp outcome { before with app := rest } stmt = some after) :
    Ordered configured after := by
  have later {stmt : AppStmt} (member : stmt ∈ rest) : stmt ∈ before.app :=
    next ▸ List.mem_cons_of_mem _ member
  refine ordered.continue (app_continues performed :) ?_ ?_ ?_ ?_ fun held => ?_
  · intro thread request sent
    rcases app_log performed with unchanged | ⟨event, logged, mayLog⟩
    · exact absurd (unchanged.symm.trans sent) (List.cons_ne_self _ _).symm
    · obtain ⟨rfl, -⟩ := List.cons.inj (logged.symm.trans sent)
      obtain ⟨c, method, start⟩ := app_sends mayLog
      constructor
      · intro isSet
        obtain rfl := (is_request_iff start).mp isSet
        cases stmt <;> cases method
      · intro isStart
        obtain rfl := (is_request_iff start).mp isStart
        cases stmt <;> cases method
        exact ordered.application (by simp [next])
      · intro isAudio
        obtain rfl := (is_request_iff start).mp isAudio
        cases stmt <;> cases method
  · intro pending member
    left
    rwa [app_ws performed] at member
  · intro member
    rcases app_asks performed member rfl with left | ⟨-, asked⟩
    · exact Or.inl (later left)
    · right
      split_ifs at asked with unknown
      exact ordered.session unknown
  · exact Or.inl (app_apart performed (same.keepsImpl stmt (by simp [next]))).1
  · exact Or.inl (app_sender performed held :)

/-- A statement of a handler keeps the order. -/
theorem Ordered.ws (ordered : Ordered properties.recogConfig.isSome before)
    (same : SameImpl properties before) (outcome : Outcome) (stmt : WsStmt) (rest : List WsStmt)
    (next : before.ws = stmt :: rest) :
    Ordered properties.recogConfig.isSome (execWs outcome { before with ws := rest } stmt) := by
  have inOrder := ordered.handlers stmt (by simp [next])
  have later {stmt : WsStmt} (member : stmt ∈ rest) : stmt ∈ before.ws :=
    next ▸ List.mem_cons_of_mem _ member
  refine ordered.continue (ws_continues outcome { before with ws := rest } stmt) ?_ ?_ ?_ ?_ ?_
  · intro thread request sent
    rcases ws_log outcome { before with ws := rest } stmt with unchanged | ⟨event, logged, mayLog⟩
    · exact absurd (unchanged.symm.trans sent) (List.cons_ne_self _ _).symm
    · obtain ⟨rfl, -⟩ := List.cons.inj (logged.symm.trans sent)
      obtain ⟨c, method, start⟩ := ws_sends mayLog
      constructor
      · intro isSet
        obtain rfl := (is_request_iff start).mp isSet
        cases stmt <;> cases method
        exact inOrder
      · intro isStart
        obtain rfl := (is_request_iff start).mp isStart
        cases stmt <;> cases method
        exact inOrder
      · intro isAudio
        obtain rfl := (is_request_iff start).mp isAudio
        cases stmt <;> cases method
  · intro pending member
    by_cases configures : stmt = .configure
    · subst configures
      simp only [execWs] at member
      split at member
      · rename_i none
        rcases List.mem_cons.mp member with rfl | left
        · -- Without parameters the session is all that a start needs.
          refine Or.inr ⟨inOrder, fun present => ?_⟩
          rw [← same.keepsConfig] at present
          simp [show before.impl.config = Option.none by simpa using none] at present
        · exact Or.inl (later left)
      · rcases List.mem_cons.mp member with rfl | left
        · exact Or.inr inOrder
        · exact Or.inl (later left)
    · obtain ⟨new, list, pushed⟩ := ws_list outcome { before with ws := rest } stmt
      rw [list, List.mem_append] at member
      cases member with
      | inl put =>
        right
        have may := pushed pending put
        cases stmt <;> cases pending <;> trivial
      | inr left =>
        exact Or.inl (later left)
  · intro member
    rw [ws_app] at member
    exact Or.inl member
  · by_cases sets : ∃ status, stmt = .setSessionStatus status
    · obtain ⟨status, rfl⟩ := sets
      exact Or.inr inOrder
    · exact Or.inl (ws_session outcome { before with ws := rest } stmt
        fun status isSet => sets ⟨status, isSet⟩)
  · intro held
    by_cases starts : stmt = .startSender
    · subst starts
      exact Or.inr inOrder
    · left
      rwa [ws_sender outcome { before with ws := rest } stmt starts] at held

/-- Every step on one connection to such a server keeps the order. -/
theorem Ordered.step {label : Label} (ordered : Ordered properties.recogConfig.isSome before)
    (same : SameImpl properties before) (allowed : Served before label)
    (moved : step parse before label = some after) :
    Ordered properties.recogConfig.isSome after := by
  obtain ⟨-, moves⟩ := step_moves parse before after label moved
  -- A step of the application thread, or of nobody, that only logs an entry.
  have quiet (continued : Continues before.log after.log) (ws : after.ws = before.ws)
      (silent : ∀ thread request, after.log ≠ .sent thread request :: before.log)
      (application : .startRecognition ∈ after.app → .startRecognition ∈ before.app)
      (session : after.impl.sessionStatus = before.impl.sessionStatus)
      (sender : after.impl.sendAudioMessageThread = before.impl.sendAudioMessageThread) :
      Ordered properties.recogConfig.isSome after := by
    refine ordered.continue continued ?_ ?_ (fun member => Or.inl (application member))
      (Or.inl session) (fun held => Or.inl (sender ▸ held))
    · exact fun thread request sent => absurd sent (silent thread request)
    · exact fun stmt member => Or.inl (ws ▸ member)
  have unchanged : ∀ thread request, before.log ≠ .sent thread request :: before.log :=
    fun thread request => (List.cons_ne_self _ _).symm
  cases moves with
  | call call idle =>
    refine quiet (Or.inr ⟨_, rfl, by simp⟩) rfl (by simp [System.record]) ?_ rfl rfl
    cases call <;> simp [System.record, program, recognize, waitRecognitionResult,
      cancelRecognition, close]
  | app outcome stmt rest _ next performed => exact ordered.app same outcome stmt rest next performed
  | gaveUp rest exception asleep free =>
    exact quiet (Or.inr ⟨_, rfl, by simp⟩) rfl (by simp [System.raise])
      (fun member => absurd member List.not_mem_nil) rfl rfl
  | expired condition rest asleep free met =>
    exact quiet (Or.inl rfl) rfl unchanged (fun member => asleep ▸ List.mem_cons_of_mem _ member)
      rfl rfl
  | rejected payload cause other free => exact quiet (Or.inl rfl) rfl unchanged id rfl rfl
  | received payload response decoded free =>
    have isServed : served before.log response = true := by
      simpa [serves, decoded] using allowed.2
    exact ordered.received response isServed
  | event label stmts connection free =>
    refine ordered.continue (Or.inl rfl) (fun _ _ sent => absurd sent (unchanged _ _)) ?_ Or.inl
      (Or.inl rfl) Or.inl
    cases connection <;> simp [WsStmt.InOrder]
  | ws outcome stmt rest next => exact ordered.ws same outcome stmt rest next
  | read ret chunk _ performed =>
    obtain ⟨frame, log⟩ := read_frame ret chunk before after performed
    refine ordered.continue (Or.inl log) ?_ ?_ ?_ (Or.inl (frame.keeps (·.sessionStatus))) ?_
    · exact fun thread request sent => absurd (log.symm.trans sent) (unchanged thread request)
    · exact fun stmt member => Or.inl (frame.ws ▸ member)
    · exact fun member => Or.inl (frame.app ▸ member)
    · exact fun held => Or.inl (frame.held ▸ held)
  | sender outcome _ performed =>
    obtain ⟨frame, log⟩ := sender_frame outcome before after performed
    refine ordered.continue (sender_continues performed) ?_ ?_ ?_ (Or.inl (frame.keeps (·.sessionStatus))) ?_
    · intro thread request sent
      rcases log with same | ⟨ret, buffer, position, ⟨-, logged⟩ | ⟨-, logged⟩⟩
      · exact absurd (same.symm.trans sent) (unchanged thread request)
      · obtain ⟨entry, -⟩ := List.cons.inj (logged.symm.trans sent)
        cases entry
        have start : (ASRSendMessage.sendAudio ret buffer).startLine = firstLine .sendAudio := rfl
        constructor
        · exact fun isSet => absurd ((is_request_iff start).mp isSet) (by decide)
        · exact fun isStart => absurd ((is_request_iff start).mp isStart) (by decide)
        · exact fun _ => ordered.sender (by rw [position]; rfl)
      · exact absurd (List.cons.inj (logged.symm.trans sent)).1 (by simp)
    · exact fun stmt member => Or.inl (frame.ws ▸ member)
    · exact fun member => Or.inl (frame.app ▸ member)
    · exact fun held => Or.inl (frame.held ▸ held)

/-- Nothing is out of order for a new object. -/
theorem Ordered.built (built : Built properties before) : Ordered configured before where
  order := by
    intro thread request earlier suffix
    simp [built.log] at suffix
  started := by simp [built.log, hasAccepted, AsrClient.received]
  handlers := by simp [built.ws]
  application := by simp [built.app]
  session := by simp [built.impl]
  sender := by simp [built.impl]

end Step

/-- In any run on one connection to a server that answers in order, every start of a
recognition is sent behind an accepted session and, where there is a configuration, behind
its accepted parameters, and all audio is sent behind an accepted recognition. -/
theorem requests_in_protocol_order (parse : Bytes → Json) (properties : Properties)
    (labels : List Label) (system : System)
    (execution : Execution (step parse) Served (System.create properties) labels system) :
    ProtocolOrder properties.recogConfig.isSome system.log := by
  have either := impl_invariant execution (fun _ _ allowed => allowed.1.1)
    (Ordered properties.recogConfig.isSome) (fun _ built => .built built)
    (fun _ _ _ same ordered allowed moved => ordered.step same allowed moved)
  rcases either with building | ⟨-, ordered⟩
  · intro thread request earlier suffix
    simp [building.silent] at suffix
  · exact ordered.order

/-- The start lines of the requests that were sent, latest first. -/
def startLines (log : List Event) : List Bytes :=
  log.filterMap fun
    | .sent _ request => some request.startLine
    | _ => none

/-- A configured recognition whose audio is being sent. -/
theorem configured_recognition_in_order :
    ∃ system, Execution (step fun _ => .null) Served
        (System.create { recogConfig := some {}, connectOnRecognize := true })
        (firstRecognition 0 { uri := bytes "builtin:slm/general" } ++ configuredHandshake ++
          [.read 2 (bytes "ab")] ++ List.replicate 4 (.sender .ok)) system ∧
      startLines system.log = [firstLine .sendAudio, firstLine .startRecognition,
        firstLine .setParameters, firstLine .createSession] ∧
      ProtocolOrder true system.log := by
  obtain ⟨system, execution, check⟩ := exists_execution_of_run (step fun _ => .null) Served
    (System.create { recogConfig := some {}, connectOnRecognize := true })
    (firstRecognition 0 { uri := bytes "builtin:slm/general" } ++ configuredHandshake ++
      [.read 2 (bytes "ab")] ++ List.replicate 4 (.sender .ok))
    (fun system => startLines system.log = [firstLine .sendAudio, firstLine .startRecognition,
      firstLine .setParameters, firstLine .createSession]) (by decide +kernel)
  exact ⟨system, execution, of_decide_eq_true check,
    requests_in_protocol_order _ _ _ system execution⟩

end AsrClient
