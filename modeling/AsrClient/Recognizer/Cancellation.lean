import AsrClient.Recognizer.Release

/-!
# Cancellation

A cancellation sends its request and joins the audio sender, and it tells the handlers
of the websocket thread nothing. A reply to one of the requests that start a recognition
is handled after it as before: it sends the next request, or starts a sender. The
cancellation holds as long as no such reply succeeds behind it.

The reply to a cancellation clears the stored results and the flag, whatever recognition
they belong to by then.
-/

namespace AsrClient

open Transitions SpeechRecognizer

/-- A request is for a method. -/
def isRequest (c : Method) (request : ASRMessageRequest) : Bool := request.startLine = firstLine c

/-- An entry with which a recognition goes on: its parameters, its start or its audio are
sent, or its audio sender is started. -/
def goesOn : Event → Bool
  | .sent _ request =>
      isRequest .setParameters request || isRequest .startRecognition request ||
        isRequest .sendAudio request
  | .senderStarted => true
  | _ => false

/-- A cancellation has returned, and no recognition has been accepted since. -/
def afterCancel : List Event → Bool
  | [] => false
  | .accepted :: _ => false
  | .returned .cancelRecognition _ :: _ => true
  | _ :: log => afterCancel log

/-- No recognition went on behind a cancellation. -/
def quiet : List Event → Bool
  | [] => true
  | event :: log => !(goesOn event && afterCancel log) && quiet log

/-- A statement of the websocket thread with which a recognition goes on. A start of the
sender does nothing without an audio source. -/
def WsStmt.goesOn (impl : Impl) : WsStmt → Bool
  | .configure => true
  | .setParameters => true
  | .startRecognition => true
  | .startSender => impl.audioSrc.isSome
  | _ => false

/-- A successful reply with which a recognition goes on. -/
def replyGoesOn (impl : Impl) (response : ASRMessageResponse) : Bool :=
  let value := response.getHeader ResponseHeader.method.getString
  ASRProcessResponse.succeeded response &&
    (value = getMethodString .createSession || value = getMethodString .setParameters ||
      (value = getMethodString .startRecognition && impl.audioSrc.isSome))

/-- No audio sender is running: there is none, or it has come to its end. -/
def senderIdle (system : System) : Bool :=
  match system.impl.sendAudioMessageThread with
  | none => true
  | some .finished => true
  | _ => false

/-- A payload decodes to a reply with which a recognition goes on. -/
def payloadGoesOn (impl : Impl) (payload : Bytes) : Bool :=
  match ASRMessageResponse.consume payload with
  | .ok response => replyGoesOn impl response
  | .error _ => false

/-- A cancellation returns only when no sender is running and no reply with which the
recognition goes on is being handled; and such a reply does not arrive between the return
and the next accepted recognition. -/
def Settled (system : System) : Label → Prop
  | .app _ => system.app.head? = some (.ret .cancelRecognition) →
      senderIdle system = true ∧ ∀ stmt ∈ system.ws, stmt.goesOn system.impl = false
  | .receive payload => afterCancel system.log = true → payloadGoesOn system.impl payload = false
  | _ => True

instance (system : System) (label : Label) : Decidable (Settled system label) :=
  match label with
  | .app _ => inferInstanceAs (Decidable (system.app.head? = some (.ret .cancelRecognition) →
      senderIdle system = true ∧ ∀ stmt ∈ system.ws, stmt.goesOn system.impl = false))
  | .receive payload => inferInstanceAs (Decidable (afterCancel system.log = true →
      payloadGoesOn system.impl payload = false))
  | .call _ => isTrue trivial
  | .timeout => isTrue trivial
  | .opened => isTrue trivial
  | .failed => isTrue trivial
  | .closed => isTrue trivial
  | .ws _ => isTrue trivial
  | .read _ _ => isTrue trivial
  | .sender _ => isTrue trivial

/-- A return is the last statement of its call. -/
def ReturnsLast : List AppStmt → Prop
  | [] => True
  | .ret _ :: rest => rest = []
  | _ :: rest => ReturnsLast rest

/-- Nothing of a new recognition is done before its acceptance. -/
def AcceptsFirst : List AppStmt → Prop
  | [] => True
  | .setRecognizing :: _ => True
  | .firstRequest :: _ => False
  | .startRecognition :: _ => False
  | .setAudioSrc _ :: _ => False
  | _ :: rest => AcceptsFirst rest

/-- Behind a cancellation the sender rests, the websocket thread has nothing to go on
with, and the application thread accepts before it does anything else. -/
structure Resting (system : System) : Prop where
  accepts : AcceptsFirst system.app
  sender : senderIdle system = true
  handlers : ∀ stmt ∈ system.ws, stmt.goesOn system.impl = false

/-- The invariant of a run whose cancellations are settled. -/
structure Cancels (system : System) : Prop where
  returns : ReturnsLast system.app
  rests : afterCancel system.log = true → Resting system
  quiet : quiet system.log = true

/-- Any statement of a list with its return at the end leaves such a list. -/
theorem ReturnsLast.tail {stmt : AppStmt} {rest : List AppStmt}
    (returns : ReturnsLast (stmt :: rest)) : ReturnsLast rest := by
  cases stmt with
  | ret call =>
    obtain rfl : rest = [] := returns
    trivial
  | _ => exact returns

/-- Inner statements may be put before such a list. -/
theorem ReturnsLast.append {new rest : List AppStmt} (returns : ReturnsLast rest)
    (inner : ∀ pushed ∈ new, pushed.isInterface = false) : ReturnsLast (new ++ rest) := by
  induction new with
  | nil => exact returns
  | cons stmt new inductionHypothesis =>
    obtain ⟨first, others⟩ := List.forall_mem_cons.mp inner
    have tail := inductionHypothesis others
    cases stmt <;> first | exact tail | exact absurd first (by simp [AppStmt.isInterface])

/-- A statement other than the acceptance leaves the acceptance first. -/
theorem AcceptsFirst.tail {stmt : AppStmt} {rest : List AppStmt}
    (accepts : AcceptsFirst (stmt :: rest)) (other : stmt ≠ .setRecognizing) :
    AcceptsFirst rest := by
  cases stmt <;> first | exact accepts | exact absurd rfl other | exact absurd accepts id

/-- Inner statements other than a start may be put before. -/
theorem AcceptsFirst.append {new rest : List AppStmt} (accepts : AcceptsFirst rest)
    (inner : ∀ pushed ∈ new, pushed.isInterface = false) (start : .startRecognition ∉ new) :
    AcceptsFirst (new ++ rest) := by
  induction new with
  | nil => exact accepts
  | cons stmt new inductionHypothesis =>
    obtain ⟨first, others⟩ := List.forall_mem_cons.mp inner
    rw [List.mem_cons, not_or] at start
    have tail := inductionHypothesis others start.2
    cases stmt <;>
      first
      | exact tail
      | exact absurd rfl start.1
      | exact absurd first (by simp [AppStmt.isInterface])

/-- A stored source changes only by a recognition, or with the implementation object. -/
theorem app_audio_src {outcome : Outcome} {system after : System} {stmt : AppStmt}
    (performed : execApp outcome system stmt = some after) :
    (∃ audioSrc, stmt = .setAudioSrc audioSrc) ∨ after.impl.audioSrc = system.impl.audioSrc ∨
      after.impl.audioSrc = none := by
  cases stmt <;> simp only [execApp, Option.some.injEq] at performed <;>
    (repeat' split at performed) <;> cases performed <;>
    first
    | exact Or.inr (Or.inl rfl)
    | exact Or.inl ⟨_, rfl⟩
    | exact Or.inr (Or.inr rfl)

/-- The application thread takes a sender away, and never brings one. -/
theorem app_sender_idle {outcome : Outcome} {system after : System} {stmt : AppStmt}
    (performed : execApp outcome system stmt = some after) (idle : senderIdle system = true) :
    senderIdle after = true := by
  cases stmt <;> simp only [execApp, Option.some.injEq] at performed <;>
    (repeat' split at performed) <;> cases performed <;>
    first
    | exact idle
    | rfl

/-- Statements that go on with nothing go on with nothing under another source only if
there is none. -/
theorem goes_on_same {impl other : Impl} {stmt : WsStmt} (still : stmt.goesOn impl = false)
    (source : other.audioSrc = impl.audioSrc ∨ other.audioSrc = none) :
    stmt.goesOn other = false := by
  cases stmt with
  | startSender =>
    cases source with
    | inl same =>
      simpa [WsStmt.goesOn, same] using still
    | inr gone =>
      simp [WsStmt.goesOn, gone]
  | _ => exact still

/-- A statement that goes on with nothing leads to such statements only. -/
theorem pushed_still {impl : Impl} {stmt pushed : WsStmt} (may : stmt.MayPush pushed)
    (still : stmt.goesOn impl = false) : pushed.goesOn impl = false := by
  cases stmt <;> cases pushed <;>
    first
    | rfl
    | exact absurd may id
    | exact absurd still.symm Bool.false_ne_true

/-- Entries other than an acceptance and the return of a cancellation leave it open whether
a cancellation has returned. -/
theorem after_cancel_cons (event : Event) (log : List Event)
    (behind : afterCancel (event :: log) = true)
    (other : ∀ value, event ≠ .returned .cancelRecognition value) : afterCancel log = true := by
  cases event with
  | accepted => exact absurd behind (by simp [afterCancel])
  | returned call value =>
    cases call <;> first | exact behind | exact absurd rfl (other value)
  | _ => exact behind

/-- The return of a cancellation is logged by the statement that returns. -/
theorem app_return {outcome : Outcome} {stmt : AppStmt} {value : List RecognitionResult}
    (logged : stmt.MayLog outcome (.returned .cancelRecognition value)) :
    stmt = .ret .cancelRecognition := by
  cases stmt <;> cases outcome <;> simp_all [AppStmt.MayLog]

/-- The application thread goes on with a recognition only by a start. -/
theorem app_goes_on {outcome : Outcome} {stmt : AppStmt} {event : Event}
    (logged : stmt.MayLog outcome event) (other : stmt ≠ .startRecognition) :
    goesOn event = false := by
  cases event with
  | sent thread request =>
    cases stmt <;> cases outcome <;> cases thread <;> simp_all [AppStmt.MayLog] <;> decide
  | senderStarted => cases stmt <;> cases outcome <;> simp_all [AppStmt.MayLog]
  | _ => rfl

/-- The websocket thread goes on with a recognition only by a statement that does. -/
theorem ws_goes_on (outcome : Outcome) (system : System) {stmt : WsStmt}
    (still : stmt.goesOn system.impl = false) :
    ((execWs outcome system stmt).log = system.log ∨
        ∃ listener callback,
          (execWs outcome system stmt).log = .notified listener callback :: system.log) ∧
      (execWs outcome system stmt).impl.audioSrc = system.impl.audioSrc ∧
      senderIdle (execWs outcome system stmt) = senderIdle system := by
  cases stmt with
  | configure | setParameters | startRecognition => exact absurd still (by simp [WsStmt.goesOn])
  | startSender =>
    have silent : system.impl.audioSrc.isNone = true := by
      simpa [WsStmt.goesOn] using still
    simp [execWs, silent]
  | notifyListener listener callback => exact ⟨Or.inr ⟨_, _, rfl⟩, rfl, rfl⟩
  | notifyStored listener place =>
    simp only [execWs]
    split
    · exact ⟨Or.inl rfl, rfl, rfl⟩
    · exact ⟨Or.inr ⟨_, _, rfl⟩, rfl, rfl⟩
  | _ => exact ⟨Or.inl rfl, rfl, rfl⟩

/-- A message is handled without going on, unless it is a reply with which a recognition
does. -/
theorem message_still (parse : Bytes → Json) (impl : Impl) (response : ASRMessageResponse)
    (still : replyGoesOn impl response = false) :
    ∀ stmt ∈ ASRProcessMsg.handle parse response, stmt.goesOn impl = false := by
  intro stmt member
  simp only [replyGoesOn] at still
  cases ASRProcessMsg.handle_performs parse response stmt member with
  | configure kind method success =>
    rw [ASRProcessResponse.RepliesTo] at method
    simp [success, method] at still
  | startRecognition kind method success =>
    rw [ASRProcessResponse.RepliesTo] at method
    simp [success, method] at still
  | startSender kind method success =>
    rw [ASRProcessResponse.RepliesTo] at method
    simp only [success, method, Bool.true_and, decide_true, Bool.or_eq_false_iff] at still
    simpa [WsStmt.goesOn] using still.2
  | _ => rfl

/-- The handlers of the connection do not go on with a recognition. -/
theorem event_still (impl : Impl) {label : Label} {stmts : List WsStmt}
    (connection : ConnectionEvent label stmts) : ∀ stmt ∈ stmts, stmt.goesOn impl = false := by
  cases connection <;> simp [WsStmt.goesOn]

/-- An entry that is no going on keeps the log quiet. -/
theorem quiet_cons {event : Event} {log : List Event} (still : goesOn event = false)
    (former : quiet log = true) : quiet (event :: log) = true := by
  simp [quiet, still, former]

/-- Without a cancellation behind it, any entry keeps the log quiet. -/
theorem quiet_early {event : Event} {log : List Event} (early : afterCancel log = false)
    (former : quiet log = true) : quiet (event :: log) = true := by
  simp [quiet, early, former]

section Entries

variable {before after : List Event} {may : Event → Prop}
  (entry : after = before ∨ ∃ event, after = event :: before ∧ may event)

include entry

/-- A step that may not log the return of a cancellation is behind one only if the log was. -/
theorem after_cancel_entry (other : ∀ value, ¬ may (.returned .cancelRecognition value))
    (returned : afterCancel after = true) : afterCancel before = true := by
  rcases entry with same | ⟨event, logged, mayLog⟩
  · rwa [same] at returned
  · rw [logged] at returned
    apply after_cancel_cons event _ returned
    rintro value rfl
    exact other value mayLog

/-- Without a cancellation behind it, a step keeps the log quiet. -/
theorem quiet_entry (early : afterCancel before = false) (former : quiet before = true) :
    quiet after = true := by
  rcases entry with same | ⟨event, logged, -⟩
  · rwa [same]
  · rw [logged]
    exact quiet_early early former

end Entries

/-- An idle sender makes no step. -/
theorem sender_idle_stuck {system after : System} (idle : senderIdle system = true)
    (outcome : Outcome) (ret : Int) (chunk : Bytes) :
    execSender outcome system ≠ some after ∧ execRead ret chunk system ≠ some after := by
  unfold senderIdle at idle
  split at idle
  · rename_i none
    simp [execSender, execRead, none]
  · rename_i finished
    simp [execSender, execRead, finished]
  · exact absurd idle (by simp)

/-- The statements of the public functions: a recognition accepts first, and the others
have nothing to accept. -/
theorem program_accepts (call : Call) :
    ReturnsLast (program call) ∧ AcceptsFirst (program call) := by
  cases call <;> simp [program, recognize, waitRecognitionResult, cancelRecognition, close,
    ReturnsLast, AcceptsFirst]

/-- A statement of the application thread keeps the cancellations settled. -/
theorem app_cancels (outcome : Outcome) (before after : System) (stmt : AppStmt)
    (rest : List AppStmt) (next : before.app = stmt :: rest) (cancels : Cancels before)
    (allowed : Settled before (.app outcome))
    (performed : execApp outcome { before with app := rest } stmt = some after) :
    Cancels after := by
  have returns : ReturnsLast after.app := by
    rcases app_list performed with empty | ⟨new, list, expands⟩
    · rw [empty]
      trivial
    · rw [list]
      exact (ReturnsLast.tail (next ▸ cancels.returns)).append (expands_inner expands).1
  have list : ReturnsLast (stmt :: rest) := next ▸ cancels.returns
  by_cases ends : stmt = .ret .cancelRecognition
  · -- The return of a cancellation: the condition says that everything rests.
    subst ends
    obtain rfl : rest = [] := list
    obtain ⟨idle, still⟩ := allowed (by simp [next])
    cases performed
    exact ⟨trivial, fun _ => ⟨trivial, idle, still⟩, quiet_cons rfl cancels.quiet⟩
  have entry := app_log performed
  -- Behind a former cancellation, the application thread still has to accept.
  have accepting (behind : afterCancel before.log = true) : AcceptsFirst (stmt :: rest) :=
    next ▸ (cancels.rests behind).accepts
  refine ⟨returns, fun returned => ?_, ?_⟩
  · have behind : afterCancel before.log = true :=
      after_cancel_entry entry (fun _ mayLog => ends (app_return mayLog)) returned
    have resting := cancels.rests behind
    have accepts := accepting behind
    have still : stmt ≠ .setRecognizing := by
      rintro rfl
      cases performed
      exact absurd returned (by simp [System.record, afterCancel])
    have first : stmt ≠ .firstRequest := by
      rintro rfl
      exact accepts
    refine ⟨?_, app_sender_idle performed resting.sender,
      fun pending member => ?_⟩
    · rcases app_list performed with empty | ⟨new, shape, expands⟩
      · rw [empty]
        trivial
      · rw [shape]
        exact (accepts.tail still).append (expands_inner expands).1
          fun start => first ((expands_inner expands).2 start)
    · rw [app_ws performed] at member
      refine goes_on_same (resting.handlers pending member) ?_
      rcases app_audio_src performed with ⟨audioSrc, rfl⟩ | source
      · exact absurd accepts id
      · exact source
  · rcases entry with same | ⟨event, logged, mayLog⟩
    · rw [same]
      exact cancels.quiet
    · rw [logged]
      by_cases start : stmt = .startRecognition
      · subst start
        exact quiet_early (Bool.eq_false_iff.mpr fun behind => accepting behind) cancels.quiet
      · exact quiet_cons (app_goes_on mayLog start) cancels.quiet

/-- A statement of the websocket thread keeps the cancellations settled. -/
theorem ws_cancels (outcome : Outcome) (before : System) (stmt : WsStmt) (rest : List WsStmt)
    (next : before.ws = stmt :: rest) (cancels : Cancels before) :
    Cancels (execWs outcome { before with ws := rest } stmt) := by
  have list : (execWs outcome { before with ws := rest } stmt).app = before.app := ws_app ..
  have entry := ws_log outcome { before with ws := rest } stmt
  -- Behind a cancellation, the statement is one that goes on with nothing.
  have still (behind : afterCancel before.log = true) : stmt.goesOn before.impl = false :=
    (cancels.rests behind).handlers stmt (by simp [next])
  refine ⟨by rw [list]; exact cancels.returns, fun returned => ?_, ?_⟩
  · have behind : afterCancel before.log = true :=
      after_cancel_entry entry (fun _ mayLog => absurd mayLog.background Bool.false_ne_true) returned
    have resting := cancels.rests behind
    obtain ⟨-, source, idle⟩ := ws_goes_on outcome { before with ws := rest } (still behind)
    refine ⟨by rw [list]; exact resting.accepts, idle.trans resting.sender, fun other member => ?_⟩
    obtain ⟨new, shape, pushed⟩ := ws_list outcome { before with ws := rest } stmt
    rw [shape, List.mem_append] at member
    apply goes_on_same _ (Or.inl source)
    cases member with
    | inl put =>
      exact pushed_still (pushed other put) (still behind)
    | inr left =>
      exact resting.handlers other (by simp [next, left])
  · cases behind : afterCancel before.log with
    | true =>
      obtain ⟨same | ⟨listener, callback, logged⟩, -, -⟩ :=
        ws_goes_on outcome { before with ws := rest } (still behind)
      · rw [same]
        exact cancels.quiet
      · rw [logged]
        exact quiet_cons rfl cancels.quiet
    | false => exact quiet_entry entry behind cancels.quiet

/-- A step of the sender keeps the cancellations settled: behind a cancellation it makes none. -/
theorem sender_cancels (outcome : Outcome) (before after : System) (cancels : Cancels before)
    (performed : execSender outcome before = some after) : Cancels after := by
  have frame := (sender_frame outcome before after performed).1
  have early : afterCancel before.log = false := by
    rw [Bool.eq_false_iff]
    intro behind
    exact (sender_idle_stuck (cancels.rests behind).sender outcome 0 []).1 performed
  have entry : after.log = before.log ∨
      ∃ event, after.log = event :: before.log ∧
        ∀ value, event ≠ .returned .cancelRecognition value :=
    sender_logs performed (by simp) (by simp)
  refine ⟨frame.app ▸ cancels.returns, fun returned => ?_, quiet_entry entry early cancels.quiet⟩
  have behind := after_cancel_entry entry (fun value other => other value rfl) returned
  exact absurd (behind.symm.trans early) (by decide)

/-- Every settled step keeps the cancellations settled. -/
theorem cancels_step (parse : Bytes → Json) (before after : System) (label : Label)
    (cancels : Cancels before) (allowed : Settled before label)
    (moved : step parse before label = some after) : Cancels after := by
  obtain ⟨-, moves⟩ := step_moves parse before after label moved
  -- A step that logs an entry and leaves the threads alone.
  have logs {system : System} (event : Event) (same : system.log = event :: before.log)
      (still : goesOn event = false) (other : ∀ value, event ≠ .returned .cancelRecognition value)
      (returns : ReturnsLast system.app)
      (rests : afterCancel before.log = true → Resting system) : Cancels system := by
    refine ⟨returns, fun behind => rests ?_, ?_⟩
    · exact after_cancel_cons event _ (same ▸ behind) other
    · rw [same]
      exact quiet_cons still cancels.quiet
  cases moves with
  | call call idle =>
    obtain ⟨returns, accepts⟩ := program_accepts call
    exact logs (.called call) rfl rfl (by simp) returns
      fun behind => ⟨accepts, (cancels.rests behind).sender, (cancels.rests behind).handlers⟩
  | app outcome stmt rest _ next performed =>
    exact app_cancels outcome before after stmt rest next cancels allowed performed
  | gaveUp rest exception asleep free =>
    exact logs (.threw exception) rfl rfl (by simp) trivial
      fun behind => ⟨trivial, (cancels.rests behind).sender, (cancels.rests behind).handlers⟩
  | expired condition rest asleep free met =>
    constructor
    · exact ReturnsLast.tail (asleep ▸ cancels.returns)
    · intro behind
      have resting := cancels.rests behind
      exact ⟨AcceptsFirst.tail (asleep ▸ resting.accepts) (by simp), resting.sender,
        resting.handlers⟩
    · exact cancels.quiet
  | rejected payload cause other free =>
    exact ⟨cancels.returns, fun behind => ⟨(cancels.rests behind).accepts,
      (cancels.rests behind).sender, (cancels.rests behind).handlers⟩, cancels.quiet⟩
  | received payload response decoded free =>
    refine logs (.received response) rfl rfl (by simp) cancels.returns fun behind => ?_
    have still : payloadGoesOn before.impl payload = false := allowed behind
    rw [payloadGoesOn, decoded] at still
    exact ⟨(cancels.rests behind).accepts, (cancels.rests behind).sender,
      message_still parse before.impl response still⟩
  | event label stmts connection free =>
    exact ⟨cancels.returns, fun behind => ⟨(cancels.rests behind).accepts,
      (cancels.rests behind).sender, event_still before.impl connection⟩, cancels.quiet⟩
  | ws outcome stmt rest next =>
    exact ws_cancels outcome before stmt rest next cancels
  | read ret chunk _ performed =>
    obtain ⟨frame, log⟩ := read_frame ret chunk before after performed
    constructor
    · exact frame.app ▸ cancels.returns
    · intro behind
      have resting := cancels.rests (log ▸ behind)
      exact absurd performed (sender_idle_stuck resting.sender .ok ret chunk).2
    · exact log ▸ cancels.quiet
  | sender outcome _ performed =>
    exact sender_cancels outcome before after cancels performed

/-- A run whose cancellations are settled: behind none of them, until the next accepted
recognition, parameters, a start or audio are sent or a sender is started. -/
theorem settled_cancellation_quiet (parse : Bytes → Json) (properties : Properties)
    (labels : List Label) (system : System)
    (execution : Execution (step parse) Settled (System.create properties) labels system) :
    quiet system.log = true := by
  have cancels : Cancels system :=
    execution.invariant Cancels
      ⟨by simp [System.create, resetImpl, ReturnsLast], by simp [System.create, afterCancel], rfl⟩
      (fun before label after => cancels_step parse before after label)
  exact cancels.quiet

/-- The application cancels a recognition whose audio is being sent. -/
def cancelAndJoin : List Label :=
  [.call .cancelRecognition] ++ application 3 ++ [.read 1 [], .sender .ok] ++ application 4

/-- A cancellation behind the handshake is settled. -/
theorem cancelled_audio_quiet :
    ∃ system, Execution (step fun _ => .null) Settled (System.create { connectOnRecognize := true })
        (firstRecognition 0 { uri := bytes "builtin:slm/general" } ++ handshake ++
          cancelAndJoin ++ [reply .cancelRecognition "SUCCESS"] ++ websocket 2) system ∧
      afterCancel system.log = true ∧ quiet system.log = true := by
  obtain ⟨system, execution, check⟩ := exists_execution_of_run
    (step fun _ => .null) (Settled)
    (System.create { connectOnRecognize := true })
    (firstRecognition 0 { uri := bytes "builtin:slm/general" } ++ handshake ++
      cancelAndJoin ++ [reply .cancelRecognition "SUCCESS"] ++ websocket 2)
    (fun system => afterCancel system.log) (by decide +kernel)
  exact ⟨system, execution, check, settled_cancellation_quiet _ _ _ system execution⟩

/-- A cancellation before the reply to the session request is not: the reply starts the
recognition, and the reply to that starts the audio sender. -/
theorem cancelled_session_goes_on :
    ¬ ∀ (parse : Bytes → Json) (properties : Properties) (labels : List Label) (system : System),
      Execution (step parse) (fun _ _ => True) (System.create properties) labels system →
        quiet system.log = true := by
  intro always
  obtain ⟨system, execution, check⟩ := exists_execution_of_run
    (step fun _ => .null) (fun _ _ => True)
    (System.create { connectOnRecognize := true })
    (firstRecognition 0 { uri := bytes "builtin:slm/general" } ++
      [.call .cancelRecognition] ++ application 5 ++
      [reply .createSession "SUCCESS"] ++ websocket 2 ++
      [reply .cancelRecognition "INVALID_ACTION"] ++ websocket 2 ++
      [reply .startRecognition "SUCCESS"] ++ websocket 1)
    (fun system => !quiet system.log) (by decide +kernel)
  have isQuiet := always _ _ _ system execution
  exact absurd check (by simp [isQuiet])

end AsrClient
