import AsrClient.Recognizer.Frames

/-!
# One implementation object

The constructor of a recognizer builds its implementation object in a few steps and then
connects, unless that is deferred. The object stays until a wait resets it. As long as no
wait does, its configuration and its listeners are those of the properties, and nothing
is built again.

What is kept by every step of a recognizer that keeps its object therefore holds in
every state that such a recognizer reaches, once it holds of a new object.
-/

namespace AsrClient

open Transitions SpeechRecognizer

/-- A recognizer under construction, up to the statement that moves the listeners. -/
inductive Building (properties : Properties) : System → Prop where
  | created : Building properties (System.create properties)
  | closed : Building properties { System.create properties with
      app := [.freshImpl, .moveConfig, .moveListener, .connectUnlessDeferred, .constructed] }
  | fresh : Building properties { System.create properties with
      app := [.moveConfig, .moveListener, .connectUnlessDeferred, .constructed] }
  | configured : Building properties { System.create properties with
      app := [.moveListener, .connectUnlessDeferred, .constructed]
      impl := { config := properties.recogConfig }
      properties := { properties with recogConfig := none } }

/-- A recognizer whose object has just been built. -/
structure Built (properties : Properties) (system : System) : Prop where
  log : system.log = []
  ws : system.ws = []
  impl : system.impl = { config := properties.recogConfig, listener := properties.listener }
  app : system.app = [.connectUnlessDeferred, .constructed]

/-- The callback reports an error. -/
def Callback.isError : Callback → Bool
  | .onError _ => true
  | _ => false

/-- Statements that build no implementation object and tell the listeners of errors only. -/
def AppStmt.ordinary : AppStmt → Bool
  | .freshImpl => false
  | .moveConfig => false
  | .moveListener => false
  | .notifyListener _ callback => callback.isError
  | _ => true

/-- A wait builds a new object, in the place of an open one that closes automatically. -/
def resets (system : System) : Label → Bool
  | .app _ => system.app.head? = some .resetIfAutoClose &&
      (system.properties.autoClose && system.impl.isOpen)
  | _ => false

/-- The step keeps the implementation object. -/
def KeepsImpl (system : System) (label : Label) : Prop := resets system label = false

instance (system : System) (label : Label) : Decidable (KeepsImpl system label) :=
  inferInstanceAs (Decidable (_ = _))

/-- The object is the one that was built from the properties, and the application thread
does nothing else than the public functions do with it. -/
structure SameImpl (properties : Properties) (system : System) : Prop where
  keepsConfig : system.impl.config = properties.recogConfig
  keepsListener : system.impl.listener = properties.listener
  keepsImpl : ∀ stmt ∈ system.app, stmt.ordinary = true

/-- The messages that were received, latest first. -/
def received (log : List Event) : List ASRMessageResponse :=
  log.filterMap fun
    | .received response => some response
    | _ => none

/-- An entry of another thread than that of the websocket, as far as the messages and the
listeners are concerned. -/
def Event.isApart : Event → Bool
  | .received _ => false
  | .notified _ callback => callback.isError
  | _ => true

/-- A step of another thread than that of the websocket: the session stays, and the stored
results stay or are taken away. -/
structure Apart (before after : System) : Prop where
  ws : after.ws = before.ws
  sessionStatus : after.impl.sessionStatus = before.impl.sessionStatus
  result : after.impl.result = before.impl.result ∨ after.impl.result = []
  log : after.log = before.log ∨ ∃ event, after.log = event :: before.log ∧ event.isApart = true

/-- The application empties the list of stored results. -/
def empties (system : System) : Label → Bool
  | .app _ => system.app.head? = some .clearResult
  | _ => false

/-- The kinds of steps, as the websocket thread sees them. -/
inductive Turn (parse : Bytes → Json) (before : System) : Label → System → Prop where
  | apart (label : Label) (after : System) (apart : Apart before after)
      (kept : empties before label = false → after.impl.result = before.impl.result) :
      Turn parse before label after
  | received (payload : Bytes) (response : ASRMessageResponse) (free : before.ws = [])
      (decoded : ASRMessageResponse.consume payload = .ok response) :
      Turn parse before (.receive payload)
        (({ before with ws := ASRProcessMsg.handle parse response } : System).record
          (.received response))
  | event (label : Label) (stmts : List WsStmt) (connection : ConnectionEvent label stmts)
      (free : before.ws = []) : Turn parse before label { before with ws := stmts }
  | ws (outcome : Outcome) (stmt : WsStmt) (rest : List WsStmt) (next : before.ws = stmt :: rest) :
      Turn parse before (.ws outcome) (execWs outcome { before with ws := rest } stmt)

variable {parse : Bytes → Json} {properties : Properties} {before after : System}

/-- Nothing has happened to a recognizer under construction. -/
theorem Building.silent (building : Building properties before) : before.log = [] := by
  cases building <;> rfl

/-- While the object is built nothing else happens, and its last statement ends it. -/
theorem Building.step {label : Label} (building : Building properties before)
    (moved : step parse before label = some after) :
    Building properties after ∨ Built properties after := by
  obtain ⟨-, moves⟩ := step_moves parse before after label moved
  have quiet : before.ws = [] ∧ before.impl.thread = false ∧
      before.impl.sendAudioMessageThread = none ∧ before.app.length > 2 := by
    cases building <;> simp [System.create, resetImpl]
  obtain ⟨free, deaf, silent, busy⟩ := quiet
  cases moves with
  | call call idle => simp [idle] at busy
  | app outcome stmt rest _ next performed =>
    cases building with
    | created =>
      obtain ⟨rfl, rfl⟩ := List.cons.inj next
      cases performed
      exact Or.inl .closed
    | closed =>
      obtain ⟨rfl, rfl⟩ := List.cons.inj next
      cases performed
      exact Or.inl .fresh
    | fresh =>
      obtain ⟨rfl, rfl⟩ := List.cons.inj next
      cases performed
      exact Or.inl .configured
    | configured =>
      obtain ⟨rfl, rfl⟩ := List.cons.inj next
      right
      simp only [execApp] at performed
      split_ifs at performed with none
      · cases performed
        exact ⟨rfl, rfl, by simp [show properties.listener = [] from none], rfl⟩
      · cases performed
        exact ⟨rfl, rfl, rfl, rfl⟩
  | gaveUp rest exception asleep _ =>
    cases building <;> simp [System.create, resetImpl] at asleep
  | expired condition rest asleep _ met =>
    cases building <;> simp [System.create, resetImpl] at asleep
  | rejected payload cause other _ listening => simp [deaf] at listening
  | received payload response decoded _ listening => simp [deaf] at listening
  | event label stmts connection _ listening => simp [deaf] at listening
  | ws outcome stmt rest next => simp [free] at next
  | read ret chunk _ performed => simp [execRead, silent] at performed
  | sender outcome _ performed => simp [execSender, silent] at performed

/-- A statement that builds no object leaves its configuration and its listeners alone. -/
theorem app_same_impl {outcome : Outcome} {stmt : AppStmt}
    (performed : execApp outcome before stmt = some after) (ordinary : stmt.ordinary = true) :
    after.impl.config = before.impl.config ∧ after.impl.listener = before.impl.listener := by
  cases stmt <;> simp only [execApp, Option.some.injEq] at performed <;>
    (repeat' split at performed) <;> cases performed <;>
    first
    | exact ⟨rfl, rfl⟩
    | exact absurd ordinary (by simp [AppStmt.ordinary])

/-- A handler leaves the configuration and the listeners alone. -/
theorem ws_keeps (outcome : Outcome) (system : System) (stmt : WsStmt) :
    (execWs outcome system stmt).impl.config = system.impl.config ∧
      (execWs outcome system stmt).impl.listener = system.impl.listener := by
  cases stmt <;> simp only [execWs] <;> (repeat' split) <;> exact ⟨rfl, rfl⟩

/-- Such a statement tells the listeners of errors only. -/
theorem ordinary_log {outcome : Outcome} {stmt : AppStmt} {listener : Listener}
    {callback : Callback} (logged : stmt.MayLog outcome (.notified listener callback))
    (ordinary : stmt.ordinary = true) : callback.isError = true := by
  cases stmt with
  | notifyListener other callback' =>
    obtain ⟨-, rfl⟩ : listener = other ∧ callback = callback' := by cases outcome <;> exact logged
    exact ordinary
  | _ => cases outcome <;> exact absurd logged id

/-- Only a reset puts other statements before the rest. -/
theorem expands_keeps {stmt : AppStmt} {new : List AppStmt} (expands : stmt.Expands new)
    (other : stmt ≠ .resetIfAutoClose) : ∀ pushed ∈ new, pushed.ordinary = true := by
  refine expands_all expands (fun _ _ => rfl) (fun _ => rfl) ?_
  cases stmt with
  | resetIfAutoClose => exact absurd rfl other
  | _ =>
    first
    | exact List.forall_mem_nil _
    | exact List.forall_mem_singleton.mpr rfl
    | decide

/-- The application thread comes to such statements only, unless it resets the object. -/
theorem app_keeps_impl {outcome : Outcome} {stmt : AppStmt} {rest : List AppStmt}
    (next : before.app = stmt :: rest) (keeps : ∀ stmt ∈ before.app, stmt.ordinary = true)
    (allowed : KeepsImpl before (.app outcome))
    (performed : execApp outcome { before with app := rest } stmt = some after) :
    ∀ stmt ∈ after.app, stmt.ordinary = true := by
  rw [next, List.forall_mem_cons] at keeps
  rcases app_list performed with empty | ⟨new, list, expands⟩
  · simp [empty]
  · rw [list, List.forall_mem_append]
    refine ⟨?_, keeps.2⟩
    by_cases reset : stmt = .resetIfAutoClose
    · subst reset
      have closed : (before.properties.autoClose && before.impl.isOpen) = false := by
        simpa [KeepsImpl, resets, next] using allowed
      simp only [execApp, closed, Bool.false_eq_true, if_false] at performed
      cases performed
      obtain rfl : new = [] := by simpa using list
      simp
    · exact expands_keeps expands reset

/-- A statement that builds no object leaves the session, and leaves the results or takes
them away. -/
theorem app_apart {outcome : Outcome} {stmt : AppStmt}
    (performed : execApp outcome before stmt = some after) (ordinary : stmt.ordinary = true) :
    after.impl.sessionStatus = before.impl.sessionStatus ∧
      (after.impl.result = before.impl.result ∨ stmt = .clearResult ∧ after.impl.result = []) := by
  cases stmt <;> simp only [execApp, Option.some.injEq] at performed <;>
    (repeat' split at performed) <;> cases performed <;>
    first
    | exact ⟨rfl, Or.inl rfl⟩
    | exact ⟨rfl, Or.inr ⟨rfl, rfl⟩⟩
    | exact absurd ordinary (by simp [AppStmt.ordinary])

/-- The entries of such a statement. -/
theorem app_is_apart {outcome : Outcome} {stmt : AppStmt} {event : Event}
    (logged : stmt.MayLog outcome event) (ordinary : stmt.ordinary = true) :
    event.isApart = true := by
  cases event with
  | received response => cases stmt <;> cases outcome <;> exact absurd logged id
  | notified listener callback => exact ordinary_log logged ordinary
  | _ => rfl

/-- Every step on the object is of one of these kinds. -/
theorem SameImpl.turn {label : Label} (same : SameImpl properties before)
    (moved : step parse before label = some after) : Turn parse before label after := by
  obtain ⟨-, moves⟩ := step_moves parse before after label moved
  cases moves with
  | call call idle => exact .apart _ _ ⟨rfl, rfl, Or.inl rfl, Or.inr ⟨_, rfl, rfl⟩⟩ fun _ => rfl
  | app outcome stmt rest _ next performed =>
    have ordinary := same.keepsImpl stmt (by simp [next])
    obtain ⟨sessionStatus, result⟩ := app_apart performed ordinary
    refine .apart _ _ ⟨(app_ws performed :), sessionStatus, result.imp_right And.right, ?_⟩ ?_
    · refine (app_log performed).imp_right ?_
      rintro ⟨event, logged, mayLog⟩
      exact ⟨event, logged, app_is_apart mayLog ordinary⟩
    · intro kept
      refine result.resolve_right ?_
      rintro ⟨rfl, -⟩
      simp [empties, next] at kept
  | gaveUp rest exception asleep free =>
    exact .apart _ _ ⟨rfl, rfl, Or.inl rfl, Or.inr ⟨_, rfl, rfl⟩⟩ fun _ => rfl
  | expired condition rest asleep free met =>
    exact .apart _ _ ⟨rfl, rfl, Or.inl rfl, Or.inl rfl⟩ fun _ => rfl
  | rejected payload cause other free =>
    exact .apart _ _ ⟨rfl, rfl, Or.inl rfl, Or.inl rfl⟩ fun _ => rfl
  | received payload response decoded free => exact .received payload response free decoded
  | event label stmts connection free => exact .event label stmts connection free
  | ws outcome stmt rest next => exact .ws outcome stmt rest next
  | read ret chunk _ performed =>
    obtain ⟨frame, log⟩ := read_frame ret chunk before after performed
    have result := frame.keeps (·.result)
    exact .apart _ _ ⟨frame.ws, frame.keeps (·.sessionStatus), Or.inl result, Or.inl log⟩
      fun _ => result
  | sender outcome _ performed =>
    have frame := (sender_frame outcome before after performed).1
    have result := frame.keeps (·.result)
    exact .apart _ _ ⟨frame.ws, frame.keeps (·.sessionStatus), Or.inl result,
      sender_logs performed (fun _ _ => rfl) fun _ _ => rfl⟩ fun _ => result

/-- A new object is the one built from the properties. -/
theorem SameImpl.built (built : Built properties before) : SameImpl properties before where
  keepsConfig := by rw [built.impl]
  keepsListener := by rw [built.impl]
  keepsImpl := by simp [built.app, AppStmt.ordinary, Callback.isError]

/-- Every step that keeps the object does so. -/
theorem SameImpl.step {label : Label} (same : SameImpl properties before)
    (allowed : KeepsImpl before label) (moved : step parse before label = some after) :
    SameImpl properties after := by
  obtain ⟨-, moves⟩ := step_moves parse before after label moved
  have frame (impl : after.impl.config = before.impl.config ∧
      after.impl.listener = before.impl.listener)
      (keepsImpl : ∀ stmt ∈ after.app, stmt.ordinary = true) : SameImpl properties after :=
    ⟨impl.1.trans same.keepsConfig, impl.2.trans same.keepsListener, keepsImpl⟩
  cases moves with
  | call call idle =>
    refine frame ⟨rfl, rfl⟩ ?_
    cases call <;> simp [System.record, program, recognize, waitRecognitionResult,
      cancelRecognition, close, AppStmt.ordinary, Callback.isError]
  | app outcome stmt rest _ next performed =>
    have impl := app_same_impl performed (same.keepsImpl stmt (by simp [next]))
    exact frame impl (app_keeps_impl next same.keepsImpl allowed performed)
  | gaveUp rest exception asleep free => exact frame ⟨rfl, rfl⟩ (by simp [System.raise])
  | expired condition rest asleep free met =>
    exact frame ⟨rfl, rfl⟩ fun stmt member =>
      same.keepsImpl stmt (asleep ▸ List.mem_cons_of_mem _ member)
  | rejected payload cause other free => exact frame ⟨rfl, rfl⟩ same.keepsImpl
  | received payload response decoded free => exact frame ⟨rfl, rfl⟩ same.keepsImpl
  | event label stmts connection free => exact frame ⟨rfl, rfl⟩ same.keepsImpl
  | ws outcome stmt rest next =>
    refine frame (ws_keeps outcome { before with ws := rest } stmt) ?_
    rw [ws_app]
    exact same.keepsImpl
  | read ret chunk _ performed =>
    obtain ⟨senderFrame, -⟩ := read_frame ret chunk before after performed
    refine frame ⟨senderFrame.keeps (·.config), senderFrame.keeps (·.listener)⟩ ?_
    rw [senderFrame.app]
    exact same.keepsImpl
  | sender outcome _ performed =>
    obtain ⟨senderFrame, -⟩ := sender_frame outcome before after performed
    refine frame ⟨senderFrame.keeps (·.config), senderFrame.keeps (·.listener)⟩ ?_
    rw [senderFrame.app]
    exact same.keepsImpl

/-- The messages stay with every step that logs none. -/
theorem Continues.received {log next : List Event} (continued : Continues log next) :
    received next = received log := by
  rcases continued with rfl | ⟨event, rfl, other⟩
  · rfl
  · cases event <;> first | rfl | exact absurd rfl (other _)

/-- A step of another thread logs no message. -/
theorem Apart.continues (apart : Apart before after) : Continues before.log after.log := by
  refine apart.log.imp_right ?_
  rintro ⟨event, logged, isApart⟩
  exact ⟨event, logged, by rintro response rfl; exact absurd isApart Bool.false_ne_true⟩

/-- A step of another thread tells the listeners of errors only. -/
theorem Apart.notified (apart : Apart before after) {listener : Listener} {callback : Callback}
    (other : callback.isError = false) :
    .notified listener callback ∈ after.log ↔ .notified listener callback ∈ before.log := by
  rcases apart.log with same | ⟨event, logged, isApart⟩
  · rw [same]
  · rw [logged, List.mem_cons, or_iff_right]
    rintro rfl
    exact absurd (isApart.symm.trans other) (by decide)

/-- The rule of invariants for one object: what holds of a new object, and is kept by
every step on the same object, holds wherever a recognizer gets that keeps its object,
once its construction is over. -/
theorem impl_invariant {condition : System → Label → Prop} {labels : List Label}
    {system : System}
    (execution : Execution (step parse) condition (System.create properties) labels system)
    (keeps : ∀ before label, condition before label → KeepsImpl before label)
    (holds : System → Prop) (built : ∀ start, Built properties start → holds start)
    (preserved : ∀ before label after, SameImpl properties before → holds before →
      condition before label → step parse before label = some after → holds after) :
    Building properties system ∨ (SameImpl properties system ∧ holds system) := by
  refine execution.invariant (fun system => Building properties system ∨
    (SameImpl properties system ∧ holds system)) (Or.inl .created) ?_
  rintro before label after (building | ⟨same, held⟩) allowed moved
  · cases building.step moved with
    | inl still =>
      exact Or.inl still
    | inr finished =>
      exact Or.inr ⟨.built finished, built after finished⟩
  · exact Or.inr ⟨same.step (keeps _ _ allowed) moved,
      preserved before label after same held allowed moved⟩

end AsrClient
