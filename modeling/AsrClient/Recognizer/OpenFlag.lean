import AsrClient.Recognizer.Frames

/-!
# The open flag

An implementation object opens a connection and closes it, call after call, while the
events of the connection arrive in the websocket thread. An attempt to connect ends with
exactly one of two events, opened or failed, at any time behind its start; only an
established connection is closed by the other side.

The flag is set by the initialization, as soon as the thread of the connection runs, and
once more when the wait has found the status open. The first of these does not ask
whether the connection is open yet, and nothing clears the flag when the attempt fails or
when the other side closes the connection. The flag reflects the connection in exactly
the runs in which neither matters: the event is handled before the flag is set, and the
connection is not closed from outside while the flag is set.
-/

namespace AsrClient

open Transitions SpeechRecognizer

namespace OpenFlag

/-- What has happened to the latest attempt to connect. -/
inductive Phase where
  | none
  | connecting
  | established
  | failed
  | closed
deriving DecidableEq

/-- The connection was opened; it may have been closed since. -/
def Phase.delivered : Phase → Bool
  | .established => true
  | .closed => true
  | _ => false

/-- An implementation object with its latest attempt to connect. -/
structure Connection where
  system : System
  phase : Phase := .none

/-- The calls on the object, and the steps of its threads. -/
inductive Action where
  | openCall
  | closeCall
  | inner (label : Label)
deriving DecidableEq

/-- The phase behind a step. -/
def Phase.behind (phase : Phase) (system : System) : Label → Phase
  | .app outcome =>
      if system.app.head? = some .init ∧ outcome = .ok then .connecting
      else if system.app.head? = some .clearOpen then .none
      else phase
  | .opened => .established
  | .failed => .failed
  | .closed => .closed
  | _ => phase

/-- The events that the network delivers: one for each attempt, and a close of an
established connection. The thread of the connection ends behind the event of its
attempt. The application calls the object directly. -/
def delivers (connection : Connection) : Label → Bool
  | .call _ => false
  | .opened => connection.phase = .connecting
  | .failed => connection.phase = .connecting
  | .closed => connection.phase = .established
  | .app _ => connection.system.app.head? ≠ some .joinThread || connection.phase ≠ .connecting
  | _ => true

/-- One action. The calls are `Impl::open`, and `Impl::close` where the flag is set. -/
def act (parse : Bytes → Json) (connection : Connection) : Action → Option Connection
  | .openCall =>
      if connection.system.app = [] ∧ connection.system.crashed = none then
        some { connection with system := { connection.system with app := [.connect] } }
      else none
  | .closeCall =>
      if connection.system.app = [] ∧ connection.system.crashed = none then
        some { connection with system := { connection.system with app := [.closeIfOpen] } }
      else none
  | .inner label =>
      if delivers connection label then
        (step parse connection.system label).map
          fun system => ⟨system, connection.phase.behind connection.system label⟩
      else none

/-- A new object, built from the properties. -/
def Connection.create (properties : Properties) : Connection where
  system := { properties, impl :=
    { config := properties.recogConfig, listener := properties.listener } }

/-- A call of open returns: at once, because the flag is set, or with its last statement. -/
def Returns (before after : System) : Prop :=
  (before.app = [.connect] ∨ before.app = [.setOpen]) ∧ after.app = []

/-- The flag reflects the connection behind a step: it is set only when the status is open
and the current connection is, an exception leaves it clear, and open returns only when
its connection was opened. -/
structure Reflects (before after : Connection) : Prop where
  connected : after.system.impl.isOpen = true →
    after.system.impl.status = .kOpen ∧ after.phase = .established
  thrown (exception : Exception) (threw : after.system.log = .threw exception :: before.system.log) :
    after.system.impl.isOpen = false
  returned (returns : Returns before.system after.system) : after.phase.delivered = true

/-- A step that makes the flag wrong: it is set while the connection is not open, or the
connection is closed while it is set. -/
def misleads (connection : Connection) : Action → Bool
  | .inner (.app _) => connection.system.app.head? = some .setOpen &&
      !(connection.system.impl.status = .kOpen && connection.phase = .established)
  | .inner .closed => connection.system.impl.isOpen
  | _ => false

/-- The step keeps the flag right. -/
def KeepsFlag (connection : Connection) (action : Action) : Prop :=
  misleads connection action = false

instance (connection : Connection) (action : Action) : Decidable (KeepsFlag connection action) :=
  inferInstanceAs (Decidable (_ = _))

/-- The statements of a call of close. -/
def isClosing : AppStmt → Bool
  | .closeIfOpen => true
  | .testJoinable => true
  | .setTerminate => true
  | .join => true
  | .closeAudio => true
  | .clearTerminate => true
  | .joinThread => true
  | .clearOpen => true
  | _ => false

/-- The statements that are left of a call, in its positions. The flag is clear before an
initialization and when the attempt has failed. -/
inductive Position (isOpen : Bool) : List AppStmt → Prop where
  | connect : Position isOpen [.connect]
  | init (clear : isOpen = false) : Position isOpen implOpen
  | started : Position isOpen (.setOpen :: implOpen.tail)
  | lock : Position isOpen [.lock, .await .status, .unlock, .checkStatus]
  | await : Position isOpen [.await .status, .unlock, .checkStatus]
  | sleep : Position isOpen [.sleep .status, .unlock, .checkStatus]
  | unlock : Position isOpen [.unlock, .checkStatus]
  | checkStatus : Position isOpen [.checkStatus]
  | connected : Position isOpen [.setOpen]
  | failed (clear : isOpen = false) (listeners : List Listener) (error : RecognitionError)
      (exception : Exception) : Position isOpen
        (listeners.map (.notifyListener · (.onError error)) ++ [.throwException exception])
  | closing (rest : List AppStmt) (closes : ∀ stmt ∈ rest, isClosing stmt = true) :
      Position isOpen rest

/-- The flag is right, and no handler is about to make it wrong. -/
structure Right (connection : Connection) : Prop where
  position : Position connection.system.impl.isOpen connection.system.app
  handlers (status : Status) (member : .setStatus status ∈ connection.system.ws)
    (current : connection.phase = .established) : status = .kOpen
  connected : connection.system.impl.isOpen = true →
    connection.system.impl.status = .kOpen ∧ connection.phase = .established

/-- The flag and the status, and where the call stands, are all that matters. -/
theorem Right.frame {before after : Connection} (right : Right before)
    (app : after.system.app = before.system.app)
    (isOpen : after.system.impl.isOpen = before.system.impl.isOpen)
    (status : after.system.impl.status = before.system.impl.status)
    (phase : after.phase = before.phase)
    (handlers : ∀ status, .setStatus status ∈ after.system.ws → .setStatus status ∈ before.system.ws) :
    Right after where
  position := by
    rw [app, isOpen]
    exact right.position
  handlers status member current := right.handlers status (handlers status member) (phase ▸ current)
  connected := by
    rw [isOpen, status, phase]
    exact right.connected

/-- The handlers of messages leave the status alone. -/
theorem handler_status (parse : Bytes → Json) (response : ASRMessageResponse) (status : Status) :
    .setStatus status ∉ ASRProcessMsg.handle parse response := by
  intro member
  cases ASRProcessMsg.handle_performs parse response _ member

/-- A handler leaves the flag alone, and only one statement sets the status. -/
theorem ws_flag (outcome : Outcome) (system : System) (stmt : WsStmt) :
    (execWs outcome system stmt).impl.isOpen = system.impl.isOpen ∧
      ((∀ status, stmt ≠ .setStatus status) →
        (execWs outcome system stmt).impl.status = system.impl.status) := by
  cases stmt <;> simp only [execWs] <;> (repeat' split) <;>
    first
    | exact ⟨rfl, fun _ => rfl⟩
    | exact ⟨rfl, fun other => absurd rfl (other _)⟩

/-- The statements of a handler put none before the rest that sets the status. -/
theorem pushed_status {stmt : WsStmt} {status : Status} : ¬ stmt.MayPush (.setStatus status) := by
  intro may
  cases stmt <;> exact may

/-- Statements of the application thread other than those of the flag leave it alone, and
the status. -/
theorem app_flag {outcome : Outcome} {system after : System} {stmt : AppStmt}
    (performed : execApp outcome system stmt = some after)
    (other : stmt ≠ .setOpen ∧ stmt ≠ .clearOpen ∧ stmt ≠ .freshImpl) :
    after.impl.isOpen = system.impl.isOpen ∧ after.impl.status = system.impl.status := by
  cases stmt <;> simp only [execApp, Option.some.injEq] at performed <;>
    (repeat' split at performed) <;> cases performed <;>
    first
    | exact ⟨rfl, rfl⟩
    | exact absurd rfl other.1
    | exact absurd rfl other.2.1
    | exact absurd rfl other.2.2

section Step

variable {parse : Bytes → Json} {before : Connection}

/-- A step that changes neither the flag nor the status, throws nothing and does not return
from open keeps the flag right. -/
theorem Right.quiet {after : Connection} (right : Right before)
    (position : Position before.system.impl.isOpen after.system.app)
    (ws : after.system.ws = before.system.ws)
    (isOpen : after.system.impl.isOpen = before.system.impl.isOpen)
    (status : after.system.impl.status = before.system.impl.status)
    (phase : after.phase = before.phase)
    (silent : ∀ exception, after.system.log ≠ .threw exception :: before.system.log)
    (stays : ¬ Returns before.system after.system) : Right after ∧ Reflects before after := by
  have connected : after.system.impl.isOpen = true →
      after.system.impl.status = .kOpen ∧ after.phase = .established := by
    rw [isOpen, status, phase]
    exact right.connected
  constructor
  · refine ⟨isOpen ▸ position, ?_, connected⟩
    rw [ws, phase]
    exact right.handlers
  · exact ⟨connected, fun exception threw => absurd threw (silent exception),
      fun returns => absurd returns stays⟩

/-- The phase stays behind a statement that neither connects nor clears the flag. -/
theorem phase_stays {stmt : AppStmt} {rest : List AppStmt} (next : before.system.app = stmt :: rest)
    (outcome : Outcome) (other : stmt ≠ .init ∧ stmt ≠ .clearOpen) :
    before.phase.behind before.system (.app outcome) = before.phase := by
  simp [Phase.behind, next, other.1, other.2]

/-- A statement of a call of close keeps the flag right. -/
theorem Right.close (right : Right before) (outcome : Outcome) (stmt : AppStmt)
    (rest : List AppStmt) (next : before.system.app = stmt :: rest) (after : System)
    (closes : ∀ other ∈ stmt :: rest, isClosing other = true)
    (performed : execApp outcome { before.system with app := rest } stmt = some after) :
    Right ⟨after, before.phase.behind before.system (.app outcome)⟩ ∧
      Reflects before ⟨after, before.phase.behind before.system (.app outcome)⟩ := by
  obtain ⟨first, others⟩ := List.forall_mem_cons.mp closes
  have stays : ¬ Returns before.system after := by
    rintro ⟨only | only, -⟩ <;>
    · obtain ⟨rfl, -⟩ := List.cons.inj (next.symm.trans only)
      exact absurd first Bool.false_ne_true
  by_cases clears : stmt = .clearOpen
  · subst clears
    cases performed
    have phase : before.phase.behind before.system (.app outcome) = .none := by
      simp [Phase.behind, next]
    rw [phase]
    refine ⟨⟨.closing _ others, ?_, ?_⟩, ⟨?_, ?_, ?_⟩⟩
    · exact fun _ _ current => absurd (show Phase.none = .established from current) (by decide)
    · exact fun isOpen => absurd isOpen Bool.false_ne_true
    · exact fun isOpen => absurd isOpen Bool.false_ne_true
    · exact fun _ _ => rfl
    · exact fun returns => absurd returns stays
  · have other : stmt ≠ .init ∧ stmt ≠ .setOpen ∧ stmt ≠ .freshImpl := by
      cases stmt <;> first | exact absurd first Bool.false_ne_true | simp
    obtain ⟨isOpen, status⟩ := app_flag performed ⟨other.2.1, clears, other.2.2⟩
    refine right.quiet ?_ (app_ws performed :) isOpen status
      (phase_stays next outcome ⟨other.1, clears⟩) ?_ stays
    · rcases app_list performed with empty | ⟨new, list, expands⟩
      · exact empty ▸ .closing [] (by simp)
      · rw [show _ = new ++ rest from list]
        refine .closing _ (List.forall_mem_append.mpr ⟨?_, others⟩)
        cases stmt <;> simp only [AppStmt.Expands] at expands <;>
          first
          | exact absurd first Bool.false_ne_true
          | (subst expands; simp)
          | (rcases expands with rfl | rfl <;> decide)
    · intro exception threw
      cases stmt <;> simp only [execApp] at performed <;>
        first
        | exact absurd first Bool.false_ne_true
        | ((repeat' split at performed) <;> cases performed <;>
            simp [System.appThen, System.withImpl, System.record] at threw)

/-- An initialization starts an attempt, with the flag clear, or fails to. -/
theorem Right.init (right : Right before) (outcome : Outcome)
    (next : before.system.app = implOpen) (clear : before.system.impl.isOpen = false)
    (after : System)
    (performed : execApp outcome { before.system with app := implOpen.tail } .init = some after) :
    Right ⟨after, before.phase.behind before.system (.app outcome)⟩ ∧
      Reflects before ⟨after, before.phase.behind before.system (.app outcome)⟩ := by
  have stays : ¬ Returns before.system after := by
    rintro ⟨only | only, -⟩ <;> simp [next, implOpen] at only
  have isOpen : after.impl.isOpen = false := (app_flag performed (by simp)).1.trans clear
  have started (current : before.phase.behind before.system (.app outcome) = .established) :
      before.phase = .established := by
    simp only [Phase.behind, next] at current
    split_ifs at current
    · exact current
  have position : Position after.impl.isOpen after.app := by
    simp only [execApp] at performed
    (repeat' split at performed) <;> cases performed
    · exact .closing [] (by simp)
    · exact .lock
    · exact .lock
    · exact .started
  refine ⟨⟨position, ?_, ?_⟩, ⟨?_, fun _ _ => isOpen, fun returns => absurd returns stays⟩⟩
  · intro status member current
    exact right.handlers status ((app_ws performed :) ▸ member) (started current)
  · exact fun set => absurd (isOpen.symm.trans set) (by decide)
  · exact fun set => absurd (isOpen.symm.trans set) (by decide)

/-- The flag is set, on an open connection. -/
theorem Right.set (right : Right before) (outcome : Outcome) (rest : List AppStmt)
    (next : before.system.app = .setOpen :: rest)
    (allowed : before.system.impl.status = .kOpen ∧ before.phase = .established)
    (position : Position true rest) (after : System)
    (performed : execApp outcome { before.system with app := rest } .setOpen = some after) :
    Right ⟨after, before.phase.behind before.system (.app outcome)⟩ ∧
      Reflects before ⟨after, before.phase.behind before.system (.app outcome)⟩ := by
  cases performed
  rw [phase_stays next outcome (by simp)]
  refine ⟨⟨position, right.handlers, fun _ => allowed⟩, ⟨fun _ => allowed, ?_, fun _ => ?_⟩⟩
  · exact fun _ threw => absurd threw (List.cons_ne_self _ _).symm
  · exact congrArg Phase.delivered allowed.2

/-- A statement of a call keeps the flag right, if it sets the flag only on an open
connection. -/
theorem Right.app (right : Right before) (outcome : Outcome) (stmt : AppStmt)
    (rest : List AppStmt) (next : before.system.app = stmt :: rest) (after : System)
    (allowed : stmt = .setOpen → before.system.impl.status = .kOpen ∧ before.phase = .established)
    (performed : execApp outcome { before.system with app := rest } stmt = some after) :
    Right ⟨after, before.phase.behind before.system (.app outcome)⟩ ∧
      Reflects before ⟨after, before.phase.behind before.system (.app outcome)⟩ := by
  have position := right.position
  rw [next] at position
  generalize list : stmt :: rest = app at position
  -- A statement that leaves the flag and the log alone, with more of the call to do.
  have waits (other : stmt ≠ .init ∧ stmt ≠ .clearOpen ∧ stmt ≠ .setOpen ∧ stmt ≠ .freshImpl)
      (position : Position before.system.impl.isOpen after.app)
      (log : after.log = before.system.log) (busy : after.app ≠ []) :
      Right ⟨after, before.phase.behind before.system (.app outcome)⟩ ∧
        Reflects before ⟨after, before.phase.behind before.system (.app outcome)⟩ := by
    obtain ⟨isOpen, status⟩ := app_flag performed ⟨other.2.2.1, other.2.1, other.2.2.2⟩
    refine right.quiet position (app_ws performed :) isOpen status
      (phase_stays next outcome ⟨other.1, other.2.1⟩) ?_ fun returns => busy returns.2
    exact fun exception threw => List.cons_ne_self _ _ (threw.symm.trans log)
  cases position with
  | connect =>
    obtain ⟨rfl, rfl⟩ := List.cons.inj list
    simp only [execApp] at performed
    split_ifs at performed with isOpen
    · cases performed
      -- The call returns at once: the flag is right, so the connection is open.
      rw [phase_stays next outcome (by simp)]
      refine ⟨⟨.closing [] (by simp), right.handlers, right.connected⟩, right.connected, ?_, ?_⟩
      · exact fun _ threw => absurd threw (List.cons_ne_self _ _).symm
      · exact fun _ => congrArg Phase.delivered (right.connected isOpen).2
    · have clear : before.system.impl.isOpen = false := Bool.eq_false_iff.mpr isOpen
      cases performed
      exact waits (by simp) (.init clear) rfl (by simp [System.appThen, implOpen])
  | init clear =>
    obtain ⟨rfl, rfl⟩ := List.cons.inj list
    exact right.init outcome next clear after performed
  | started =>
    obtain ⟨rfl, rfl⟩ := List.cons.inj list
    exact right.set outcome _ next (allowed rfl) .lock after performed
  | lock =>
    obtain ⟨rfl, rfl⟩ := List.cons.inj list
    simp only [execApp] at performed
    split_ifs at performed
    cases performed
    exact waits (by simp) .await rfl (by simp [System.withImpl])
  | await =>
    obtain ⟨rfl, rfl⟩ := List.cons.inj list
    simp only [execApp] at performed
    split_ifs at performed <;> cases performed
    · exact waits (by simp) .unlock rfl (by simp)
    · exact waits (by simp) .sleep rfl (by simp [System.appThen, System.withImpl])
  | sleep =>
    obtain ⟨rfl, rfl⟩ := List.cons.inj list
    simp only [execApp] at performed
    split_ifs at performed
    cases performed
    exact waits (by simp) .await rfl (by simp [System.appThen, System.withImpl])
  | unlock =>
    obtain ⟨rfl, rfl⟩ := List.cons.inj list
    cases performed
    exact waits (by simp) .checkStatus rfl (by simp [System.withImpl])
  | checkStatus =>
    obtain ⟨rfl, rfl⟩ := List.cons.inj list
    simp only [execApp] at performed
    split_ifs at performed with isOpen <;> cases performed
    · exact waits (by simp) .connected rfl (by simp [System.appThen])
    · -- The status is not open, so the flag is clear.
      have clear : before.system.impl.isOpen = false :=
        Bool.eq_false_iff.mpr fun set => isOpen (right.connected set).1
      refine waits (by simp) ?_ rfl (by simp [System.appThen])
      simp only [System.appThen, List.append_nil]
      exact .failed clear _ _ _
  | connected =>
    obtain ⟨rfl, rfl⟩ := List.cons.inj list
    exact right.set outcome _ next (allowed rfl) (.closing [] (by simp)) after performed
  | failed clear listeners error exception =>
    cases listeners with
    | nil =>
      obtain ⟨rfl, rfl⟩ := List.cons.inj list
      cases performed
      rw [phase_stays next outcome (by simp)]
      refine ⟨⟨.closing [] (by simp), right.handlers, right.connected⟩, right.connected, ?_, ?_⟩
      · exact fun _ _ => clear
      · rintro ⟨only | only, -⟩ <;> simp [next] at only
    | cons listener listeners =>
      obtain ⟨rfl, rfl⟩ := List.cons.inj list
      cases performed
      rw [phase_stays next outcome (by simp)]
      refine right.quiet (.failed clear listeners error exception) rfl rfl rfl rfl ?_ ?_
      · simp [System.record]
      · rintro ⟨only | only, -⟩ <;> simp [next] at only
  | closing _ closes => exact right.close outcome stmt rest next after (list ▸ closes) performed

/-- Behind a step of another thread, which neither throws nor returns, the flag reflects the
connection when it is right. -/
theorem Right.reflects {after : Connection} (right : Right after)
    (app : after.system.app = before.system.app)
    (silent : ∀ exception, after.system.log ≠ .threw exception :: before.system.log) :
    Reflects before after where
  connected := right.connected
  thrown exception threw := absurd threw (silent exception)
  returned := by
    rintro ⟨only | only, empty⟩ <;> simp [← app, empty] at only

/-- A call of open does not wait for a result. -/
theorem Position.waits_status {isOpen : Bool} {condition : Condition} {rest : List AppStmt}
    (position : Position isOpen (.sleep condition :: rest)) :
    condition = .status ∧ rest = [.unlock, .checkStatus] := by
  generalize list : AppStmt.sleep condition :: rest = app at position
  cases position with
  | sleep =>
    obtain ⟨sleeps, rfl⟩ := List.cons.inj list
    exact ⟨AppStmt.sleep.inj sleeps, rfl⟩
  | failed clear listeners error exception => cases listeners <;> simp at list
  | closing _ closes => exact absurd (closes (.sleep condition) (by simp [← list])) (by simp [isClosing])
  | _ => simp [implOpen] at list

/-- An event of the connection keeps the flag right, if no close comes while it is set. -/
theorem Right.event (right : Right before) {label : Label} {stmts : List WsStmt}
    (connection : ConnectionEvent label stmts) (delivered : delivers before label = true)
    (allowed : KeepsFlag before (.inner label)) :
    Right ⟨{ before.system with ws := stmts }, before.phase.behind before.system label⟩ := by
  have unset (other : before.phase ≠ .established) : before.system.impl.isOpen ≠ true :=
    fun set => other (right.connected set).2
  cases connection with
  | opened =>
    have connecting : before.phase = .connecting := of_decide_eq_true delivered
    exact ⟨right.position, by simp, fun set => absurd set (unset (by simp [connecting]))⟩
  | failed =>
    have connecting : before.phase = .connecting := of_decide_eq_true delivered
    refine ⟨right.position, ?_, fun set => absurd set (unset (by simp [connecting]))⟩
    exact fun _ _ current => absurd (show Phase.failed = .established from current) (by decide)
  | closed =>
    refine ⟨right.position, ?_, fun set => absurd (allowed.symm.trans set) (by decide)⟩
    exact fun _ _ current => absurd (show Phase.closed = .established from current) (by decide)

/-- A statement of a handler keeps the flag right. -/
theorem Right.ws (right : Right before) (outcome : Outcome) (stmt : WsStmt) (rest : List WsStmt)
    (next : before.system.ws = stmt :: rest) :
    Right ⟨execWs outcome { before.system with ws := rest } stmt, before.phase⟩ := by
  obtain ⟨isOpen, status⟩ := ws_flag outcome { before.system with ws := rest } stmt
  obtain ⟨new, list, pushed⟩ := ws_list outcome { before.system with ws := rest } stmt
  constructor
  · rw [isOpen, ws_app]
    exact right.position
  · intro pending member current
    rw [list, List.mem_append] at member
    cases member with
    | inl put =>
      exact absurd (pushed _ put) pushed_status
    | inr later =>
      exact right.handlers pending (next ▸ List.mem_cons_of_mem _ later) current
  · intro set
    rw [isOpen] at set
    obtain ⟨kOpen, current⟩ := right.connected set
    refine ⟨?_, current⟩
    by_cases sets : ∃ status, stmt = .setStatus status
    · obtain ⟨pending, rfl⟩ := sets
      exact right.handlers pending (by simp [next]) current
    · exact (status fun pending same => sets ⟨pending, same⟩).trans kOpen

/-- Any other action is a step of the system that the library delivers. -/
theorem act_inner {label : Label} {after : Connection}
    (moved : act parse before (.inner label) = some after) :
    ∃ system, delivers before label = true ∧ Moves parse before.system label system ∧
      after = ⟨system, before.phase.behind before.system label⟩ := by
  simp only [act] at moved
  split_ifs at moved with delivered
  obtain ⟨system, stepped, rfl⟩ := Option.map_eq_some_iff.mp moved
  obtain ⟨-, moves⟩ := step_moves parse before.system system label stepped
  exact ⟨system, delivered, moves, rfl⟩

/-- Every step that keeps the flag right reflects the connection. -/
theorem Right.step {after : Connection} {action : Action} (right : Right before)
    (allowed : KeepsFlag before action) (moved : act parse before action = some after) :
    Right after ∧ Reflects before after := by
  have unthrown : ∀ exception, before.system.log ≠ .threw exception :: before.system.log :=
    fun _ => (List.cons_ne_self _ _).symm
  have idle (free : before.system.app = []) : ¬ Returns before.system after.system := by
    rintro ⟨only | only, -⟩ <;> simp [free] at only
  cases action with
  | openCall =>
    simp only [act] at moved
    split_ifs at moved with free
    cases moved
    exact right.quiet .connect rfl rfl rfl rfl unthrown (idle free.1)
  | closeCall =>
    simp only [act] at moved
    split_ifs at moved with free
    cases moved
    exact right.quiet (.closing _ (by simp [isClosing])) rfl rfl rfl rfl unthrown (idle free.1)
  | inner label =>
    obtain ⟨system, delivered, moves, rfl⟩ := act_inner moved
    cases moves with
    | call call _ => exact absurd delivered Bool.false_ne_true
    | app outcome stmt rest _ next performed =>
      refine right.app outcome stmt rest next system ?_ performed
      rintro rfl
      simpa [KeepsFlag, misleads, next] using allowed
    | gaveUp rest exception asleep _ =>
      exact absurd (asleep ▸ right.position).waits_status.1 (by simp)
    | expired condition rest asleep _ met =>
      obtain ⟨rfl, rfl⟩ := (asleep ▸ right.position).waits_status
      refine right.quiet .unlock rfl rfl rfl rfl unthrown ?_
      exact fun returns => by simp [System.withImpl, Returns] at returns
    | rejected payload cause _ free =>
      have same : Right ⟨before.system.crash cause, before.phase⟩ :=
        right.frame rfl rfl rfl rfl fun _ => id
      exact ⟨same, same.reflects rfl unthrown⟩
    | received payload response decoded free =>
      have same : Right ⟨({ before.system with ws := ASRProcessMsg.handle parse response } :
          System).record (.received response), before.phase⟩ :=
        right.frame rfl rfl rfl rfl fun status member =>
          absurd member (handler_status parse response status)
      exact ⟨same, same.reflects rfl (by simp [System.record])⟩
    | event _ stmts connection free =>
      have keeps := right.event connection delivered allowed
      exact ⟨keeps, keeps.reflects rfl unthrown⟩
    | ws outcome stmt rest next =>
      have keeps := right.ws outcome stmt rest next
      refine ⟨keeps, keeps.reflects (ws_app ..) fun exception threw => ?_⟩
      exact absurd (ws_adds threw) Bool.false_ne_true
    | read ret chunk _ performed =>
      obtain ⟨frame, log⟩ := read_frame ret chunk before.system system performed
      have keeps : Right ⟨system, before.phase⟩ := right.frame frame.app
        (frame.keeps (·.isOpen)) (frame.keeps (·.status)) rfl fun _ member => frame.ws ▸ member
      exact ⟨keeps, keeps.reflects frame.app fun exception threw =>
        unthrown exception (log.symm.trans threw)⟩
    | sender outcome _ performed =>
      have frame := (sender_frame outcome before.system system performed).1
      have keeps : Right ⟨system, before.phase⟩ := right.frame frame.app
        (frame.keeps (·.isOpen)) (frame.keeps (·.status)) rfl fun _ member => frame.ws ▸ member
      refine ⟨keeps, keeps.reflects frame.app fun exception threw => ?_⟩
      exact absurd (sender_adds performed threw) Bool.false_ne_true

/-- A step that makes the flag wrong does not reflect the connection. -/
theorem misled {after : Connection} {action : Action} (wrong : misleads before action = true)
    (moved : act parse before action = some after) : ¬ Reflects before after := by
  intro reflects
  cases action with
  | inner label =>
    obtain ⟨system, delivered, moves, rfl⟩ := act_inner moved
    cases moves with
    | app outcome stmt rest _ next performed =>
      simp only [misleads, next, List.head?_cons, Bool.and_eq_true, decide_eq_true_eq,
        Option.some.injEq] at wrong
      obtain ⟨rfl, wrong⟩ := wrong
      cases performed
      obtain ⟨kOpen, current⟩ := reflects.connected rfl
      rw [phase_stays next outcome (by simp)] at current
      have isOpen : before.system.impl.status = .kOpen := kOpen
      exact absurd current (by simpa [isOpen] using wrong)
    | event _ stmts connection free =>
      cases connection with
      | closed =>
        exact absurd (show Phase.closed = .established from (reflects.connected wrong).2) (by decide)
      | _ => exact absurd wrong Bool.false_ne_true
    | _ => exact absurd wrong Bool.false_ne_true
  | _ => exact absurd wrong Bool.false_ne_true

end Step

/-- Behind any run whose steps all keep the flag right, a step reflects the connection
exactly when it does so as well. -/
theorem open_flag_reflects_iff (parse : Bytes → Json) (properties : Properties)
    (actions : List Action) (before after : Connection) (action : Action)
    (execution : Execution (act parse) KeepsFlag (.create properties) actions before)
    (moved : act parse before action = some after) :
    Reflects before after ↔ KeepsFlag before action := by
  have right : Right before := by
    refine execution.invariant Right ?_ fun _ _ _ right allowed moved => (right.step allowed moved).1
    exact ⟨.closing [] (by simp), by simp [Connection.create], by simp [Connection.create]⟩
  constructor
  · intro reflects
    rw [KeepsFlag, ← Bool.not_eq_true]
    exact fun wrong => misled wrong moved reflects
  · exact fun allowed => (right.step allowed moved).2

/-- The application thread performs its next statements. -/
def statements (count : Nat) : List Action := List.replicate count (.inner (.app .ok))

/-- A call of open up to its last statement. The connection is opened and its event handled
before the flag is set. -/
def openedFirst : List Action :=
  [.openCall] ++ statements 2 ++ [.inner .opened, .inner (.ws .ok)] ++ statements 5

/-- A call of open up to its last statement. The flag is set before the attempt fails. -/
def failedLater : List Action :=
  [.openCall] ++ statements 3 ++ [.inner .failed, .inner (.ws .ok), .inner (.ws .ok)] ++ statements 4

/-- Such a call returns with the flag set, on an open connection. -/
theorem opened_first_reflects :
    ∃ before after, Execution (act fun _ => .null) KeepsFlag (.create {}) openedFirst before ∧
      act (fun _ => .null) before (.inner (.app .ok)) = some after ∧
      after.system.impl.isOpen = true ∧ after.system.app = [] ∧ Reflects before after := by
  obtain ⟨before, execution, check⟩ := exists_execution_of_run (act fun _ => .null) KeepsFlag
    (.create {}) openedFirst
    (fun before => KeepsFlag before (.inner (.app .ok)) ∧
      (act (fun _ => .null) before (.inner (.app .ok))).any fun after =>
        after.system.impl.isOpen = true ∧ after.system.app = []) (by decide +kernel)
  obtain ⟨allowed, found⟩ := of_decide_eq_true check
  obtain ⟨after, moved, shape⟩ := Option.any_eq_true _ _ |>.mp found
  obtain ⟨isOpen, returned⟩ := of_decide_eq_true shape
  exact ⟨before, after, execution, moved, isOpen, returned,
    (open_flag_reflects_iff _ _ _ before after _ execution moved).mpr allowed⟩

/-- A call of open that throws leaves the flag set, when the attempt fails behind it. -/
theorem failed_attempt_stays_open :
    ¬ ∀ (parse : Bytes → Json) (properties : Properties) (actions : List Action)
      (before after : Connection) (action : Action),
      Execution (act parse) (fun _ _ => True) (.create properties) actions before →
        act parse before action = some after → Reflects before after := by
  intro always
  let exception : Exception :=
    .recognition ⟨.connectionFailure, bytes "Failure on connecting to server "⟩
  obtain ⟨before, execution, check⟩ := exists_execution_of_run (act fun _ => .null)
    (fun _ _ => True) (.create {}) failedLater
    (fun before => before.system.crashed = none ∧ before.system.impl.isOpen = true ∧
      before.system.app = [.throwException exception]) (by decide +kernel)
  obtain ⟨running, isOpen, next⟩ := of_decide_eq_true check
  have moved : act (fun _ => .null) before (.inner (.app .ok)) =
      some ⟨({ before.system with app := [] } : System).raise exception, before.phase⟩ := by
    simp [act, delivers, step, running, next, execApp, Phase.behind]
  have clear := (always _ _ _ before _ _ execution moved).thrown exception rfl
  exact absurd (isOpen.symm.trans clear) (by decide)

end OpenFlag

end AsrClient
