import AsrClient.Recognizer.Frames

/-!
# Handlers without interruption

A handler is a list of statements, and other threads may take their steps between any two
of them. A property of the handler by itself is about the run in which they do not: each
statement is performed with those that it puts before the rest, then the next one.

The state behind such a run is computed here from the statements, and every run of the
step function in which only the websocket thread moves ends in this state.
-/

namespace AsrClient

open Transitions SpeechRecognizer

namespace System

/-- Perform a statement of the websocket thread, and then those that it puts before the
rest. None of these puts a further one there. -/
def perform (system : System) (stmt : WsStmt) : System :=
  let after := execWs .ok { system with ws := [] } stmt
  after.ws.foldl (execWs .ok) { after with ws := [] }

/-- Perform the statements of a handler. -/
def performAll (system : System) (stmts : List WsStmt) : System := stmts.foldl perform system

@[simp] theorem perform_all_nil (system : System) : system.performAll [] = system := rfl

@[simp] theorem perform_all_cons (system : System) (stmt : WsStmt) (stmts : List WsStmt) :
    system.performAll (stmt :: stmts) = (system.perform stmt).performAll stmts := rfl

/-- The statements of two parts are performed one part after the other. -/
theorem perform_all_append (system : System) (former latter : List WsStmt) :
    system.performAll (former ++ latter) = (system.performAll former).performAll latter :=
  List.foldl_append

end System

/-- Only the websocket thread moves, and what it sends is sent. -/
def Uninterrupted (_ : System) (label : Label) : Prop := label = .ws .ok

instance (system : System) (label : Label) : Decidable (Uninterrupted system label) :=
  inferInstanceAs (Decidable (_ = _))

/-- A statement is performed in the same way whatever is behind it. -/
theorem ws_rest (outcome : Outcome) (system : System) (stmt : WsStmt) (rest : List WsStmt) :
    execWs outcome { system with ws := rest } stmt =
      { execWs outcome { system with ws := [] } stmt with
        ws := (execWs outcome { system with ws := [] } stmt).ws ++ rest } := by
  cases stmt <;> simp only [execWs] <;> (repeat' split) <;>
    simp [System.withImpl, System.wsThen, System.record, System.crash, System.send]

/-- What a statement puts before the rest puts nothing there itself. -/
theorem pushed_last {stmt pushed : WsStmt} (may : stmt.MayPush pushed) (other : WsStmt) :
    ¬ pushed.MayPush other := by
  cases stmt <;> cases pushed <;> first | exact absurd may id | exact id

/-- A statement that puts nothing before the rest is performed in one step. -/
theorem perform_single {system : System} {stmt : WsStmt} (free : system.ws = [])
    (last : ∀ other, ¬ stmt.MayPush other) :
    system.perform stmt = execWs .ok system stmt ∧ (execWs .ok system stmt).ws = [] := by
  have same : ({ system with ws := [] } : System) = system := by rw [← free]
  obtain ⟨new, list, pushed⟩ := ws_list .ok system stmt
  have none : (execWs .ok system stmt).ws = [] := by
    rw [list, free, List.append_nil, List.eq_nil_iff_forall_not_mem]
    exact fun other member => last other (pushed other member)
  refine ⟨?_, none⟩
  rw [System.perform, same, none, List.foldl_nil, ← none]

/-- Such statements are performed in one step each. -/
theorem perform_all_single {system : System} {stmts : List WsStmt} (free : system.ws = [])
    (last : ∀ stmt ∈ stmts, ∀ other, ¬ stmt.MayPush other) :
    system.performAll stmts = stmts.foldl (execWs .ok) system := by
  induction stmts generalizing system with
  | nil => rfl
  | cons stmt stmts inductionHypothesis =>
    rw [List.forall_mem_cons] at last
    obtain ⟨single, none⟩ := perform_single free last.1
    rw [System.perform_all_cons, single, List.foldl_cons]
    exact inductionHypothesis none last.2

/-- A step of the websocket thread leaves the state that the pending statements lead to. -/
theorem perform_all_step (system : System) (stmt : WsStmt) (rest : List WsStmt)
    (next : system.ws = stmt :: rest) :
    let after := execWs .ok { system with ws := rest } stmt
    ({ after with ws := [] } : System).performAll after.ws =
      ({ system with ws := [] } : System).performAll system.ws := by
  intro after
  obtain ⟨new, list, pushed⟩ := ws_list .ok { system with ws := [] } stmt
  rw [List.append_nil] at list
  have split : after.ws = new ++ rest := by
    rw [show after = _ from ws_rest .ok system stmt rest]
    exact congrArg (· ++ rest) list
  have former : ({ after with ws := [] } : System) =
      { execWs .ok { system with ws := [] } stmt with ws := [] } := by
    rw [show after = _ from ws_rest .ok system stmt rest]
  rw [split, former, System.perform_all_append, next, System.perform_all_cons,
    perform_all_single rfl fun stmt member => pushed_last (pushed stmt member)]
  congr 1
  rw [System.perform]
  dsimp only
  rw [list]

/-- Every run in which only the websocket thread moves, until it has nothing left to do,
ends in the state that its statements lead to. -/
theorem uninterrupted_performs (parse : Bytes → Json) (start after : System) (labels : List Label)
    (execution : Execution (step parse) Uninterrupted start labels after)
    (handled : after.ws = []) :
    after = ({ start with ws := [] } : System).performAll start.ws := by
  have leads : ({ after with ws := [] } : System).performAll after.ws =
      ({ start with ws := [] } : System).performAll start.ws := by
    refine execution.invariant (fun system => ({ system with ws := [] } : System).performAll
      system.ws = ({ start with ws := [] } : System).performAll start.ws) rfl ?_
    rintro before label next leads rfl moved
    obtain ⟨-, moves⟩ := step_moves parse before next _ moved
    cases moves with
    | ws outcome stmt rest list => exact (perform_all_step before stmt rest list).trans leads
    | event _ _ connection => cases connection
  rw [← leads, handled, System.perform_all_nil, ← handled]

/-- The websocket thread performs its next statement. -/
theorem uninterrupted_move (parse : Bytes → Json) (system : System) (stmt : WsStmt)
    (rest : List WsStmt) (going : system.crashed = none) (next : system.ws = stmt :: rest) :
    Execution (step parse) Uninterrupted system [.ws .ok]
      (execWs .ok { system with ws := rest } stmt) :=
  .snoc [] system _ _ .refl rfl (by simp [step, going, next])

/-- The websocket thread performs statements that put nothing before the rest, unless the
process is lost with one of them. -/
theorem uninterrupted_singles (parse : Bytes → Json) (stmts rest : List WsStmt) (start : System)
    (last : ∀ stmt ∈ stmts, ∀ other, ¬ stmt.MayPush other) (next : start.ws = stmts ++ rest) :
    ∃ labels after, Execution (step parse) Uninterrupted start labels after ∧
      (after.ws = rest ∨ after.crashed.isSome = true) := by
  induction stmts generalizing start with
  | nil => exact ⟨[], start, .refl, Or.inl next⟩
  | cons stmt stmts inductionHypothesis =>
    rw [List.forall_mem_cons] at last
    cases going : start.crashed with
    | some cause => exact ⟨[], start, .refl, Or.inr (by rw [going]; rfl)⟩
    | none =>
      have moved := uninterrupted_move parse start stmt (stmts ++ rest) going next
      obtain ⟨new, list, pushed⟩ := ws_list .ok { start with ws := stmts ++ rest } stmt
      have none : new = [] := List.eq_nil_iff_forall_not_mem.mpr
        fun other member => last.1 other (pushed other member)
      rw [none, List.nil_append] at list
      obtain ⟨labels, after, execution, ended⟩ := inductionHypothesis _ last.2 list
      exact ⟨_, after, moved.append execution, ended⟩

/-- There is such a run, unless the process is lost in it. The induction is on the
statements; each is performed with those that it puts before the rest. -/
theorem uninterrupted_run (parse : Bytes → Json) (stmts : List WsStmt) (start : System)
    (next : start.ws = stmts) :
    ∃ labels after, Execution (step parse) Uninterrupted start labels after ∧
      (after.ws = [] ∨ after.crashed.isSome = true) := by
  induction stmts generalizing start with
  | nil => exact ⟨[], start, .refl, Or.inl next⟩
  | cons stmt rest inductionHypothesis =>
    cases going : start.crashed with
    | some cause => exact ⟨[], start, .refl, Or.inr (by rw [going]; rfl)⟩
    | none =>
      have moved := uninterrupted_move parse start stmt rest going next
      obtain ⟨new, list, pushed⟩ := ws_list .ok { start with ws := rest } stmt
      obtain ⟨labels, middle, execution, ended⟩ := uninterrupted_singles parse new rest _
        (fun other member => pushed_last (pushed other member)) list
      cases ended with
      | inl behind =>
        obtain ⟨others, after, latter, ended⟩ := inductionHypothesis middle behind
        exact ⟨_, after, (moved.append execution).append latter, ended⟩
      | inr lost => exact ⟨_, middle, moved.append execution, Or.inr lost⟩

end AsrClient
