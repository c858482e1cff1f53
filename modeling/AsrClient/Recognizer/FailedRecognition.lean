import AsrClient.Recognizer.SessionStatus

/-!
# Recognitions that throw

A recognition sets its flag before it does anything that can fail: the connection may not
be initialized, it may not open, and the language model may be empty. Each of these throws
from inside of the call. The call has no handler for exceptions, and no statement of it
clears the flag again.

Another thread may do so. A message of the former recognition that is handled while the call
is under way clears the flag, whatever recognition it is set for. Only then is the flag
clear when the exception leaves the call.
-/

namespace AsrClient

open Transitions SpeechRecognizer

/-- A recognizer in a call of `recognize`, and whether a handler has cleared the flag since
the recognition was accepted. -/
structure Attempt where
  system : System
  cleared : Bool := false

/-- What has happened to the flag behind a step. -/
def Attempt.behind (attempt : Attempt) (label : Label) (system : System) : Attempt where
  system
  cleared :=
    match label with
    | .app _ => attempt.cleared && attempt.system.app.head? ≠ some .setRecognizing
    | .ws _ => attempt.cleared || attempt.system.ws.head? = some .clearRecognizing
    | _ => attempt.cleared

/-- One step of the recognizer. -/
def Attempt.step (parse : Bytes → Json) (attempt : Attempt) (label : Label) : Option Attempt :=
  (AsrClient.step parse attempt.system label).map (attempt.behind label)

/-- The application makes no other call. -/
def SameCall (_ : Attempt) (label : Label) : Prop := ∀ call, label ≠ .call call

instance (attempt : Attempt) (label : Label) : Decidable (SameCall attempt label) :=
  match label with
  | .call call => isFalse fun same => same call rfl
  | .app _ => isTrue fun _ => by simp
  | .timeout => isTrue fun _ => by simp
  | .receive _ => isTrue fun _ => by simp
  | .opened => isTrue fun _ => by simp
  | .failed => isTrue fun _ => by simp
  | .closed => isTrue fun _ => by simp
  | .ws _ => isTrue fun _ => by simp
  | .read _ _ => isTrue fun _ => by simp
  | .sender _ => isTrue fun _ => by simp

/-- The recognizer can be used again: the flag is clear, and another recognition is not
rejected. -/
structure Usable (system : System) : Prop where
  clear : system.impl.recognizing = false
  accepts (outcome : Outcome) : execApp outcome system .rejectActive = some system

/-- The statements of a recognition behind its acceptance, and those that they put before
the rest. -/
def AppStmt.attempts : AppStmt → Bool
  | .clearEptr => true
  | .clearResult => true
  | .setAudioSrc _ => true
  | .setLm _ => true
  | .connect => true
  | .firstRequest => true
  | .createSession => true
  | .startRecognition => true
  | .init => true
  | .setOpen => true
  | .lock => true
  | .unlock => true
  | .await _ => true
  | .sleep _ => true
  | .checkStatus => true
  | .notifyListener _ _ => true
  | .throwException _ => true
  | .ret _ => true
  | _ => false

/-- How far the call has come. From the acceptance on, the flag is set unless a handler has
cleared it. -/
inductive Stage (attempt : Attempt) : Prop where
  | called (rest : List AppStmt) (next : attempt.system.app = .rejectActive :: .setRecognizing :: rest)
      (attempts : ∀ stmt ∈ rest, stmt.attempts = true)
      (clear : attempt.system.impl.recognizing = false)
  | passed (rest : List AppStmt) (next : attempt.system.app = .setRecognizing :: rest)
      (attempts : ∀ stmt ∈ rest, stmt.attempts = true)
      (clear : attempt.system.impl.recognizing = false)
  | accepted (attempts : ∀ stmt ∈ attempt.system.app, stmt.attempts = true)
      (flag : attempt.system.impl.recognizing = !attempt.cleared)

section Stages

variable {parse : Bytes → Json} {outcome : Outcome} {stmt : AppStmt}

/-- A clear flag rejects no recognition. -/
theorem Usable.of_clear {system : System} (clear : system.impl.recognizing = false) :
    Usable system where
  clear := clear
  accepts _ := by
    simp only [execApp]
    rw [if_neg (by simp [clear])]

/-- Statements of a recognition behind its acceptance lead to such statements only. -/
theorem expands_attempts {new : List AppStmt} (expands : stmt.Expands new)
    (attempts : stmt.attempts = true) : ∀ pushed ∈ new, pushed.attempts = true := by
  refine expands_all expands (fun _ _ => rfl) (fun _ => rfl) ?_
  cases stmt <;>
    first
    | exact List.forall_mem_nil _
    | exact List.forall_mem_singleton.mpr rfl
    | decide
    | exact absurd attempts (by decide)

/-- They leave the flag alone. -/
theorem app_attempts {system after : System} (attempts : stmt.attempts = true)
    (performed : execApp outcome system stmt = some after) :
    after.impl.recognizing = system.impl.recognizing := by
  cases stmt <;> simp only [execApp, Option.some.injEq] at performed <;>
    (repeat' split at performed) <;> cases performed <;>
    first
    | rfl
    | exact absurd attempts (by decide)

/-- A step of another thread keeps the stage, when it clears the flag together with what is
told of it. -/
theorem Stage.other {attempt after : Attempt} (stage : Stage attempt)
    (app : after.system.app = attempt.system.app)
    (clear : attempt.system.impl.recognizing = false → after.system.impl.recognizing = false)
    (flag : attempt.system.impl.recognizing = !attempt.cleared →
      after.system.impl.recognizing = !after.cleared) : Stage after := by
  cases stage with
  | called rest next attempts former => exact .called rest (app.trans next) attempts (clear former)
  | passed rest next attempts former => exact .passed rest (app.trans next) attempts (clear former)
  | accepted attempts former => exact .accepted (app ▸ attempts) (flag former)

/-- A statement of the call brings it to its next stage. -/
theorem Stage.app {attempt : Attempt} {system : System} (stage : Stage attempt)
    {rest : List AppStmt} (next : attempt.system.app = stmt :: rest)
    (performed : execApp outcome { attempt.system with app := rest } stmt = some system) :
    Stage ⟨system, attempt.cleared && stmt ≠ .setRecognizing⟩ := by
  cases stage with
  | called tail front attempts clear =>
    obtain ⟨rfl, rfl⟩ := List.cons.inj (next.symm.trans front)
    simp only [execApp, clear, Bool.false_eq_true, if_false] at performed
    cases performed
    exact .passed tail rfl attempts clear
  | passed tail front attempts clear =>
    obtain ⟨rfl, rfl⟩ := List.cons.inj (next.symm.trans front)
    cases performed
    exact .accepted attempts (by simp [System.record, System.withImpl])
  | accepted attempts flag =>
    rw [next, List.forall_mem_cons] at attempts
    obtain ⟨first, others⟩ := attempts
    have other : stmt ≠ .setRecognizing := by
      rintro rfl
      exact absurd first (by decide)
    refine .accepted ?_ ?_
    · rcases app_list performed with ended | ⟨new, list, expands⟩
      · simp [ended]
      · rw [list, List.forall_mem_append]
        exact ⟨expands_attempts expands first, others⟩
    · have same : system.impl.recognizing = attempt.system.impl.recognizing :=
        (app_attempts first performed :)
      rw [same, flag]
      simp [other]

/-- Every step within the call brings it to a stage of it. -/
theorem Stage.step {attempt after : Attempt} {label : Label} (stage : Stage attempt)
    (allowed : SameCall attempt label) (moved : attempt.step parse label = some after) :
    Stage after := by
  obtain ⟨system, stepped, rfl⟩ := Option.map_eq_some_iff.mp moved
  obtain ⟨-, moves⟩ := step_moves parse attempt.system system label stepped
  cases moves with
  | call call idle => exact absurd rfl (allowed call)
  | app outcome stmt rest _ next performed =>
    have reached := stage.app next performed
    simpa [Attempt.behind, next] using reached
  | gaveUp rest exception asleep free =>
    cases stage with
    | called tail front => exact absurd (asleep.symm.trans front) (by simp)
    | passed tail front => exact absurd (asleep.symm.trans front) (by simp)
    | accepted attempts flag => exact .accepted (by simp [Attempt.behind, System.raise]) flag
  | expired condition rest asleep free met =>
    cases stage with
    | called tail front => exact absurd (asleep.symm.trans front) (by simp)
    | passed tail front => exact absurd (asleep.symm.trans front) (by simp)
    | accepted attempts flag =>
      rw [asleep, List.forall_mem_cons] at attempts
      exact .accepted attempts.2 flag
  | rejected payload cause other free => exact stage.other rfl id id
  | received payload response decoded free => exact stage.other rfl id id
  | event label stmts connection free =>
    cases connection <;> exact stage.other rfl id id
  | ws outcome stmt rest next =>
    have flag := ws_recognizing outcome { attempt.system with ws := rest } stmt
    refine stage.other (ws_app ..) (fun clear => ?_) (fun former => ?_)
    · simp only [Attempt.behind]
      rw [flag]
      simp [clear]
    · simp only [Attempt.behind, next, List.head?_cons]
      rw [flag]
      by_cases clears : stmt = .clearRecognizing
      · simp [clears]
      · simp [clears, former]
  | read ret chunk _ performed =>
    have frame := (read_frame ret chunk attempt.system system performed).1
    have same := frame.keeps (·.recognizing)
    exact stage.other frame.app same.trans same.trans
  | sender outcome _ performed =>
    have frame := (sender_frame outcome attempt.system system performed).1
    have same := frame.keeps (·.recognizing)
    exact stage.other frame.app same.trans same.trans

end Stages

/-- A statement that throws ends its call. -/
theorem app_threw {outcome : Outcome} {system after : System} {stmt : AppStmt}
    {exception : Exception} (performed : execApp outcome system stmt = some after)
    (threw : after.log = .threw exception :: system.log) : after.app = [] := by
  cases stmt <;> simp only [execApp, Option.some.injEq] at performed <;>
    (repeat' split at performed) <;> cases performed <;>
    first
    | rfl
    | exact absurd threw (by simp [System.withImpl, System.record, System.appThen, System.crash])
    | exact absurd threw (by cases outcome <;> simp [System.send])

/-- An exception ends the call that it leaves. -/
theorem step_threw {parse : Bytes → Json} {before after : System} {label : Label}
    {exception : Exception} (moved : step parse before label = some after)
    (threw : after.log = .threw exception :: before.log) : after.app = [] := by
  cases step_ends_call moved threw rfl with
  | inl application =>
    obtain ⟨outcome, stmt, rest, -, performed⟩ := application
    exact (app_threw performed threw :)
  | inr gaveUp => exact gaveUp.1

/-- From every state with a clear flag, and whatever it is given and throws, a recognition
that throws leaves the recognizer usable exactly when a handler has cleared the flag since
the recognition was accepted. -/
theorem failed_recognition_usable_iff (parse : Bytes → Json) (start : System)
    (audioSrc : Option AudioSource) (lm : Option LanguageModelList) (labels : List Label)
    (before after : Attempt) (label : Label) (exception : Exception)
    (called : start.app = recognize audioSrc lm) (clear : start.impl.recognizing = false)
    (execution : Execution (Attempt.step parse) SameCall { system := start } labels before)
    (allowed : SameCall before label) (moved : before.step parse label = some after)
    (threw : after.system.log = .threw exception :: before.system.log) :
    Usable after.system ↔ after.cleared = true := by
  have stage : Stage before :=
    execution.invariant Stage (.called _ called (by simp [AppStmt.attempts]) clear)
      fun _ _ _ stage allowed moved => stage.step allowed moved
  obtain ⟨system, stepped, rfl⟩ := Option.map_eq_some_iff.mp moved
  have ended : system.app = [] := step_threw stepped threw
  cases stage.step allowed moved with
  | called rest next => exact absurd (ended.symm.trans next) (by simp)
  | passed rest next => exact absurd (ended.symm.trans next) (by simp)
  | accepted attempts flag =>
    constructor
    · intro usable
      simpa [usable.clear] using flag
    · intro cleared
      apply Usable.of_clear
      rw [flag, cleared]
      rfl

/-- A start without a URI and without a grammar throws. -/
theorem empty_model_throws (parse : Bytes → Json) (attempt : Attempt) (rest : List AppStmt)
    (running : attempt.system.crashed = none) (next : attempt.system.app = .startRecognition :: rest)
    (empty : attempt.system.impl.lm = some {}) :
    attempt.step parse (.app .ok) = some (attempt.behind (.app .ok)
      (({ attempt.system with app := rest } : System).raise
        (.recognition ⟨.failure, bytes "lm uri and grammar body is emprty"⟩))) := by
  have none : ASRSendMessage.startRecognition {} = none := rfl
  simp [Attempt.step, step, running, next, execApp, empty, none]

/-- A late CANCELED result of the former recognition is handled while a recognition with an
empty model is under way. -/
theorem late_result_frees :
    ∃ start before after exception, Execution (step fun _ => .null) (fun _ _ => True)
        (System.create { connectOnRecognize := true, listener := [7] })
        (idleRecognition ++
          [.receive (bytes "ASR 2.4 RECOGNITION_RESULT\r\nResult-Status:CANCELED\r\n\r\n"),
            .call (.recognize none (some {}))]) start ∧
      Execution (Attempt.step fun _ => .null) SameCall { system := start }
        (application 2 ++ [.ws .ok] ++ application 6) before ∧
      before.step (fun _ => .null) (.app .ok) = some after ∧
      after.system.log = .threw exception :: before.system.log ∧ Usable after.system := by
  obtain ⟨start, execution, check⟩ := exists_execution_of_run
    (step fun _ => .null) (fun _ _ => True)
    (System.create { connectOnRecognize := true, listener := [7] })
    (idleRecognition ++
      [.receive (bytes "ASR 2.4 RECOGNITION_RESULT\r\nResult-Status:CANCELED\r\n\r\n"),
        .call (.recognize none (some {}))])
    (fun start => (start.app = recognize none (some {}) ∧ start.impl.recognizing = false) &&
      (runUnder (Attempt.step fun _ => .null) SameCall { system := start }
        (application 2 ++ [.ws .ok] ++ application 6)).any fun before =>
          before.system.crashed = none ∧ before.system.impl.lm = some {} ∧
            before.system.app = [.startRecognition, .ret (.recognize none (some {}))] ∧
            before.cleared = true) (by decide +kernel)
  obtain ⟨called, found⟩ := Bool.and_eq_true_iff.mp check
  obtain ⟨isCall, clear⟩ := of_decide_eq_true called
  obtain ⟨before, attempted, reached⟩ := exists_execution_of_run _ _ _ _ _ found
  obtain ⟨running, empty, next, cleared⟩ := of_decide_eq_true reached
  have moved := empty_model_throws (fun _ => .null) before _ running next empty
  refine ⟨start, before, _, _, execution, attempted, moved, rfl, ?_⟩
  apply (failed_recognition_usable_iff _ start none (some {}) _ before _ (.app .ok) _ isCall clear
    attempted (by simp [SameCall]) moved rfl).mpr
  simp [Attempt.behind, next, cleared]

/-- In an idle session an empty model leaves the flag set, and no later recognition is
accepted. -/
theorem empty_model_blocks :
    ¬ ∀ (parse : Bytes → Json) (properties : Properties) (former labels : List Label)
      (start : System) (audioSrc : Option AudioSource) (lm : Option LanguageModelList)
      (before after : Attempt) (label : Label) (exception : Exception),
      Execution (step parse) (fun _ _ => True) (System.create properties) former start →
        start.app = recognize audioSrc lm → start.impl.recognizing = false →
        Execution (Attempt.step parse) SameCall { system := start } labels before →
        SameCall before label → before.step parse label = some after →
        after.system.log = .threw exception :: before.system.log → Usable after.system := by
  intro always
  obtain ⟨start, execution, check⟩ := exists_execution_of_run
    (step fun _ => .null) (fun _ _ => True)
    (System.create { connectOnRecognize := true, listener := [7] })
    (idleRecognition ++ [.call (.recognize none (some {}))])
    (fun start => (start.app = recognize none (some {}) ∧ start.impl.recognizing = false) &&
      (runUnder (Attempt.step fun _ => .null) SameCall { system := start } (application 8)).any
        fun before =>
          before.system.crashed = none ∧ before.system.impl.lm = some {} ∧
            before.system.app = [.startRecognition, .ret (.recognize none (some {}))] ∧
            before.system.impl.recognizing = true) (by decide +kernel)
  obtain ⟨called, found⟩ := Bool.and_eq_true_iff.mp check
  obtain ⟨isCall, clear⟩ := of_decide_eq_true called
  obtain ⟨before, attempted, reached⟩ := exists_execution_of_run _ _ _ _ _ found
  obtain ⟨running, empty, next, recognizing⟩ := of_decide_eq_true reached
  have moved := empty_model_throws (fun _ => .null) before _ running next empty
  have usable := always _ _ _ _ start none (some {}) before _ (.app .ok) _ execution isCall clear
    attempted (by simp [SameCall]) moved rfl
  exact absurd (recognizing.symm.trans usable.clear) (by decide)

end AsrClient
