import AsrClient.Recognizer.Cancellation
import AsrClient.Recognizer.ResultCallbacks

/-!
# The results of a cancelled recognition

Stored results are discarded by the handler of one message, the reply to the request for
cancellation. The result with the status CANCELED stores nothing, but it leaves what former
segments have stored. The wait asks for neither: a stored result is enough to release it,
and so is the clear flag.

A wait behind a cancellation returns no results as long as none is left when it takes them:
a result that was received is either about to be stored still, or was discarded by the
reply, or was taken before.
-/

namespace AsrClient

open Transitions SpeechRecognizer

/-- A wait that returned behind a cancellation has returned no results. -/
def NoResults (log : List Event) : Prop :=
  ∀ value former, .returned .waitRecognitionResult value :: former <:+ log →
    afterCancel former = true → value = []

/-- The reply to a cancellation that succeeded or was not needed: its handler discards the
stored results. -/
def confirmsCancel (response : ASRMessageResponse) : Bool :=
  isResponse response && replyEnding response = some .cancellation

/-- A final result is left: it was received and stored, and the list has not been emptied
since. How far the message received last has been handled is told by the statements that are
left of its handler. -/
def leftOver (parse : Bytes → Json) : List WsStmt → List Event → Bool
  | _, [] => false
  | _, .emptied :: _ => false
  | ws, .received response :: log =>
      if confirmsCancel response ∧ .clearResult ∉ ws then false
      else (finalResult parse response).isSome && stores ws = [] || leftOver parse [] log
  | ws, _ :: log => leftOver parse ws log

/-- A step with which results of a cancelled recognition reach the application: a wait takes
them, and no error is stored that it throws instead; or the application empties the list
while one is about to be stored. -/
def takesLeftOver (parse : Bytes → Json) (system : System) : Label → Bool
  | .app _ =>
      match system.app.head? with
      | some .takeResult => afterCancel system.log && system.impl.eptr.isNone &&
          leftOver parse system.ws system.log
      | some .clearResult => stores system.ws ≠ []
      | _ => false
  | _ => false

/-- The step is none of these. -/
def LeavesNone (parse : Bytes → Json) (system : System) (label : Label) : Prop :=
  takesLeftOver parse system label = false

instance (parse : Bytes → Json) (system : System) (label : Label) :
    Decidable (LeavesNone parse system label) :=
  inferInstanceAs (Decidable (_ = _))

/-- The statements of the application thread that matter for what a wait returns. -/
def AppStmt.waits : AppStmt → Bool
  | .branchOpen => true
  | .takeResult => true
  | .rethrow => true
  | .resetIfAutoClose => true
  | .freshImpl => true
  | .clearEptr => true
  | .ret .waitRecognitionResult => true
  | _ => false

/-- The positions of the application thread, by the statements before it that matter: behind
a cancellation a wait has taken nothing, or it is about to throw. -/
inductive WaitPosition (system : System) : List AppStmt → Prop where
  | building : WaitPosition system [.freshImpl]
  | idle : WaitPosition system []
  | recognize : WaitPosition system [.clearEptr]
  | branch : WaitPosition system [.branchOpen, .ret .waitRecognitionResult]
  | take : WaitPosition system
      [.takeResult, .rethrow, .resetIfAutoClose, .ret .waitRecognitionResult]
  | rethrow (none : afterCancel system.log = true →
      system.impl.eptr.isSome = true ∨ system.taken = []) :
      WaitPosition system [.rethrow, .resetIfAutoClose, .ret .waitRecognitionResult]
  | reset (none : afterCancel system.log = true → system.taken = []) :
      WaitPosition system [.resetIfAutoClose, .ret .waitRecognitionResult]
  | rebuild (none : afterCancel system.log = true → system.taken = []) :
      WaitPosition system [.freshImpl, .ret .waitRecognitionResult]
  | ret (none : afterCancel system.log = true → system.taken = []) :
      WaitPosition system [.ret .waitRecognitionResult]

/-- The list holds only results that are left, and a handler stores at most one. -/
structure Holding (parse : Bytes → Json) (system : System) : Prop where
  stored : system.impl.result ≠ [] → leftOver parse system.ws system.log = true
  single : (stores system.ws).length ≤ 1
  storing : stores system.ws ≠ [] → leftOver parse [] system.log = true

/-- The invariant of a run whose waits behind a cancellation find nothing left. -/
structure LeftNone (parse : Bytes → Json) (system : System) : Prop where
  holding : Holding parse system
  returns : ReturnsLast system.app
  position : WaitPosition system (system.app.filter AppStmt.waits)
  empty : NoResults system.log

/-- A log goes on with at most one entry, which is no return. -/
def NoReturn (log after : List Event) : Prop :=
  after = log ∨ ∃ event, after = event :: log ∧ ∀ call value, event ≠ .returned call value

section Log

variable {log after : List Event}

/-- Without a return no cancellation is added. -/
theorem NoReturn.behind (noReturn : NoReturn log after) (behind : afterCancel after = true) :
    afterCancel log = true := by
  rcases noReturn with rfl | ⟨event, rfl, other⟩
  · exact behind
  · exact after_cancel_cons event log behind fun value => other _ value

/-- An entry that returns no wait leaves what waits have returned. -/
theorem NoResults.cons (empty : NoResults log) {event : Event}
    (other : ∀ value, event ≠ .returned .waitRecognitionResult value) : NoResults (event :: log) := by
  intro value former suffix behind
  cases List.suffix_cons_iff.mp suffix with
  | inl same =>
    exact absurd (List.cons.inj same).1.symm (other value)
  | inr earlier =>
    exact empty value former earlier behind

/-- Without a return they are the same. -/
theorem NoResults.continue (empty : NoResults log) (noReturn : NoReturn log after) :
    NoResults after := by
  rcases noReturn with rfl | ⟨event, rfl, other⟩
  · exact empty
  · exact empty.cons fun value => other _ value

variable {parse : Bytes → Json} {ws ws' : List WsStmt}

/-- Of the handler's statements, only those that store and discard matter. -/
theorem left_over_congr (storing : stores ws' = stores ws)
    (discarding : .clearResult ∈ ws' ↔ .clearResult ∈ ws) (log : List Event) :
    leftOver parse ws' log = leftOver parse ws log := by
  induction log with
  | nil => rfl
  | cons event log inductionHypothesis =>
    cases event with
    | received response => simp only [leftOver, storing, discarding]
    | emptied => rfl
    | _ => exact inductionHypothesis

/-- A result that is left is left behind every handler that does not store any more. -/
theorem left_over_stored (storing : stores ws = []) (left : leftOver parse [] log = true) :
    leftOver parse ws log = true := by
  induction log with
  | nil => exact left
  | cons event log inductionHypothesis =>
    cases event with
    | received response =>
      rw [leftOver] at left ⊢
      split_ifs at left with confirmed
      have unconfirmed : ¬ confirmsCancel response = true := by
        intro confirms
        exact confirmed ⟨confirms, by simp⟩
      rw [if_neg (fun both => unconfirmed both.1), storing]
      exact left
    | emptied => exact left
    | _ => exact inductionHypothesis left

end Log

section Handler

variable {parse : Bytes → Json} {response : ASRMessageResponse}

/-- The handler of the confirmed reply discards, and the reply brings no result. -/
theorem confirms_discards (confirms : confirmsCancel response = true) :
    .clearResult ∈ ASRProcessMsg.handle parse response ∧ finalResult parse response = none := by
  simp only [confirmsCancel, Bool.and_eq_true, decide_eq_true_eq] at confirms
  obtain ⟨kind, cancellation⟩ := confirms
  rw [isResponse] at kind
  unfold ASRProcessMsg.handle finalResult
  cases word : methodWord response with
  | none => simp [word] at kind
  | some method =>
    simp only [word] at kind ⊢
    rw [if_pos kind, if_pos kind]
    refine ⟨?_, rfl⟩
    simp only [replyEnding] at cancellation
    split_ifs at cancellation with starts success cancels confirmed
    · cases cancellation
    · rw [ASRProcessResponse.handle, dispatch_cancel response cancels,
        ASRProcessResponse.cancelRecog, if_pos confirmed]
      simp

end Handler

section Holding

variable {parse : Bytes → Json} {before after : System}

/-- A plain entry leaves what is left. -/
theorem PlainStep.left_over {log after : List Event} (plain : PlainStep log after)
    (ws : List WsStmt) : leftOver parse ws after = leftOver parse ws log := by
  rcases plain with rfl | ⟨event, rfl, isPlain⟩
  · rfl
  · cases event <;> first | rfl | exact absurd isPlain Bool.false_ne_true

/-- A step that neither stores nor discards keeps what is held; it may empty the list. -/
theorem Holding.continue (holding : Holding parse before)
    (log : ∀ ws, leftOver parse ws after.log = leftOver parse ws before.log)
    (result : after.impl.result = before.impl.result ∨ after.impl.result = [])
    (storing : stores after.ws = stores before.ws)
    (discarding : .clearResult ∈ after.ws ↔ .clearResult ∈ before.ws) : Holding parse after where
  stored filled := by
    cases result with
    | inl same =>
      rw [log, left_over_congr storing discarding]
      exact holding.stored (same ▸ filled)
    | inr empty =>
      exact absurd empty filled
  single := storing ▸ holding.single
  storing pending := by
    rw [log]
    exact holding.storing (storing ▸ pending)

/-- The receipt of a message keeps what is held: what it brings is about to be stored, and
what it discards is still there. -/
theorem Holding.received (holding : Holding parse before) (free : before.ws = [])
    (response : ASRMessageResponse) :
    Holding parse (({ before with ws := ASRProcessMsg.handle parse response } : System).record
      (.received response)) := by
  have storing := (handler_stores parse response).1
  constructor
  · intro filled
    have left := holding.stored filled
    rw [free] at left
    have undone : ¬ (confirmsCancel response = true ∧
        .clearResult ∉ ASRProcessMsg.handle parse response) :=
      fun both => both.2 (confirms_discards both.1).1
    show leftOver parse (ASRProcessMsg.handle parse response) (.received response :: before.log) = true
    rw [leftOver, if_neg undone, left, Bool.or_true]
  · show (stores (ASRProcessMsg.handle parse response)).length ≤ 1
    rw [storing]
    exact Option.length_toList_le
  · intro pending
    have brings : (finalResult parse response).isSome = true := by
      rw [Option.isSome_iff_ne_none]
      intro none
      exact pending (storing.trans (by simp [none]))
    have unconfirmed : ¬ confirmsCancel response = true := by
      intro confirms
      rw [(confirms_discards confirms).2] at brings
      exact absurd brings Bool.false_ne_true
    show leftOver parse [] (.received response :: before.log) = true
    rw [leftOver, if_neg (fun both => unconfirmed both.1), brings]
    rfl

/-- A statement of a handler keeps what is held. -/
theorem Holding.ws (holding : Holding parse before) (outcome : Outcome) (stmt : WsStmt)
    (rest : List WsStmt) (next : before.ws = stmt :: rest) :
    Holding parse (execWs outcome { before with ws := rest } stmt) := by
  by_cases other : stmt.clears = false ∧ ∀ result, stmt ≠ .pushResult result
  · obtain ⟨keeps, notPush⟩ := other
    obtain ⟨plain, -, result⟩ := ws_plain outcome { before with ws := rest } stmt keeps notPush
    obtain ⟨new, list, pushed⟩ := ws_list outcome { before with ws := rest } stmt
    obtain ⟨inert, same⟩ := pushed_inert pushed
    refine holding.continue plain.left_over (Or.inl result) ?_ ?_
    · rw [list, (same rest).1, next]
      cases stmt <;> first | rfl | exact absurd rfl (notPush _)
    · have unlike : ¬ .clearResult = stmt := by
        rintro rfl
        exact absurd keeps (by decide)
      have absent : .clearResult ∉ new := by
        intro member
        exact absurd (inert _ member) (by decide)
      rw [list, next]
      simp [unlike, absent]
  · obtain ⟨stored, single, storing⟩ := holding
    rw [next] at stored single storing
    cases stmt with
    | pushResult result =>
      have none : stores rest = [] := by simpa [stores] using single
      have left := storing (by simp [stores])
      exact ⟨fun _ => left_over_stored none left, by simp [execWs, System.withImpl, none],
        fun pending => absurd none pending⟩
    | clearResult => exact ⟨fun filled => absurd rfl filled, single, storing⟩
    | clearRecognizing =>
      have same : leftOver parse rest before.log =
          leftOver parse (.clearRecognizing :: rest) before.log := by
        apply left_over_congr
        · rfl
        · simp
      exact ⟨fun filled => same.trans (stored filled), single, storing⟩
    | _ => exact absurd ⟨rfl, by simp⟩ other

/-- A statement of the application thread keeps what is held. -/
theorem Holding.app (holding : Holding parse before) (outcome : Outcome) (stmt : AppStmt)
    (rest : List AppStmt) (next : before.app = stmt :: rest)
    (allowed : LeavesNone parse before (.app outcome))
    (performed : execApp outcome { before with app := rest } stmt = some after) :
    Holding parse after := by
  have ws : after.ws = before.ws := (app_ws performed :)
  by_cases other : stmt ≠ .setRecognizing ∧ stmt ≠ .clearResult ∧ stmt ≠ .freshImpl
  · obtain ⟨accept, empty, rebuild⟩ := other
    obtain ⟨plain, -, result⟩ := app_plain performed accept empty rebuild
    exact holding.continue plain.left_over (Or.inl result) (by rw [ws]) (by rw [ws])
  · cases stmt with
    | setRecognizing =>
      cases performed
      exact holding.continue (fun _ => rfl) (Or.inl rfl) rfl Iff.rfl
    | clearResult =>
      cases performed
      have none : stores before.ws = [] := by
        simpa [LeavesNone, takesLeftOver, next] using allowed
      exact ⟨fun filled => absurd rfl filled, holding.single, fun pending => absurd none pending⟩
    | freshImpl =>
      simp only [execApp] at performed
      split_ifs at performed <;> cases performed
      · exact holding.continue (fun _ => rfl) (Or.inl rfl) rfl Iff.rfl
      · exact holding.continue (fun _ => rfl) (Or.inr rfl) rfl Iff.rfl
    | _ => exact absurd (by simp) other

end Holding

section Position

variable {parse : Bytes → Json} {outcome : Outcome} {before after : System} {stmt : AppStmt}
  {rest list : List AppStmt}

/-- A step that takes nothing and keeps a stored error leaves the position. -/
theorem WaitPosition.steady (position : WaitPosition before list)
    (noReturn : NoReturn before.log after.log)
    (failed : before.impl.eptr.isSome = true → after.impl.eptr.isSome = true)
    (taken : after.taken = before.taken) : WaitPosition after list := by
  have still (none : afterCancel before.log = true → before.taken = []) :
      afterCancel after.log = true → after.taken = [] := by
    rw [taken]
    exact fun behind => none (noReturn.behind behind)
  cases position with
  | building => exact .building
  | idle => exact .idle
  | recognize => exact .recognize
  | branch => exact .branch
  | take => exact .take
  | rethrow none =>
    refine .rethrow fun behind => ?_
    rw [taken]
    exact (none (noReturn.behind behind)).imp failed id
  | reset none => exact .reset (still none)
  | rebuild none => exact .rebuild (still none)
  | ret none => exact .ret (still none)

/-- A statement that matters for nothing puts no statement that matters before the rest. -/
theorem expands_waits {new : List AppStmt} (expands : stmt.Expands new)
    (immaterial : stmt.waits = false) : new.filter AppStmt.waits = [] := by
  apply List.filter_eq_nil_iff.mpr
  refine expands_all expands (by simp [AppStmt.waits]) (by simp [AppStmt.waits]) ?_
  cases stmt with
  | branchOpen | resetIfAutoClose => exact absurd immaterial (by decide)
  | await | sleep => simp [AppStmt.pushes, AppStmt.waits]
  | _ => first | exact List.forall_mem_nil _ | decide

/-- A statement of the application thread returns nothing, unless it is a return. -/
theorem app_no_return (performed : execApp outcome before stmt = some after)
    (other : ∀ call, stmt ≠ .ret call) : NoReturn before.log after.log := by
  rcases app_log performed with same | ⟨event, logged, mayLog⟩
  · exact Or.inl same
  · refine Or.inr ⟨event, logged, ?_⟩
    rintro call value rfl
    cases stmt <;> cases outcome <;> first | exact mayLog | exact other _ rfl

/-- What a wait takes behind a cancellation is nothing, unless an error is stored. -/
theorem Holding.taken (holding : Holding parse before) (next : before.app = .takeResult :: rest)
    (allowed : LeavesNone parse before (.app outcome)) (behind : afterCancel before.log = true) :
    before.impl.eptr.isSome = true ∨ before.impl.result = [] := by
  by_contra neither
  rw [not_or] at neither
  have left := holding.stored neither.2
  have none : before.impl.eptr.isNone = true := by simpa using neither.1
  simp [LeavesNone, takesLeftOver, next, behind, none, left] at allowed

/-- A statement that matters leads a wait to its next position. -/
theorem WaitPosition.app_waits (holding : Holding parse before) (next : before.app = stmt :: rest)
    (tail : rest.filter AppStmt.waits = list) (position : WaitPosition before (stmt :: list))
    (other : ∀ call, stmt ≠ .ret call) (allowed : LeavesNone parse before (.app outcome))
    (performed : execApp outcome { before with app := rest } stmt = some after) :
    WaitPosition after (after.app.filter AppStmt.waits) := by
  have arrive {system : System} {stmts : List AppStmt} (reached : WaitPosition system stmts)
      (shape : system.app.filter AppStmt.waits = stmts) :
      WaitPosition system (system.app.filter AppStmt.waits) := shape ▸ reached
  cases position with
  | building =>
    simp only [execApp] at performed
    split_ifs at performed <;> cases performed <;> exact arrive .idle tail
  | recognize =>
    cases performed
    exact arrive .idle tail
  | branch =>
    have shape (new : List AppStmt)
        (waits : new.filter AppStmt.waits = [.takeResult, .rethrow, .resetIfAutoClose]) :
        (new ++ rest).filter AppStmt.waits =
          [.takeResult, .rethrow, .resetIfAutoClose, .ret .waitRecognitionResult] := by
      rw [List.filter_append, waits, tail]
      rfl
    simp only [execApp] at performed
    split_ifs at performed <;> cases performed
    · exact arrive .take (shape _ (by decide))
    · exact arrive .take (shape _ (by decide))
  | take =>
    cases performed
    exact arrive (.rethrow (holding.taken next allowed)) tail
  | rethrow none =>
    simp only [execApp] at performed
    split at performed
    · rename_i empty
      cases performed
      refine arrive (.reset fun behind => (none behind).resolve_left ?_) tail
      rw [show before.impl.eptr = .none from empty]
      exact Bool.false_ne_true
    · cases performed
      exact .idle
  | reset none =>
    simp only [execApp] at performed
    split_ifs at performed <;> cases performed
    · refine arrive (.rebuild none) ?_
      show (resetImpl ++ rest).filter AppStmt.waits = _
      rw [List.filter_append, tail]
      rfl
    · exact arrive (.ret none) tail
  | rebuild none =>
    simp only [execApp] at performed
    split_ifs at performed <;> cases performed <;> exact arrive (.ret none) tail
  | ret none => exact absurd rfl (other _)

/-- A statement of the application thread leads a wait to its next position. -/
theorem WaitPosition.app (holding : Holding parse before)
    (position : WaitPosition before (before.app.filter AppStmt.waits))
    (returns : ReturnsLast before.app) (next : before.app = stmt :: rest)
    (allowed : LeavesNone parse before (.app outcome))
    (performed : execApp outcome { before with app := rest } stmt = some after) :
    WaitPosition after (after.app.filter AppStmt.waits) := by
  by_cases isReturn : ∃ call, stmt = .ret call
  · obtain ⟨call, rfl⟩ := isReturn
    obtain rfl : rest = [] := by rwa [next] at returns
    cases performed
    exact .idle
  rw [not_exists] at isReturn
  rw [next] at position
  cases waits : stmt.waits with
  | true =>
    rw [List.filter_cons_of_pos waits] at position
    exact position.app_waits holding next rfl isReturn allowed performed
  | false =>
    rw [List.filter_cons_of_neg (by simp [waits])] at position
    rcases app_list performed with empty | ⟨new, shape, expands⟩
    · rw [empty]
      exact .idle
    have unlike {material : AppStmt} (matters : material.waits = true) : stmt ≠ material := by
      rintro rfl
      exact absurd (matters.symm.trans waits) (by decide)
    obtain ⟨failed, taken⟩ := app_error_taken performed
    rw [shape, List.filter_append, expands_waits expands waits]
    exact position.steady (app_no_return performed isReturn :) (failed (unlike rfl) (unlike rfl))
      (taken (unlike rfl))

end Position

section Run

variable {parse : Bytes → Json} {before after : System}

/-- A handler returns nothing to the application. -/
theorem ws_no_return (outcome : Outcome) (system : System) (stmt : WsStmt) :
    NoReturn system.log (execWs outcome system stmt).log := by
  apply ws_logs
  rintro event background call value rfl
  exact absurd background Bool.false_ne_true

/-- A return keeps the waits behind a cancellation empty: a wait returns what it has taken. -/
theorem LeftNone.app (leftNone : LeftNone parse before) (outcome : Outcome) (stmt : AppStmt)
    (rest : List AppStmt) (next : before.app = stmt :: rest)
    (allowed : LeavesNone parse before (.app outcome))
    (performed : execApp outcome { before with app := rest } stmt = some after) :
    LeftNone parse after := by
  obtain ⟨holding, returns, position, empty⟩ := leftNone
  refine ⟨holding.app outcome stmt rest next allowed performed, ?_,
    position.app holding returns next allowed performed, ?_⟩
  · rcases app_list performed with ended | ⟨new, shape, expands⟩
    · rw [ended]
      trivial
    · rw [shape]
      exact (ReturnsLast.tail (next ▸ returns)).append (expands_inner expands).1
  · by_cases isReturn : ∃ call, stmt = .ret call
    · obtain ⟨call, rfl⟩ := isReturn
      cases performed
      cases call with
      | waitRecognitionResult =>
        obtain rfl : rest = [] := by rwa [next] at returns
        rw [next] at position
        intro value former suffix behind
        cases List.suffix_cons_iff.mp suffix with
        | inl same =>
          obtain ⟨entry, rfl⟩ := List.cons.inj same
          obtain ⟨-, rfl⟩ := Event.returned.inj entry
          cases position with
          | ret none => exact none behind
        | inr earlier =>
          exact empty value former earlier behind
      | _ => exact empty.cons (by simp)
    · rw [not_exists] at isReturn
      exact empty.continue (app_no_return performed isReturn :)

/-- A step of another thread keeps the invariant. -/
theorem LeftNone.steady (leftNone : LeftNone parse before) (holding : Holding parse after)
    (noReturn : NoReturn before.log after.log)
    (failed : before.impl.eptr.isSome = true → after.impl.eptr.isSome = true)
    (taken : after.taken = before.taken) (app : after.app = before.app) : LeftNone parse after where
  holding := holding
  returns := app ▸ leftNone.returns
  position := by
    rw [app]
    exact leftNone.position.steady noReturn failed taken
  empty := leftNone.empty.continue noReturn

/-- Every allowed step keeps the invariant. -/
theorem LeftNone.step {label : Label} (leftNone : LeftNone parse before)
    (allowed : LeavesNone parse before label) (moved : step parse before label = some after) :
    LeftNone parse after := by
  obtain ⟨-, moves⟩ := step_moves parse before after label moved
  have holding := leftNone.holding
  -- A step that logs a plain entry, and leaves the list and the handlers to the other threads.
  have logs {system : System} (plain : PlainStep before.log system.log)
      (result : system.impl.result = before.impl.result) (ws : system.ws = before.ws) :
      Holding parse system :=
    holding.continue plain.left_over (Or.inl result) (by rw [ws]) (by rw [ws])
  cases moves with
  | call call idle =>
    refine ⟨logs (Or.inr ⟨_, rfl, rfl⟩) rfl rfl, (program_accepts call).1, ?_,
      leftNone.empty.cons (by simp)⟩
    cases call with
    | recognize audioSrc lm => exact .recognize
    | waitRecognitionResult => exact .branch
    | cancelRecognition => exact .idle
    | close => exact .idle
  | app outcome stmt rest _ next performed =>
    exact leftNone.app outcome stmt rest next allowed performed
  | gaveUp rest exception asleep free =>
    exact ⟨logs (Or.inr ⟨_, rfl, rfl⟩) rfl rfl, trivial, .idle, leftNone.empty.cons (by simp)⟩
  | expired condition rest asleep free met =>
    refine ⟨logs (Or.inl rfl) rfl rfl, ReturnsLast.tail (asleep ▸ leftNone.returns), ?_,
      leftNone.empty⟩
    have position := leftNone.position
    rw [asleep, List.filter_cons_of_neg (by simp [AppStmt.waits])] at position
    exact position.steady (Or.inl rfl) id rfl
  | rejected payload cause other free =>
    exact leftNone.steady (logs (Or.inl rfl) rfl rfl) (Or.inl rfl) id rfl rfl
  | received payload response decoded free =>
    exact leftNone.steady (holding.received free response) (Or.inr ⟨_, rfl, by simp⟩) id rfl rfl
  | event label stmts connection free =>
    refine leftNone.steady (holding.continue (fun _ => rfl) (Or.inl rfl) ?_ ?_) (Or.inl rfl) id rfl rfl
    · rw [free]
      exact (connection_inert connection).1
    · rw [free]
      cases connection <;> simp
  | ws outcome stmt rest next =>
    have popped : Steady parse { before with ws := rest } _ := ws_steady outcome _ stmt
    exact leftNone.steady (holding.ws outcome stmt rest next) (ws_no_return ..) popped.failed
      popped.taken (ws_app ..)
  | read ret chunk _ performed =>
    obtain ⟨frame, log⟩ := read_frame ret chunk before after performed
    have steady : Steady parse before after := read_steady performed
    exact leftNone.steady (logs (Or.inl log) (frame.keeps (·.result)) frame.ws) (Or.inl log)
      steady.failed steady.taken frame.app
  | sender outcome _ performed =>
    have frame := (sender_frame outcome before after performed).1
    have steady : Steady parse before after := sender_steady performed
    exact leftNone.steady (logs (sender_plain performed) (frame.keeps (·.result)) frame.ws)
      (sender_logs performed (by simp) (by simp)) steady.failed steady.taken frame.app

end Run

/-- A run in which no wait behind a cancellation takes a result that is left: every wait that
returns behind a cancellation returns no results. -/
theorem cancelled_waits_empty (parse : Bytes → Json) (properties : Properties)
    (labels : List Label) (system : System)
    (execution : Execution (step parse) (LeavesNone parse) (System.create properties) labels system) :
    NoResults system.log := by
  have leftNone : LeftNone parse system :=
    execution.invariant (LeftNone parse)
      ⟨⟨by simp [System.create], by simp [System.create, stores], by simp [System.create, stores]⟩,
        by simp [System.create, resetImpl, ReturnsLast], .building,
        fun _ _ suffix => absurd (List.suffix_nil.mp suffix) (by simp)⟩
      fun before label after leftNone allowed moved => leftNone.step allowed moved
  exact leftNone.empty

/-- A wait whose sender was joined by the cancellation. -/
def waitBehindCancel : List Label := [.call .waitRecognitionResult] ++ application 11

/-- The first segment is discarded by the reply to the cancellation, and the wait that follows
returns no results. -/
theorem replied_cancellation_empty :
    ∃ system former, Execution (step segmentBody) (LeavesNone segmentBody)
        (System.create { connectOnRecognize := true })
        (firstRecognition 0 { uri := bytes "builtin:slm/general" } ++ handshake ++ oneSegment ++
          cancelAndJoin ++ [reply .cancelRecognition "SUCCESS"] ++ websocket 2 ++
          waitBehindCancel.dropLast ++ [.app .ok]) system ∧
      afterCancel former = true ∧ system.log = .returned .waitRecognitionResult [] :: former := by
  obtain ⟨before, execution, check⟩ := exists_execution_of_run
    (step segmentBody) (LeavesNone segmentBody) (System.create { connectOnRecognize := true })
    (firstRecognition 0 { uri := bytes "builtin:slm/general" } ++ handshake ++ oneSegment ++
      cancelAndJoin ++ [reply .cancelRecognition "SUCCESS"] ++ websocket 2 ++
      waitBehindCancel.dropLast)
    (fun before => before.crashed = none ∧ before.app = [.ret .waitRecognitionResult] ∧
      afterCancel before.log = true) (by decide +kernel)
  obtain ⟨running, next, behind⟩ := of_decide_eq_true check
  have moved := step_returns segmentBody before running next
  have whole := execution.snoc _ before _ (.app .ok)
    (by simp [LeavesNone, takesLeftOver, next]) moved
  have empty := cancelled_waits_empty segmentBody _ _ _ whole before.taken before.log
    List.suffix_rfl behind
  refine ⟨_, before.log, whole, behind, ?_⟩
  rw [← empty]
  rfl

/-- The application makes this call. -/
def isCall (call : Call) : Label → Bool
  | .call other => other = call
  | _ => false

/-- When the wait comes before the reply, it returns the first segment: in a run with a single
recognition, a single cancellation and a single wait. -/
theorem cancelled_segment_returned :
    ¬ ∀ (parse : Bytes → Json) (properties : Properties) (labels : List Label) (system : System),
      labels.countP isRecognize = 1 → labels.countP (isCall .cancelRecognition) = 1 →
        labels.countP (isCall .waitRecognitionResult) = 1 →
        Execution (step parse) (fun _ _ => True) (System.create properties) labels system →
          NoResults system.log := by
  intro always
  obtain ⟨before, execution, check⟩ := exists_execution_of_run
    (step segmentBody) (fun _ _ => True) (System.create { connectOnRecognize := true })
    (firstRecognition 0 { uri := bytes "builtin:slm/general" } ++ handshake ++ oneSegment ++
      cancelAndJoin ++ waitBehindCancel.dropLast)
    (fun before => before.crashed = none ∧ before.app = [.ret .waitRecognitionResult] ∧
      afterCancel before.log = true ∧ before.taken ≠ []) (by decide +kernel)
  obtain ⟨running, next, behind, taken⟩ := of_decide_eq_true check
  have moved := step_returns segmentBody before running next
  have empty := always segmentBody _ _ _ (by decide) (by decide) (by decide)
    (.snoc _ before _ (.app .ok) execution trivial moved)
  exact taken (empty before.taken before.log List.suffix_rfl behind)

end AsrClient
