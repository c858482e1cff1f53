import AsrClient.Library.Ledger
import AsrClient.Recognizer.CancelledResults

/-!
# The results that waits hand over

A result is stored by the handler of its message, taken by a wait and returned by it. Whatever
the server sends and however the threads take turns, the results that the waits have returned
are results that were received, in their order and none of them twice.

Some are lost on the way: with those stored when a cancellation is confirmed, a recognition is
accepted or the object is built anew; with those that a wait has taken when it throws; and with
one that is stored while a wait stands between the two steps in which it takes the list and
empties it, since the handler takes no mutex. In all other steps none is lost.
-/

namespace AsrClient

open Transitions SpeechRecognizer

/-- The results that the messages have brought, in the order of the messages. -/
def broughtResults (parse : Bytes → Json) (log : List Event) : List RecognitionResult :=
  (received log).reverse.filterMap (finalResult parse)

/-- The results that waits have returned, in the order of the waits. -/
def waitedResults (log : List Event) : List RecognitionResult :=
  log.reverse.flatMap fun
    | .returned .waitRecognitionResult results => results
    | _ => []

/-- Statements of a wait that has not taken the results yet. -/
def AppStmt.precedesTake : AppStmt → Bool
  | .branchOpen => true
  | .takeResult => true
  | _ => false

/-- A wait has taken the results and has not returned. -/
def hasTaken (app : List AppStmt) : Bool :=
  .ret .waitRecognitionResult ∈ app && !app.any AppStmt.precedesTake

/-- It has not emptied the list either. -/
def isEmptying (app : List AppStmt) : Bool :=
  hasTaken app && app.head? = some .clearResult

/-- The results that a wait has taken and is to return. -/
def inHand (system : System) : List RecognitionResult :=
  if hasTaken system.app then system.taken else []

/-- The results that are stored for the next wait. -/
def inStore (system : System) : List RecognitionResult :=
  if isEmptying system.app then [] else system.impl.result

/-- The results that were handed over, and those that may still be. -/
def accounted (system : System) : List RecognitionResult :=
  waitedResults system.log ++ (inHand system ++ (inStore system ++ stores system.ws))

/-- The statement throws instead of going on. -/
def AppStmt.raises (outcome : Outcome) (impl : Impl) : AppStmt → Bool
  | .rejectActive => impl.recognizing
  | .startRecognition => impl.lm.any fun lm => (ASRSendMessage.startRecognition lm).isNone
  | .rethrow => impl.eptr.isSome
  | .init => outcome = .throws
  | .throwException _ => true
  | _ => false

/-- A step with which results are lost. -/
def discards (system : System) : Label → Bool
  | .app outcome =>
      match system.app.head? with
      | some .clearResult => !hasTaken system.app && system.impl.result ≠ []
      | some .freshImpl => system.impl.result ≠ [] &&
          !(system.impl.sendAudioMessageThread.isSome || system.impl.thread)
      | some stmt => stmt.raises outcome system.impl && hasTaken system.app && system.taken ≠ []
      | none => false
  | .ws _ =>
      match system.ws.head? with
      | some .clearResult => !isEmptying system.app && system.impl.result ≠ []
      | some (.pushResult _) => isEmptying system.app
      | _ => false
  | _ => false

/-- A wait awaits before it takes, and empties the list right behind the take and not again. -/
def TakesInOrder : List AppStmt → Prop
  | [] => True
  | .branchOpen :: rest => .clearResult ∉ rest ∧ TakesInOrder rest
  | .takeResult :: rest =>
      rest.head? = some .clearResult ∧ .clearResult ∉ rest.tail ∧ TakesInOrder rest
  | .await .result :: rest => .takeResult ∈ rest ∧ TakesInOrder rest
  | .sleep .result :: rest => .takeResult ∈ rest ∧ TakesInOrder rest
  | _ :: rest => TakesInOrder rest

/-- The statements of the application thread, as far as its waits are concerned. -/
structure Waiting (app : List AppStmt) : Prop where
  returns : ReturnsLast app
  takes : TakesInOrder app
  emptied : hasTaken app = true → .clearResult ∉ app.tail

/-- An entry that neither brings results nor hands them over. -/
def Event.movesNone : Event → Bool
  | .received _ => false
  | .returned .. => false
  | _ => true

/-- Nothing is brought and nothing is handed over. -/
structure SameLedger (parse : Bytes → Json) (log after : List Event) : Prop where
  waited : waitedResults after = waitedResults log
  brought : broughtResults parse after = broughtResults parse log

section Log

variable {parse : Bytes → Json} {log after : List Event}

/-- Such an entry leaves both. -/
theorem SameLedger.cons {event : Event} (none : event.movesNone = true) :
    SameLedger parse log (event :: log) := by
  cases event with
  | received | returned => exact absurd none Bool.false_ne_true
  | _ => exact ⟨by simp [waitedResults], rfl⟩

/-- A log that goes on with such an entry at most leaves both. -/
theorem SameLedger.of_log (grows : after = log ∨
    ∃ event, after = event :: log ∧ event.movesNone = true) : SameLedger parse log after := by
  rcases grows with rfl | ⟨event, rfl, none⟩
  · exact ⟨rfl, rfl⟩
  · exact .cons none

/-- A message brings its result. -/
theorem brought_received (response : ASRMessageResponse) :
    broughtResults parse (.received response :: log) =
      broughtResults parse log ++ (finalResult parse response).toList := by
  have latest : received (.received response :: log) = response :: received log := rfl
  rw [broughtResults, latest, List.reverse_cons, List.filterMap_append, broughtResults]
  cases brings : finalResult parse response <;> simp [brings]

/-- The return of a wait hands over what it returns. -/
theorem waited_returned (results : List RecognitionResult) :
    waitedResults (.returned .waitRecognitionResult results :: log) =
      waitedResults log ++ results := by
  simp [waitedResults]

end Log

section Order

variable {stmt : AppStmt} {new rest : List AppStmt}

/-- What is behind the first statement is still in order. -/
theorem TakesInOrder.tail (takes : TakesInOrder (stmt :: rest)) : TakesInOrder rest := by
  cases stmt with
  | branchOpen => exact takes.2
  | takeResult => exact takes.2.2
  | await condition | sleep condition => cases condition <;> first | exact takes.2 | exact takes
  | _ => exact takes

/-- Statements that no order is asked of may be put before. -/
theorem TakesInOrder.append (takes : TakesInOrder rest)
    (plain : ∀ pushed ∈ new, pushed ≠ .takeResult ∧ pushed ≠ .branchOpen ∧
      pushed ≠ .await .result ∧ pushed ≠ .sleep .result) : TakesInOrder (new ++ rest) := by
  induction new with
  | nil => exact takes
  | cons pushed new inductionHypothesis =>
    obtain ⟨⟨take, branch, await, sleep⟩, others⟩ := List.forall_mem_cons.mp plain
    have behind := inductionHypothesis others
    cases pushed with
    | takeResult => exact absurd rfl take
    | branchOpen => exact absurd rfl branch
    | await condition =>
      cases condition with
      | result => exact absurd rfl await
      | status => exact behind
    | sleep condition =>
      cases condition with
      | result => exact absurd rfl sleep
      | status => exact behind
    | _ => exact behind

/-- The statements that are put before the rest are in order, too. -/
theorem TakesInOrder.expands (takes : TakesInOrder (stmt :: rest)) (expands : stmt.Expands new) :
    TakesInOrder (new ++ rest) := by
  cases stmt with
  | branchOpen =>
    rcases expands with rfl | rfl
    · exact ⟨rfl, by simp [takes.1], takes.2⟩
    · exact ⟨by simp [takeResults], rfl, by simp [takes.1], takes.2⟩
  | await condition =>
    cases condition with
    | result =>
      rcases expands with rfl | rfl
      · exact takes.2
      · exact takes
    | status =>
      rcases expands with rfl | rfl
      · exact takes
      · exact takes
  | sleep condition =>
    obtain rfl : new = [.await condition] := expands
    cases condition <;> exact takes
  | _ =>
    refine takes.tail.append (expands_all expands (by simp) (by simp) ?_)
    first
    | exact List.forall_mem_nil _
    | decide

/-- Only the branch of a wait puts statements before the rest that take or empty. -/
theorem expands_take (expands : stmt.Expands new) (other : stmt ≠ .branchOpen) :
    new.any AppStmt.precedesTake = false ∧ .clearResult ∉ new := by
  have plain : ∀ pushed ∈ new, pushed.precedesTake = false ∧ pushed ≠ .clearResult := by
    refine expands_all expands (by simp [AppStmt.precedesTake]) (by simp [AppStmt.precedesTake]) ?_
    cases stmt with
    | branchOpen => exact absurd rfl other
    | await | sleep => simp [AppStmt.pushes, AppStmt.precedesTake]
    | _ => first | exact List.forall_mem_nil _ | decide
  exact ⟨List.any_eq_false.mpr fun pushed member => by simp [(plain pushed member).1],
    fun member => (plain _ member).2 rfl⟩

/-- Whether a wait has taken is the same behind any statement but the take and the return. -/
theorem has_taken_expands (rest : List AppStmt) (expands : stmt.Expands new)
    (take : stmt ≠ .takeResult) (ret : ∀ call, stmt ≠ .ret call) :
    hasTaken (new ++ rest) = hasTaken (stmt :: rest) := by
  by_cases branch : stmt = .branchOpen
  · subst branch
    have takes : new.any AppStmt.precedesTake = true := by
      rcases expands with rfl | rfl <;> rfl
    simp [hasTaken, List.any_append, takes, AppStmt.precedesTake]
  · have pushed : .ret .waitRecognitionResult ∉ new := fun member =>
      absurd ((expands_inner expands).1 _ member) (by decide)
    have first : stmt.precedesTake = false := by
      cases stmt <;> first | rfl | exact absurd rfl take | exact absurd rfl branch
    simp [hasTaken, List.any_append, (expands_take expands branch).1, pushed, first,
      Ne.symm (ret .waitRecognitionResult)]

/-- A statement that neither takes, nor empties, nor returns leaves the waits in order, and
stands before no emptying. -/
theorem Waiting.expands (waiting : Waiting (stmt :: rest)) (expands : stmt.Expands new)
    (take : stmt ≠ .takeResult) (ret : ∀ call, stmt ≠ .ret call) :
    Waiting (new ++ rest) ∧ isEmptying (new ++ rest) = false := by
  have same := has_taken_expands rest expands take ret
  have absent (taken : hasTaken (new ++ rest) = true) : .clearResult ∉ new ++ rest := by
    rw [same] at taken
    have branch : stmt ≠ .branchOpen := by
      rintro rfl
      simp [hasTaken, AppStmt.precedesTake] at taken
    rw [List.mem_append, not_or]
    exact ⟨(expands_take expands branch).2, waiting.emptied taken⟩
  refine ⟨⟨waiting.returns.tail.append (expands_inner expands).1, waiting.takes.expands expands,
    fun taken member => absent taken (List.mem_of_mem_tail member)⟩, ?_⟩
  rw [Bool.eq_false_iff]
  intro emptying
  simp only [isEmptying, Bool.and_eq_true, decide_eq_true_eq] at emptying
  exact absent emptying.1 (List.mem_of_mem_head? emptying.2)

/-- Behind a statement of another kind no list is about to be emptied. -/
theorem not_emptying {app : List AppStmt} (next : app = stmt :: rest)
    (other : stmt ≠ .clearResult) : isEmptying app = false := by
  simp [isEmptying, next, other]

end Order

/-- What is stored is in store, unless the list is about to be emptied. -/
theorem in_store {system : System} (unemptied : isEmptying system.app = false) :
    inStore system = system.impl.result := by
  rw [inStore, unemptied]
  rfl

/-- The turnover of results with a step. -/
abbrev Turns (parse : Bytes → Json) (before after : System) (lost : Bool) : Prop :=
  Turnover (fun system => broughtResults parse system.log) accounted before after lost

section Turns

variable {parse : Bytes → Json} {before after : System}

/-- Nothing is lost where all stays in its place, or goes from the handler to the store. -/
theorem Turns.same (ledger : SameLedger parse before.log after.log)
    (hand : inHand after = inHand before)
    (store : inStore after ++ stores after.ws = inStore before ++ stores before.ws) :
    Turns parse before after false := by
  refine .keeps [] (by rw [ledger.brought, List.append_nil]) ?_
  rw [accounted, accounted, ledger.waited, hand, store, List.append_nil]

/-- Something is lost where less is in hand or in store. -/
theorem Turns.fewer (ledger : SameLedger parse before.log after.log)
    (hand : (inHand after).Sublist (inHand before))
    (store : (inStore after ++ stores after.ws).Sublist (inStore before ++ stores before.ws))
    (fewer : (inHand after).length + (inStore after ++ stores after.ws).length <
      (inHand before).length + (inStore before ++ stores before.ws).length) :
    Turns parse before after true := by
  refine .loses ledger.brought ?_ ?_
  · rw [accounted, accounted, ledger.waited]
    exact (hand.append store).append_left _
  · rw [accounted, accounted, ledger.waited]
    simp only [List.length_append] at fewer ⊢
    omega

/-- What is taken out of the store is lost, if there is anything. -/
theorem Turns.emptied (ledger : SameLedger parse before.log after.log)
    (hand : inHand after = inHand before) (store : inStore after = [])
    (storing : stores after.ws = stores before.ws) :
    Turns parse before after (decide (inStore before ≠ [])) := by
  by_cases filled : inStore before = []
  · rw [decide_eq_false (not_not_intro filled)]
    exact .same ledger hand (by rw [store, storing, filled])
  · rw [decide_eq_true filled]
    refine .fewer ledger (hand ▸ List.Sublist.refl _) ?_ ?_
    · rw [store, storing]
      exact List.sublist_append_right ..
    · have some := List.length_pos_of_ne_nil filled
      rw [store, storing, hand]
      simp only [List.length_append, List.length_nil]
      omega

/-- What is in hand is lost with an exception, if there is anything. -/
theorem Turns.thrown (ledger : SameLedger parse before.log after.log) (hand : inHand after = [])
    (store : inStore after = inStore before) (storing : stores after.ws = stores before.ws) :
    Turns parse before after (decide (inHand before ≠ [])) := by
  by_cases filled : inHand before = []
  · rw [decide_eq_false (not_not_intro filled)]
    exact .same ledger (hand.trans filled.symm) (by rw [store, storing])
  · rw [decide_eq_true filled]
    refine .fewer ledger (hand ▸ List.nil_sublist _) (by rw [store, storing]) ?_
    have some := List.length_pos_of_ne_nil filled
    rw [hand, store, storing, List.length_nil]
    omega

end Turns

section Application

variable {parse : Bytes → Json} {outcome : Outcome} {system before after : System} {stmt : AppStmt}
  {rest : List AppStmt}

/-- A statement throws, or goes on with the rest of the call. -/
theorem app_raises (performed : execApp outcome system stmt = some after) :
    (stmt.raises outcome system.impl = true ∧ after.app = []) ∨
      (stmt.raises outcome system.impl = false ∧
        ∃ new, after.app = new ++ system.app ∧ stmt.Expands new) := by
  cases stmt <;> simp only [execApp, Option.some.injEq] at performed <;>
    (repeat' split at performed) <;> cases performed <;>
    first
    | exact Or.inl ⟨by simp [AppStmt.raises, *], rfl⟩
    | exact Or.inr ⟨by simp [AppStmt.raises, *], _, rfl, rfl⟩
    | exact Or.inr ⟨by simp [AppStmt.raises, *], _, rfl, Or.inl rfl⟩
    | exact Or.inr ⟨by simp [AppStmt.raises, *], _, rfl, Or.inr rfl⟩
    | exact Or.inr ⟨by simp [AppStmt.raises, *], _, rfl, Or.inr ⟨_, _, rfl⟩⟩

/-- A statement that does not empty the list and builds no object leaves what is stored. -/
theorem app_result (performed : execApp outcome system stmt = some after)
    (empty : stmt ≠ .clearResult) (rebuild : stmt ≠ .freshImpl) :
    after.impl.result = system.impl.result := by
  cases stmt <;> simp only [execApp, Option.some.injEq] at performed <;>
    (repeat' split at performed) <;> cases performed <;>
    first
    | rfl
    | exact absurd rfl empty
    | exact absurd rfl rebuild

/-- A statement moves no results in the log, unless it is a return. -/
theorem app_moves_none (performed : execApp outcome system stmt = some after)
    (ret : ∀ call, stmt ≠ .ret call) : SameLedger parse system.log after.log := by
  refine .of_log ((app_log performed).imp_right ?_)
  rintro ⟨event, logged, mayLog⟩
  refine ⟨event, logged, ?_⟩
  cases event with
  | received => cases stmt <;> cases outcome <;> exact absurd mayLog id
  | returned =>
    cases stmt <;> cases outcome <;>
      first
      | exact absurd mayLog id
      | exact absurd rfl (ret _)
  | _ => rfl

/-- The return of a call hands over what a wait has in hand. -/
theorem ret_turns {call : Call} (waiting : Waiting before.app)
    (next : before.app = .ret call :: rest)
    (performed : execApp outcome { before with app := rest } (.ret call) = some after) :
    Waiting after.app ∧ Turns parse before after false := by
  have returns := waiting.returns
  rw [next] at returns
  obtain rfl : rest = [] := returns
  cases performed
  have hand : inHand before = if call = .waitRecognitionResult then before.taken else [] := by
    rw [inHand, next]
    cases call <;> rfl
  have store : inStore before = before.impl.result := in_store (not_emptying next (by simp))
  refine ⟨⟨trivial, trivial, fun taken => absurd taken Bool.false_ne_true⟩, .keeps [] ?_ ?_⟩
  · exact (List.append_nil _).symm
  · rw [List.append_nil, accounted, accounted, hand, store]
    show waitedResults (.returned call _ :: before.log) ++
      ([] ++ (before.impl.result ++ stores before.ws)) = _
    by_cases wait : call = .waitRecognitionResult
    · subst wait
      rw [waited_returned, List.append_assoc]
      rfl
    · rw [if_neg wait]
      cases call <;> first | exact absurd rfl wait | simp [waitedResults]

/-- The take puts what is stored into the hand. -/
theorem take_turns (waiting : Waiting before.app) (next : before.app = .takeResult :: rest)
    (performed : execApp outcome { before with app := rest } .takeResult = some after) :
    Waiting after.app ∧ Turns parse before after false := by
  have returns := waiting.returns
  have takes := waiting.takes
  rw [next] at returns takes
  obtain ⟨emptying, once, order⟩ := takes
  cases performed
  have untaken : hasTaken before.app = false := by
    rw [next]
    simp [hasTaken, AppStmt.precedesTake]
  refine ⟨⟨returns, order, fun _ => once⟩, .keeps [] (List.append_nil _).symm ?_⟩
  have before_eq : inHand before ++ inStore before = before.impl.result := by
    rw [inHand, inStore, untaken, not_emptying next (by simp)]
    rfl
  have after_eq : inHand { before with app := rest, taken := before.impl.result } ++
      inStore { before with app := rest, taken := before.impl.result } = before.impl.result := by
    rw [inHand, inStore, isEmptying]
    cases taken : hasTaken rest
    · rfl
    · simp [emptying]
  rw [List.append_nil, accounted, accounted, ← List.append_assoc (inHand _),
    ← List.append_assoc (inHand before), before_eq]
  exact congrArg (fun held => waitedResults before.log ++ (held ++ stores before.ws)) after_eq

/-- The emptying loses what a wait has not taken. -/
theorem empty_turns (waiting : Waiting before.app) (next : before.app = .clearResult :: rest)
    (performed : execApp outcome { before with app := rest } .clearResult = some after) :
    Waiting after.app ∧ Turns parse before after (discards before (.app outcome)) := by
  have returns := waiting.returns
  have takes := waiting.takes
  have emptied := waiting.emptied
  rw [next] at returns takes emptied
  cases performed
  have same : hasTaken before.app = hasTaken rest := by
    rw [next]
    simp [hasTaken, AppStmt.precedesTake]
  have emptying : isEmptying before.app = hasTaken rest := by
    rw [isEmptying, same, next]
    simp
  refine ⟨⟨returns, takes.tail, fun taken member =>
    emptied (next ▸ same.trans taken) (List.mem_of_mem_tail member)⟩, ?_⟩
  have lost : discards before (.app outcome) = decide (inStore before ≠ []) := by
    simp only [discards, next, List.head?_cons, inStore]
    rw [← next, emptying, same]
    cases hasTaken rest <;> simp
  rw [lost]
  refine .emptied (.cons rfl) ?_ ?_ rfl
  · rw [inHand, inHand, same]
    rfl
  · rw [inStore]
    exact ite_self _

/-- A new object loses what is stored. -/
theorem rebuild_turns (waiting : Waiting before.app) (next : before.app = .freshImpl :: rest)
    (performed : execApp outcome { before with app := rest } .freshImpl = some after) :
    Waiting after.app ∧ Turns parse before after (discards before (.app outcome)) := by
  have order := waiting
  rw [next] at order
  have hand : hasTaken rest = hasTaken before.app := by
    rw [next]
    simp [hasTaken, AppStmt.precedesTake]
  have expands : AppStmt.freshImpl.Expands [] := rfl
  obtain ⟨still, unemptied⟩ := order.expands expands (by simp) (by simp)
  have store : inStore before = before.impl.result := in_store (not_emptying next (by simp))
  simp only [execApp] at performed
  split_ifs at performed with held
  · cases performed
    have lost : discards before (.app outcome) = false := by simp [discards, next, held]
    rw [lost]
    refine ⟨still, .same ⟨rfl, rfl⟩ ?_ ?_⟩
    · rw [inHand, inHand, ← hand]
      rfl
    · rw [store]
      exact congrArg (· ++ stores before.ws) (in_store unemptied)
  · cases performed
    have lost : discards before (.app outcome) = decide (inStore before ≠ []) := by
      simp [discards, next, held, store]
    rw [lost]
    refine ⟨still, .emptied ⟨rfl, rfl⟩ ?_ ?_ rfl⟩
    · rw [inHand, inHand, ← hand]
      rfl
    · rw [inStore]
      exact ite_self _

/-- Any other statement loses what is in hand if it throws. -/
theorem other_turns (waiting : Waiting before.app) (next : before.app = stmt :: rest)
    (take : stmt ≠ .takeResult) (empty : stmt ≠ .clearResult) (rebuild : stmt ≠ .freshImpl)
    (ret : ∀ call, stmt ≠ .ret call)
    (performed : execApp outcome { before with app := rest } stmt = some after) :
    Waiting after.app ∧ Turns parse before after (discards before (.app outcome)) := by
  have order := waiting
  rw [next] at order
  have ledger : SameLedger parse before.log after.log := (app_moves_none performed ret :)
  have taken : after.taken = before.taken := ((app_error_taken performed).2 take :)
  have result : after.impl.result = before.impl.result := (app_result performed empty rebuild :)
  have ws : after.ws = before.ws := (app_ws performed :)
  have store : inStore before = before.impl.result := in_store (not_emptying next empty)
  have lost : discards before (.app outcome) =
      (stmt.raises outcome before.impl && decide (inHand before ≠ [])) := by
    have unfolded : discards before (.app outcome) =
        (stmt.raises outcome before.impl && hasTaken before.app && before.taken ≠ []) := by
      cases stmt <;>
        first
        | exact absurd rfl empty
        | exact absurd rfl rebuild
        | simp only [discards, next, List.head?_cons]
    rw [unfolded, inHand]
    cases hasTaken before.app <;> simp
  rcases app_raises performed with ⟨raises, ended⟩ | ⟨goesOn, new, list, expands⟩
  · rw [lost, show stmt.raises outcome before.impl = true from raises, Bool.true_and]
    have untaken : hasTaken after.app = false := by rw [ended]; rfl
    refine ⟨ended ▸ ⟨trivial, trivial, fun taken => absurd taken Bool.false_ne_true⟩,
      .thrown ledger ?_ ?_ (by rw [ws])⟩
    · rw [inHand, untaken]
      rfl
    · rw [store, inStore, isEmptying, untaken, ← result]
      rfl
  · rw [lost, show stmt.raises outcome before.impl = false from goesOn, Bool.false_and]
    obtain ⟨still, unemptied⟩ := order.expands expands take ret
    have same := has_taken_expands rest expands take ret
    refine ⟨list ▸ still, .same ledger ?_ ?_⟩
    · rw [inHand, inHand, list, next, same, taken]
    · rw [store, inStore, list, ws, unemptied, ← result]
      rfl

/-- A statement of the application thread keeps the waits in order, and loses results only
where it discards some. -/
theorem app_turns (waiting : Waiting before.app) (next : before.app = stmt :: rest)
    (performed : execApp outcome { before with app := rest } stmt = some after) :
    Waiting after.app ∧ Turns parse before after (discards before (.app outcome)) := by
  by_cases other : stmt ≠ .takeResult ∧ stmt ≠ .clearResult ∧ stmt ≠ .freshImpl ∧
      ∀ call, stmt ≠ .ret call
  · obtain ⟨take, empty, rebuild, ret⟩ := other
    exact other_turns waiting next take empty rebuild ret performed
  · cases stmt with
    | clearResult => exact empty_turns waiting next performed
    | freshImpl => exact rebuild_turns waiting next performed
    | takeResult =>
      have lost : discards before (.app outcome) = false := by
        simp [discards, next, AppStmt.raises]
      exact lost ▸ take_turns waiting next performed
    | ret call =>
      have lost : discards before (.app outcome) = false := by
        simp [discards, next, AppStmt.raises]
      exact lost ▸ ret_turns waiting next performed
    | _ => exact absurd (by simp) other

end Application

section Handler

variable {parse : Bytes → Json} {before after : System} {label : Label}

/-- Another thread that leaves the results loses none. -/
theorem Turns.apart (ledger : SameLedger parse before.log after.log)
    (app : after.app = before.app) (taken : after.taken = before.taken)
    (result : after.impl.result = before.impl.result)
    (storing : stores after.ws = stores before.ws) : Turns parse before after false := by
  refine .same ledger ?_ ?_
  · rw [inHand, inHand, app, taken]
  · rw [inStore, inStore, app, result, storing]

/-- A statement of a handler loses a result that it stores in vain, and the results that it
discards. -/
theorem ws_turns {stmt : WsStmt} {rest : List WsStmt} (outcome : Outcome)
    (next : before.ws = stmt :: rest) :
    Turns parse before (execWs outcome { before with ws := rest } stmt)
      (discards before (.ws outcome)) := by
  have ledger :
      SameLedger parse before.log (execWs outcome { before with ws := rest } stmt).log := by
    refine .of_log (ws_logs outcome { before with ws := rest } stmt fun event background => ?_)
    cases event <;> first | rfl | exact absurd background Bool.false_ne_true
  by_cases other : stmt ≠ .clearResult ∧ ∀ result, stmt ≠ .pushResult result
  · obtain ⟨clear, push⟩ := other
    have lost : discards before (.ws outcome) = false := by
      cases stmt <;>
        first
        | exact absurd rfl clear
        | exact absurd rfl (push _)
        | simp [discards, next]
    obtain ⟨new, list, pushed⟩ := ws_list outcome { before with ws := rest } stmt
    refine lost ▸ .apart ledger (ws_app ..) ?_ ?_ ?_
    · cases stmt <;> simp only [execWs] <;> (repeat' split) <;> rfl
    · cases stmt <;> simp only [execWs] <;> (repeat' split) <;>
        first
        | rfl
        | exact absurd rfl clear
        | exact absurd rfl (push _)
    · rw [list, ((pushed_inert pushed).2 rest).1, next]
      cases stmt <;> first | rfl | exact absurd rfl (push _)
  · cases stmt with
    | clearResult =>
      have lost : discards before (.ws outcome) = decide (inStore before ≠ []) := by
        simp only [discards, next, List.head?_cons, inStore]
        by_cases emptying : isEmptying before.app = true <;> simp [emptying]
      refine lost ▸ .emptied ledger rfl (ite_self _) ?_
      rw [next]
      rfl
    | pushResult result =>
      have lost : discards before (.ws outcome) = isEmptying before.app := by
        simp [discards, next]
      have storing : stores before.ws = result :: stores rest := by rw [next]; rfl
      have store : inStore (execWs outcome { before with ws := rest } (.pushResult result)) =
          if isEmptying before.app then [] else before.impl.result ++ [result] := rfl
      rw [lost]
      cases emptying : isEmptying before.app
      · refine .same ledger rfl ?_
        rw [store, storing, emptying, inStore, emptying]
        exact List.append_assoc ..
      · refine .fewer ledger (List.Sublist.refl _) ?_ ?_
        · rw [store, storing, emptying, inStore, emptying]
          exact List.sublist_cons_self ..
        · rw [store, storing, emptying, inStore, emptying]
          exact Nat.add_lt_add_left (Nat.lt_succ_self _) _
    | _ => exact absurd (by simp) other

/-- Every step keeps the waits in order, and loses results only where it discards some. -/
theorem step_turns (waiting : Waiting before.app)
    (moved : AsrClient.step parse before label = some after) :
    Waiting after.app ∧ Turns parse before after (discards before label) := by
  obtain ⟨-, moves⟩ := step_moves parse before after label moved
  cases moves with
  | call call idle =>
    have untaken : hasTaken (program call) = false := by cases call <;> rfl
    have order : TakesInOrder (program call) := by
      cases call <;> simp [program, recognize, waitRecognitionResult, cancelRecognition, close,
        TakesInOrder]
    refine ⟨⟨(program_accepts call).1, order, fun taken =>
      absurd (untaken.symm.trans taken) Bool.false_ne_true⟩, .same (.cons rfl) ?_ ?_⟩
    · rw [inHand, inHand, idle]
      exact if_neg (by simp [System.record, untaken])
    · have unemptied : isEmptying (program call) = false := by rw [isEmptying, untaken]; rfl
      have store : inStore before = before.impl.result := in_store (idle ▸ rfl)
      rw [store]
      exact congrArg (· ++ stores before.ws) (in_store unemptied)
  | app outcome stmt rest _ next performed => exact app_turns waiting next performed
  | gaveUp rest exception asleep free =>
    -- A wait gives up before it takes.
    have takes := waiting.takes
    rw [asleep] at takes
    have untaken : hasTaken before.app = false := by
      have some : before.app.any AppStmt.precedesTake = true :=
        List.any_eq_true.mpr ⟨.takeResult, asleep ▸ List.mem_cons_of_mem _ takes.1, rfl⟩
      simp [hasTaken, some]
    refine ⟨⟨trivial, trivial, fun taken => absurd taken Bool.false_ne_true⟩,
      .same (.cons rfl) ?_ ?_⟩
    · rw [inHand, inHand, untaken]
      rfl
    · rw [inStore, inStore, isEmptying, isEmptying, untaken]
      rfl
  | expired condition rest asleep free met =>
    have order := waiting
    rw [asleep] at order
    have same : hasTaken rest = hasTaken before.app := by
      rw [asleep]
      simp [hasTaken, AppStmt.precedesTake]
    have unemptied : isEmptying rest = false := by
      rw [Bool.eq_false_iff]
      intro emptying
      simp only [isEmptying, Bool.and_eq_true, decide_eq_true_eq] at emptying
      exact order.emptied (asleep ▸ same ▸ emptying.1) (List.mem_of_mem_head? emptying.2)
    refine ⟨⟨order.returns.tail, order.takes.tail, fun taken member =>
      order.emptied (asleep ▸ same ▸ taken) (List.mem_of_mem_tail member)⟩,
      .same ⟨rfl, rfl⟩ ?_ ?_⟩
    · rw [inHand, inHand, ← same]
      rfl
    · rw [in_store (not_emptying asleep (by simp))]
      exact congrArg (· ++ stores before.ws) (in_store unemptied)
  | rejected payload cause other free =>
    exact ⟨waiting, .apart ⟨rfl, rfl⟩ rfl rfl rfl rfl⟩
  | received payload response decoded free =>
    refine ⟨waiting, .keeps (finalResult parse response).toList (brought_received response) ?_⟩
    have storing := (handler_stores parse response).1
    show waitedResults (.received response :: before.log) ++
      (inHand before ++ (inStore before ++ stores (ASRProcessMsg.handle parse response))) = _
    rw [accounted, free, storing]
    simp [waitedResults, stores]
  | event label stmts connection free =>
    refine ⟨waiting, ?_⟩
    have lost : discards before label = false := by cases connection <;> rfl
    refine lost ▸ .apart ⟨rfl, rfl⟩ rfl rfl rfl ?_
    rw [free]
    cases connection <;> rfl
  | ws outcome stmt rest next =>
    exact ⟨(ws_app ..).symm ▸ waiting, ws_turns outcome next⟩
  | read ret chunk _ performed =>
    obtain ⟨frame, log⟩ := read_frame ret chunk before after performed
    exact ⟨frame.app.symm ▸ waiting, .apart (.of_log (Or.inl log)) frame.app frame.taken
      (frame.keeps (·.result)) (by rw [frame.ws])⟩
  | sender outcome _ performed =>
    have frame := (sender_frame outcome before after performed).1
    have ledger : SameLedger parse before.log after.log :=
      .of_log (sender_logs performed (fun _ _ => rfl) fun _ _ => rfl)
    exact ⟨frame.app.symm ▸ waiting, .apart ledger frame.app frame.taken
      (frame.keeps (·.result)) (by rw [frame.ws])⟩

end Handler

/-- A recognizer under construction waits for nothing. -/
theorem create_waiting (properties : Properties) : Waiting (System.create properties).app where
  returns := by simp [System.create, resetImpl, ReturnsLast]
  takes := by simp [System.create, resetImpl, TakesInOrder]
  emptied := fun taken => absurd taken (by simp [System.create, resetImpl, hasTaken])

/-- Between two calls, with all messages handled, it accounts for what it has handed over and
for what is stored. -/
theorem accounted_at_rest {system : System} (idle : system.app = []) (handled : system.ws = []) :
    accounted system = waitedResults system.log ++ system.impl.result := by
  simp [accounted, inHand, inStore, isEmptying, hasTaken, idle, handled, stores]

/-- The results that waits return were received: together they are some of the results that
the messages have brought, in the order of the messages and none of them twice; and what is
stored between two calls is behind them. -/
theorem results_handed_over_once (parse : Bytes → Json) (properties : Properties)
    (labels : List Label) (system : System)
    (execution : Execution (step parse) (fun _ _ => True) (System.create properties) labels
      system) :
    (waitedResults system.log).Sublist (broughtResults parse system.log) ∧
      (system.app = [] → (waitedResults system.log ++ system.impl.result).Sublist
        (broughtResults parse system.log)) := by
  have among := (execution.accounts_among (fun _ _ _ => step_turns) (create_waiting properties)
    rfl).2
  constructor
  · exact (List.sublist_append_left ..).trans among
  · intro idle
    have taken : inHand system = [] := by rw [inHand, idle]; rfl
    have store : inStore system = system.impl.result := by rw [inStore, idle]; rfl
    rw [accounted, taken, store, List.nil_append, ← List.append_assoc] at among
    exact (List.sublist_append_left ..).trans among

/-- A wait hands over the result of a segment and that of the last one. -/
theorem two_segments_handed_over :
    ∃ system, Execution (step segmentBody) (fun _ _ => True)
        (System.create { connectOnRecognize := true })
        (firstRecognition 0 { uri := bytes "builtin:slm/general" } ++ handshake ++ oneSegment ++
          lastResult ++ waitAndJoin) system ∧
      (waitedResults system.log).length = 2 ∧
      (waitedResults system.log).Sublist (broughtResults segmentBody system.log) ∧
        (system.app = [] → (waitedResults system.log ++ system.impl.result).Sublist
          (broughtResults segmentBody system.log)) := by
  obtain ⟨system, execution, check⟩ := exists_execution_of_run (step segmentBody) (fun _ _ => True)
    (System.create { connectOnRecognize := true })
    (firstRecognition 0 { uri := bytes "builtin:slm/general" } ++ handshake ++ oneSegment ++
      lastResult ++ waitAndJoin)
    (fun system => (waitedResults system.log).length = 2) (by decide +kernel)
  exact ⟨system, execution, of_decide_eq_true check,
    results_handed_over_once segmentBody _ _ system execution⟩

/-- No result is lost between the messages and the application, exactly when no step of the
run discards any: a step that empties the list of what no wait has taken, stores into a list
that is about to be emptied, or throws with results in hand. -/
theorem results_kept_iff (parse : Bytes → Json) (properties : Properties) (labels : List Label)
    (system : System)
    (execution : Execution (step parse) (fun _ _ => True) (System.create properties) labels
      system) (idle : system.app = []) (handled : system.ws = []) :
    waitedResults system.log ++ system.impl.result = broughtResults parse system.log ↔
      Execution (step parse) (fun system label => discards system label = false)
        (System.create properties) labels system := by
  rw [← accounted_at_rest idle handled]
  exact execution.accounts_for_all_iff (fun _ _ _ => step_turns) (create_waiting properties) rfl

/-- A wait takes the result of a segment, and before it empties the list the last result is
stored. -/
def storedWhileTaking : List Label :=
  [.call .waitRecognitionResult] ++ application 5 ++ [.read 1 [], .sender .ok] ++ application 4 ++
    [resultMessage (bytes "{}")] ++ websocket 1 ++ application 4 ++ websocket 2

/-- Of two results one is handed over then, and the other is lost. -/
theorem stored_while_taking_lost :
    ∃ system, Execution (step segmentBody) (fun _ _ => True)
        (System.create { connectOnRecognize := true })
        (firstRecognition 0 { uri := bytes "builtin:slm/general" } ++ handshake ++ oneSegment ++
          storedWhileTaking) system ∧
      (waitedResults system.log ++ system.impl.result).length = 1 ∧
      (broughtResults segmentBody system.log).length = 2 ∧
      (waitedResults system.log ++ system.impl.result = broughtResults segmentBody system.log ↔
        Execution (step segmentBody) (fun system label => discards system label = false)
          (System.create { connectOnRecognize := true })
          (firstRecognition 0 { uri := bytes "builtin:slm/general" } ++ handshake ++ oneSegment ++
            storedWhileTaking) system) := by
  obtain ⟨system, execution, check⟩ := exists_execution_of_run (step segmentBody) (fun _ _ => True)
    (System.create { connectOnRecognize := true })
    (firstRecognition 0 { uri := bytes "builtin:slm/general" } ++ handshake ++ oneSegment ++
      storedWhileTaking)
    (fun system => (waitedResults system.log ++ system.impl.result).length = 1 ∧
      (broughtResults segmentBody system.log).length = 2 ∧ system.app = [] ∧ system.ws = [])
    (by decide +kernel)
  obtain ⟨one, two, idle, handled⟩ := of_decide_eq_true check
  exact ⟨system, execution, one, two,
    results_kept_iff segmentBody _ _ system execution idle handled⟩

end AsrClient
