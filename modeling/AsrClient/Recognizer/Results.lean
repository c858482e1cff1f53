import AsrClient.Recognizer.AudioThread
import AsrClient.Recognizer.Release

/-!
# The results of a wait

A wait for the result ends when a result is stored, when an error is, or when the flag is
clear. The first of these is true from the first segment on. The websocket thread stores
a result before it clears the flag, in separate steps and without the mutex, so that a
wait may end between the two even for the last segment.

A wait that is not woken by a stored result while the flag is set returns what the
recognition has brought: all its results, in the order of their arrival.
-/

namespace AsrClient

open Transitions SpeechRecognizer

/-- The result of a final segment, or the status of a result without a body. -/
def segmentResult (parse : Bytes → Json) (response : ASRMessageResponse) :
    Option RecognitionResult :=
  let json := parse response.extra
  if ASRProcessResult.canceled response then none
  else if response.extra = [] then some (.ofString (ASRProcessResult.resultStatus response))
  else if ASRProcessResult.finalResult response json then
    some (ASRProcessResult.withTimes json (recognitionResultFromJson json))
  else none

/-- The result that a message brings, if any. -/
def finalResult (parse : Bytes → Json) (response : ASRMessageResponse) : Option RecognitionResult :=
  match methodWord response with
  | none => none
  | some method =>
      if contains method (getMethodString .response) then none
      else if contains method (getMethodString .recognitionResult) then segmentResult parse response
      else none

/-- The results received since the last accepted recognition, in the order of their
arrival. -/
def finalResults (parse : Bytes → Json) : List Event → List RecognitionResult
  | [] => []
  | .accepted :: _ => []
  | .received response :: log => finalResults parse log ++ (finalResult parse response).toList
  | _ :: log => finalResults parse log

/-- A recognition was accepted, and no cancellation was received since. -/
def uncancelled (parse : Bytes → Json) : List Event → Bool
  | [] => false
  | .accepted :: _ => true
  | .received response :: log =>
      ending parse response ≠ some .cancellation && uncancelled parse log
  | _ :: log => uncancelled parse log

/-- How often the application has emptied the list of results since the last accepted
recognition: the recognition does it once, and each wait that takes the results. -/
def emptyings : List Event → Nat
  | [] => 0
  | .accepted :: _ => 0
  | .emptied :: log => emptyings log + 1
  | _ :: log => emptyings log

/-- Statements that end a recognition or drop its results. -/
def WsStmt.clears : WsStmt → Bool
  | .clearResult => true
  | .clearRecognizing => true
  | _ => false

/-- A step with which a wait may miss a result: the wait finds one while the flag is set, or
it is not on the open connection, or an earlier wait has taken the results; a result
arrives while no recognition runs that has emptied the list; or a recognition is accepted
while a handler is about to clear. -/
def cutsShort (parse : Bytes → Json) (system : System) : Label → Bool
  | .call call => call = .waitRecognitionResult && 1 < emptyings system.log
  | .app _ =>
      match system.app.head? with
      | some .setRecognizing => system.ws.any WsStmt.clears
      | some .branchOpen => !system.impl.isOpen
      | some (.await .result) => system.impl.recognizing && system.impl.result ≠ []
      | _ => false
  | .timeout => system.impl.recognizing && system.impl.result ≠ []
  | .receive payload =>
      match ASRMessageResponse.consume payload with
      | .ok response => (finalResult parse response).isSome &&
          !(inProgress parse system.log && emptyings system.log = 1)
      | .error _ => false
  | _ => false

/-- The step is none of these. -/
def WaitsForEnd (parse : Bytes → Json) (system : System) (label : Label) : Prop :=
  cutsShort parse system label = false

instance (parse : Bytes → Json) (system : System) (label : Label) :
    Decidable (WaitsForEnd parse system label) :=
  inferInstanceAs (Decidable (_ = _))

/-- The results that the websocket thread has still to store. -/
def stores (stmts : List WsStmt) : List RecognitionResult :=
  stmts.filterMap fun
    | .pushResult result => some result
    | _ => none

/-- Nothing is stored behind the statement that clears the flag. -/
def StoresFirst : List WsStmt → Prop
  | [] => True
  | .clearRecognizing :: rest => stores rest = []
  | _ :: rest => StoresFirst rest

/-- What the messages have brought is stored or about to be, and the flag is set as long
as the recognition runs. -/
structure Collecting (parse : Bytes → Json) (system : System) : Prop where
  running : inProgress parse system.log = true → system.impl.recognizing = true
  ended : .clearRecognizing ∈ system.ws → inProgress parse system.log = false
  cancelled : .clearResult ∈ system.ws → uncancelled parse system.log = false
  storing : stores system.ws ≠ [] → system.impl.recognizing = true
  order : StoresFirst system.ws
  early : emptyings system.log = 0 → uncancelled parse system.log = true →
    finalResults parse system.log = [] ∧ stores system.ws = []
  collected : emptyings system.log = 1 → uncancelled parse system.log = true →
    system.impl.result ++ stores system.ws = finalResults parse system.log

/-- The statements of the application thread that matter for the results. -/
def AppStmt.matters : AppStmt → Bool
  | .rejectActive => true
  | .setRecognizing => true
  | .clearEptr => true
  | .clearResult => true
  | .branchOpen => true
  | .await .result => true
  | .sleep .result => true
  | .takeResult => true
  | .rethrow => true
  | .resetIfAutoClose => true
  | .freshImpl => true
  | .ret .waitRecognitionResult => true
  | _ => false

/-- The wait has seen the end of the recognition and taken all its results. -/
structure Done (parse : Bytes → Json) (system : System) : Prop where
  ended : system.impl.recognizing = false
  all : uncancelled parse system.log = true → system.taken = finalResults parse system.log

/-- The list has been emptied since the recognition was accepted. -/
def Emptied (parse : Bytes → Json) (count : Nat) (system : System) : Prop :=
  uncancelled parse system.log = true → count ≤ emptyings system.log

/-- The positions of the application thread, by the statements before it that matter, with
what it knows there. An acceptance is made without anything in between. -/
inductive Position (parse : Bytes → Json) (system : System) : List AppStmt → Prop where
  | building (clear : system.impl.recognizing = false)
      (none : uncancelled parse system.log = false) : Position parse system [.freshImpl]
  | idle (emptied : Emptied parse 1 system) : Position parse system []
  | recognize (emptied : Emptied parse 1 system)
      (next : [.rejectActive, .setRecognizing, .clearEptr, .clearResult] <+: system.app) :
      Position parse system [.rejectActive, .setRecognizing, .clearEptr, .clearResult]
  | accept (emptied : Emptied parse 1 system) (clear : system.impl.recognizing = false)
      (next : [.setRecognizing, .clearEptr, .clearResult] <+: system.app) :
      Position parse system [.setRecognizing, .clearEptr, .clearResult]
  | clearEptr (fresh : emptyings system.log = 0) (next : [.clearEptr, .clearResult] <+: system.app) :
      Position parse system [.clearEptr, .clearResult]
  | clearResult (fresh : emptyings system.log = 0) (next : [.clearResult] <+: system.app) :
      Position parse system [.clearResult]
  | wait (emptied : Emptied parse 1 system) (once : emptyings system.log ≤ 1) :
      Position parse system [.branchOpen, .ret .waitRecognitionResult]
  | await (emptied : Emptied parse 1 system) (once : emptyings system.log ≤ 1) :
      Position parse system [.await .result, .takeResult, .clearResult, .rethrow,
        .resetIfAutoClose, .ret .waitRecognitionResult]
  | sleep (emptied : Emptied parse 1 system) (once : emptyings system.log ≤ 1) :
      Position parse system [.sleep .result, .takeResult, .clearResult, .rethrow,
        .resetIfAutoClose, .ret .waitRecognitionResult]
  | take (emptied : Emptied parse 1 system) (once : emptyings system.log ≤ 1)
      (ceased : system.impl.eptr.isSome = true ∨ system.impl.recognizing = false) :
      Position parse system [.takeResult, .clearResult, .rethrow, .resetIfAutoClose,
        .ret .waitRecognitionResult]
  | empty (emptied : Emptied parse 1 system)
      (ceased : system.impl.eptr.isSome = true ∨ Done parse system) :
      Position parse system [.clearResult, .rethrow, .resetIfAutoClose,
        .ret .waitRecognitionResult]
  | rethrow (emptied : Emptied parse 2 system)
      (ceased : system.impl.eptr.isSome = true ∨ Done parse system) :
      Position parse system [.rethrow, .resetIfAutoClose, .ret .waitRecognitionResult]
  | reset (emptied : Emptied parse 2 system) (done : Done parse system) :
      Position parse system [.resetIfAutoClose, .ret .waitRecognitionResult]
  | rebuild (emptied : Emptied parse 2 system) (done : Done parse system) :
      Position parse system [.freshImpl, .ret .waitRecognitionResult]
  | ret (emptied : Emptied parse 2 system) (done : Done parse system) :
      Position parse system [.ret .waitRecognitionResult]

/-- An entry that neither accepts a recognition nor empties the list, and is no receipt. -/
def Event.isPlain : Event → Bool
  | .accepted => false
  | .emptied => false
  | .received _ => false
  | _ => true

/-- A log grows by at most one plain entry. -/
def PlainStep (log after : List Event) : Prop :=
  after = log ∨ ∃ event, after = event :: log ∧ event.isPlain = true

section Log

variable {log after : List Event}

/-- A plain entry changes nothing that is counted, and may only end a recognition. -/
theorem PlainStep.same (plain : PlainStep log after) (parse : Bytes → Json) :
    emptyings after = emptyings log ∧ uncancelled parse after = uncancelled parse log ∧
      finalResults parse after = finalResults parse log ∧
      (inProgress parse after = true → inProgress parse log = true) := by
  rcases plain with rfl | ⟨event, rfl, isPlain⟩
  · exact ⟨rfl, rfl, rfl, id⟩
  · cases event with
    | accepted | emptied | received => exact absurd isPlain Bool.false_ne_true
    | _ => exact ⟨rfl, rfl, rfl, fun progress => (Bool.and_eq_true_iff.mp progress).2⟩

end Log

section Handler

variable (parse : Bytes → Json) (response : ASRMessageResponse)

/-- Behind what stores nothing, nothing is stored out of order. -/
theorem StoresFirst.of_none {stmts : List WsStmt} (none : stores stmts = []) :
    StoresFirst stmts := by
  induction stmts with
  | nil => trivial
  | cons stmt rest inductionHypothesis =>
    cases stmt <;> first | exact inductionHypothesis none | exact none | simp [stores] at none

/-- The handler of a reply stores no result. -/
theorem reply_stores : stores (ASRProcessResponse.handle response) = [] := by
  have handles := ASRProcessResponse.handle_handles response
  generalize ASRProcessResponse.handle response = stmts at handles
  cases handles <;> rfl

/-- The handler of a result stores it before it clears. -/
theorem result_stores :
    stores (ASRProcessResult.handle parse response) = (segmentResult parse response).toList ∧
      StoresFirst (ASRProcessResult.handle parse response) := by
  obtain ⟨stmts, handler, handles⟩ := ASRProcessResult.handle_handles parse response
  have behind : stores stmts = (segmentResult parse response).toList ∧ StoresFirst stmts := by
    cases handles with
    | canceled status => simp [segmentResult, status, stores, StoresFirst]
    | bodiless going empty => simp [segmentResult, going, empty, stores, StoresFirst]
    | segment going body isFinal =>
      rw [ASRProcessResult.finalSegment]
      split_ifs <;> simp [segmentResult, going, body, isFinal, stores, StoresFirst]
    | announced going body notFinal partialResult =>
      simp [segmentResult, going, body, notFinal, stores, StoresFirst]
    | undefined going body notFinal =>
      simp [segmentResult, going, body, notFinal, stores, StoresFirst]
  rw [handler]
  cases ASRProcessResult.session_status_cases response with
  | inl none =>
    rwa [none]
  | inr idle =>
    rw [idle]
    exact behind

/-- The handler of a message stores the result that the message brings, before it clears. -/
theorem handler_stores :
    stores (ASRProcessMsg.handle parse response) = (finalResult parse response).toList ∧
      StoresFirst (ASRProcessMsg.handle parse response) := by
  unfold finalResult ASRProcessMsg.handle
  cases word : methodWord response with
  | none => exact ⟨rfl, trivial⟩
  | some method =>
    simp only
    split_ifs with isResponse isResult
    · exact ⟨reply_stores response, .of_none (reply_stores response)⟩
    · exact result_stores parse response
    · exact ⟨rfl, trivial⟩
    · exact ⟨rfl, trivial⟩
    · exact ⟨rfl, trivial⟩

/-- The handler of a reply clears only for a cancellation. -/
theorem reply_clears (stmt : WsStmt) (member : stmt ∈ ASRProcessResponse.handle response)
    (clears : stmt.clears = true) : replyEnding response = some .cancellation := by
  have handles := ASRProcessResponse.handle_handles response
  generalize ASRProcessResponse.handle response = stmts at member handles
  cases handles with
  | cancelled method confirmed =>
    rw [ASRProcessResponse.RepliesTo] at method
    simp only [replyEnding, method]
    rw [if_neg (by decide), if_pos trivial, if_pos confirmed]
  | refused error =>
    have inert : ∀ stmt ∈ ASRProcessResponse.recognitionError error, stmt.clears = false := by
      simp [ASRProcessResponse.recognitionError, WsStmt.clears]
    exact absurd clears (by simp [inert stmt member])
  | ignored => exact absurd member List.not_mem_nil
  | _ =>
    obtain rfl := List.mem_singleton.mp member
    exact absurd clears Bool.false_ne_true

/-- The handler of a result clears only for a result that ends the recognition, and leaves
the stored results. -/
theorem result_clears (stmt : WsStmt) (member : stmt ∈ ASRProcessResult.handle parse response)
    (clears : stmt.clears = true) :
    stmt = .clearRecognizing ∧ (resultEnding parse response).isSome = true := by
  obtain ⟨stmts, handler, handles⟩ := ASRProcessResult.handle_handles parse response
  rw [handler] at member
  have behind : stmt ∈ stmts := by
    refine (List.mem_append.mp member).resolve_left fun session => ?_
    cases ASRProcessResult.session_status_cases response with
    | inl none =>
      simp [none] at session
    | inr idle =>
      obtain rfl := List.mem_singleton.mp (idle ▸ session)
      exact absurd clears Bool.false_ne_true
  cases handles with
  | canceled status => exact ⟨List.mem_singleton.mp behind, by simp [resultEnding, status]⟩
  | bodiless going empty =>
    refine ⟨?_, by simp [resultEnding, going, empty]⟩
    simp only [List.mem_cons, List.not_mem_nil, or_false] at behind
    rcases behind with rfl | rfl | rfl <;>
      first | rfl | exact absurd clears Bool.false_ne_true
  | segment going body isFinal =>
    rw [ASRProcessResult.finalSegment] at behind
    split_ifs at behind with isLast <;>
      simp only [List.cons_append, List.nil_append, List.append_nil, List.mem_cons,
        List.not_mem_nil, or_false] at behind
    · rcases behind with rfl | rfl | rfl
      · exact absurd clears Bool.false_ne_true
      · exact absurd clears Bool.false_ne_true
      · exact ⟨rfl, by simp [resultEnding, going, body, isFinal, isLast]⟩
    · rcases behind with rfl | rfl <;> exact absurd clears Bool.false_ne_true
  | announced going body notFinal partialResult =>
    obtain rfl := List.mem_singleton.mp behind
    exact absurd clears Bool.false_ne_true
  | undefined going body notFinal =>
    obtain rfl := List.mem_singleton.mp behind
    exact absurd clears Bool.false_ne_true

/-- The handler of a message clears the flag only when the message ends the recognition, and
the results only when it cancels it. -/
theorem handler_clears (stmt : WsStmt) (member : stmt ∈ ASRProcessMsg.handle parse response)
    (clears : stmt.clears = true) :
    (ending parse response).isSome = true ∧
      (stmt = .clearResult → ending parse response = some .cancellation) := by
  unfold ending
  unfold ASRProcessMsg.handle at member
  cases word : methodWord response with
  | none =>
    simp only [word, List.mem_singleton] at member
    exact absurd clears (by simp [member, WsStmt.clears])
  | some method =>
    simp only [word] at member ⊢
    split_ifs at member ⊢ with isResponse isResult
    · simp [reply_clears response stmt member clears]
    · obtain ⟨rfl, finished⟩ := result_clears parse response stmt member clears
      exact ⟨finished, by simp⟩
    · exact absurd clears (by simp [List.mem_singleton.mp member, WsStmt.clears])
    · exact absurd clears (by simp [List.mem_singleton.mp member, WsStmt.clears])
    · exact absurd member (by simp)

end Handler

section Collecting

variable {parse : Bytes → Json} {before after : System}

/-- A step that neither stores nor clears, and logs a plain entry, keeps what is collected. -/
theorem Collecting.plain (collecting : Collecting parse before)
    (plain : PlainStep before.log after.log)
    (recognizing : after.impl.recognizing = before.impl.recognizing)
    (result : after.impl.result = before.impl.result) (storing : stores after.ws = stores before.ws)
    (order : StoresFirst after.ws)
    (clears : ∀ stmt ∈ after.ws, stmt.clears = true → stmt ∈ before.ws) :
    Collecting parse after := by
  obtain ⟨sameEmptyings, sameUncancelled, sameResults, progress⟩ := plain.same parse
  constructor
  · rw [recognizing]
    exact fun running => collecting.running (progress running)
  · intro member
    rw [Bool.eq_false_iff]
    intro running
    exact absurd (progress running)
      (by simp [collecting.ended (clears .clearRecognizing member rfl)])
  · rw [sameUncancelled]
    exact fun member => collecting.cancelled (clears .clearResult member rfl)
  · rw [storing, recognizing]
    exact collecting.storing
  · exact order
  · rw [sameEmptyings, sameUncancelled, sameResults, storing]
    exact collecting.early
  · rw [sameEmptyings, sameUncancelled, sameResults, storing, result]
    exact collecting.collected

/-- The receipt of a message keeps what is collected: its result is about to be stored. -/
theorem Collecting.received (collecting : Collecting parse before) (free : before.ws = [])
    (response : ASRMessageResponse)
    (allowed : (finalResult parse response).isSome = true →
      inProgress parse before.log = true ∧ emptyings before.log = 1) :
    Collecting parse (({ before with ws := ASRProcessMsg.handle parse response } : System).record
      (.received response)) := by
  obtain ⟨storing, order⟩ := handler_stores parse response
  constructor
  · exact fun running => collecting.running (Bool.and_eq_true_iff.mp running).2
  · intro member
    have finished := (handler_clears parse response _ member rfl).1
    simp [System.record, inProgress, ends, finished]
  · intro member
    have cancellation := (handler_clears parse response _ member rfl).2 rfl
    simp [System.record, uncancelled, cancellation]
  · intro pending
    refine collecting.running (allowed ?_).1
    rw [Option.isSome_iff_ne_none]
    intro none
    exact pending (storing.trans (by simp [none]))
  · exact order
  · intro early since
    have none : finalResult parse response = none := by
      by_contra some
      exact absurd ((allowed (Option.isSome_iff_ne_none.mpr some)).2.symm.trans early) (by decide)
    have former := (collecting.early early (Bool.and_eq_true_iff.mp since).2).1
    refine ⟨?_, storing.trans (by simp [none])⟩
    simp [System.record, finalResults, former, none]
  · intro once since
    have former := collecting.collected once (Bool.and_eq_true_iff.mp since).2
    rw [free] at former
    have stored : before.impl.result = finalResults parse before.log := by
      simpa [stores] using former
    show before.impl.result ++ stores (ASRProcessMsg.handle parse response) =
      finalResults parse before.log ++ (finalResult parse response).toList
    rw [storing, stored]

/-- What is behind the first statement is still in order. -/
theorem StoresFirst.tail {stmt : WsStmt} {rest : List WsStmt}
    (order : StoresFirst (stmt :: rest)) : StoresFirst rest := by
  cases stmt <;> first | exact order | exact .of_none order

/-- The statements that a handler puts before the rest neither store nor clear. -/
theorem pushed_inert {stmt : WsStmt} {new : List WsStmt} (pushed : ∀ put ∈ new, stmt.MayPush put) :
    (∀ put ∈ new, put.clears = false) ∧
      ∀ rest, stores (new ++ rest) = stores rest ∧ (StoresFirst rest → StoresFirst (new ++ rest)) := by
  induction new with
  | nil => exact ⟨by simp, fun rest => ⟨rfl, id⟩⟩
  | cons put new inductionHypothesis =>
    obtain ⟨first, others⟩ := List.forall_mem_cons.mp pushed
    obtain ⟨inert, same⟩ := inductionHypothesis others
    cases stmt <;> cases put <;>
      first
      | exact absurd first id
      | exact ⟨List.forall_mem_cons.mpr ⟨rfl, inert⟩, same⟩

/-- A statement of a handler that neither stores nor clears leaves the results and the flag,
and logs a plain entry. -/
theorem ws_plain (outcome : Outcome) (system : System) (stmt : WsStmt)
    (keeps : stmt.clears = false) (other : ∀ result, stmt ≠ .pushResult result) :
    PlainStep system.log (execWs outcome system stmt).log ∧
      (execWs outcome system stmt).impl.recognizing = system.impl.recognizing ∧
      (execWs outcome system stmt).impl.result = system.impl.result := by
  cases stmt <;> cases outcome <;> simp only [execWs] <;> (repeat' split) <;>
    first
    | exact ⟨Or.inl rfl, rfl, rfl⟩
    | exact ⟨Or.inr ⟨_, rfl, rfl⟩, rfl, rfl⟩
    | exact absurd rfl (other _)
    | exact absurd keeps (by simp [WsStmt.clears])

/-- Such a statement keeps what is collected. -/
theorem Collecting.ws_plain (collecting : Collecting parse before) (outcome : Outcome)
    (stmt : WsStmt) (rest : List WsStmt) (next : before.ws = stmt :: rest)
    (keeps : stmt.clears = false) (other : ∀ result, stmt ≠ .pushResult result) :
    Collecting parse (execWs outcome { before with ws := rest } stmt) := by
  obtain ⟨plain, recognizing, result⟩ :=
    AsrClient.ws_plain outcome { before with ws := rest } stmt keeps other
  obtain ⟨new, list, pushed⟩ := ws_list outcome { before with ws := rest } stmt
  obtain ⟨inert, same⟩ := pushed_inert pushed
  have storing : stores before.ws = stores rest := by
    rw [next]
    cases stmt <;> first | rfl | exact absurd rfl (other _)
  refine collecting.plain plain recognizing result ?_ ?_ ?_
  · rw [list, (same rest).1, storing]
  · rw [list]
    exact (same rest).2 (StoresFirst.tail (next ▸ collecting.order))
  · intro stmt member clears
    rw [list, List.mem_append] at member
    cases member with
    | inl put =>
      exact absurd clears (by simp [inert stmt put])
    | inr left =>
      exact next ▸ List.mem_cons_of_mem _ left

/-- Every statement of a handler keeps what is collected. -/
theorem Collecting.ws (collecting : Collecting parse before) (outcome : Outcome) (stmt : WsStmt)
    (rest : List WsStmt) (next : before.ws = stmt :: rest) :
    Collecting parse (execWs outcome { before with ws := rest } stmt) := by
  have general := collecting
  obtain ⟨running, ended, cancelled, storing, order, early, collected⟩ := collecting
  rw [next] at ended cancelled storing order early collected
  cases stmt with
  | pushResult result =>
    have pending : before.impl.recognizing = true := storing (by simp [stores])
    constructor
    · exact running
    · intro member
      exact ended (List.mem_cons_of_mem _ member)
    · intro member
      exact cancelled (List.mem_cons_of_mem _ member)
    · exact fun _ => pending
    · exact order.tail
    · intro fresh since
      exact absurd (early fresh since).2 (by simp [stores])
    · intro once since
      have former := collected once since
      simpa [execWs, System.withImpl, stores] using former
  | clearResult =>
    have gone := cancelled List.mem_cons_self
    constructor
    · exact running
    · intro member
      exact ended (List.mem_cons_of_mem _ member)
    · exact fun _ => gone
    · exact storing
    · exact order.tail
    · exact early
    · intro once since
      exact absurd (gone.symm.trans since) (by decide)
  | clearRecognizing =>
    have ceased := ended List.mem_cons_self
    have none : stores rest = [] := order
    constructor
    · intro running
      exact absurd (ceased.symm.trans running) (by decide)
    · exact fun _ => ceased
    · intro member
      exact cancelled (List.mem_cons_of_mem _ member)
    · intro pending
      exact absurd none pending
    · exact .of_none none
    · exact early
    · exact collected
  | _ => exact general.ws_plain outcome _ rest next rfl (by simp)

end Collecting

/-- A step that neither accepts a recognition nor takes its results. -/
structure Steady (parse : Bytes → Json) (before after : System) : Prop where
  clear : before.impl.recognizing = false → after.impl.recognizing = false
  failed : before.impl.eptr.isSome = true → after.impl.eptr.isSome = true
  taken : after.taken = before.taken
  emptyings : emptyings after.log = emptyings before.log
  since : uncancelled parse after.log = true → uncancelled parse before.log = true
  results : before.impl.recognizing = false →
    finalResults parse after.log = finalResults parse before.log

section Steady

variable {parse : Bytes → Json} {before after : System}

/-- A step with a plain entry is steady when it leaves the flag, the error and the results. -/
theorem Steady.of_plain (plain : PlainStep before.log after.log)
    (clear : before.impl.recognizing = false → after.impl.recognizing = false)
    (failed : before.impl.eptr.isSome = true → after.impl.eptr.isSome = true)
    (taken : after.taken = before.taken) : Steady parse before after := by
  obtain ⟨sameEmptyings, sameUncancelled, sameResults, -⟩ := plain.same parse
  exact ⟨clear, failed, taken, sameEmptyings, fun since => sameUncancelled ▸ since,
    fun _ => sameResults⟩

/-- The list stays emptied. -/
theorem Emptied.steady {count : Nat} (emptied : Emptied parse count before)
    (steady : Steady parse before after) : Emptied parse count after := by
  intro since
  rw [steady.emptyings]
  exact emptied (steady.since since)

/-- What was taken stays all there is. -/
theorem Done.steady (done : Done parse before) (steady : Steady parse before after) :
    Done parse after := by
  constructor
  · exact steady.clear done.ended
  · intro since
    rw [steady.taken, steady.results done.ended]
    exact done.all (steady.since since)

/-- The application thread knows the same behind a steady step, unless the step interrupts
an acceptance. -/
theorem Position.steady {list : List AppStmt} (position : Position parse before list)
    (steady : Steady parse before after)
    (kept : ∀ stmt rest, stmt.matters = true → stmt :: rest <+: before.app →
      stmt :: rest <+: after.app) : Position parse after list := by
  cases position with
  | building clear none =>
    refine .building (steady.clear clear) (Bool.eq_false_iff.mpr fun since => ?_)
    exact absurd (steady.since since) (by simp [none])
  | idle emptied => exact .idle (emptied.steady steady)
  | recognize emptied next => exact .recognize (emptied.steady steady) (kept _ _ rfl next)
  | accept emptied clear next =>
    exact .accept (emptied.steady steady) (steady.clear clear) (kept _ _ rfl next)
  | clearEptr fresh next => exact .clearEptr (steady.emptyings.trans fresh) (kept _ _ rfl next)
  | clearResult fresh next => exact .clearResult (steady.emptyings.trans fresh) (kept _ _ rfl next)
  | wait emptied once => exact .wait (emptied.steady steady) (steady.emptyings ▸ once)
  | await emptied once => exact .await (emptied.steady steady) (steady.emptyings ▸ once)
  | sleep emptied once => exact .sleep (emptied.steady steady) (steady.emptyings ▸ once)
  | take emptied once ceased =>
    exact .take (emptied.steady steady) (steady.emptyings ▸ once)
      (ceased.imp steady.failed steady.clear)
  | empty emptied ceased =>
    exact .empty (emptied.steady steady) (ceased.imp steady.failed (·.steady steady))
  | rethrow emptied ceased =>
    exact .rethrow (emptied.steady steady) (ceased.imp steady.failed (·.steady steady))
  | reset emptied done => exact .reset (emptied.steady steady) (done.steady steady)
  | rebuild emptied done => exact .rebuild (emptied.steady steady) (done.steady steady)
  | ret emptied done => exact .ret (emptied.steady steady) (done.steady steady)

/-- Except within an acceptance, the list has been emptied since the recognition was
accepted. -/
theorem Position.emptied {list : List AppStmt} (position : Position parse before list)
    (outside : ∀ stmt rest, stmt.matters = true → ¬ stmt :: rest <+: before.app) :
    Emptied parse 1 before := by
  have weaker (twice : Emptied parse 2 before) : Emptied parse 1 before :=
    fun since => (twice since).trans' (by decide)
  cases position with
  | building clear none => exact fun since => absurd since (by simp [none])
  | clearEptr fresh next => exact absurd next (outside _ _ rfl)
  | clearResult fresh next => exact absurd next (outside _ _ rfl)
  | rethrow emptied ceased => exact weaker emptied
  | reset emptied done => exact weaker emptied
  | rebuild emptied done => exact weaker emptied
  | ret emptied done => exact weaker emptied
  | _ => assumption

end Steady

section Application

variable {parse : Bytes → Json} {outcome : Outcome} {system after : System} {stmt : AppStmt}

/-- A statement that does not accept, empty or rebuild leaves the flag and the results, and
logs a plain entry. -/
theorem app_plain (performed : execApp outcome system stmt = some after)
    (accept : stmt ≠ .setRecognizing) (empty : stmt ≠ .clearResult) (rebuild : stmt ≠ .freshImpl) :
    PlainStep system.log after.log ∧ after.impl.recognizing = system.impl.recognizing ∧
      after.impl.result = system.impl.result := by
  cases stmt <;> cases outcome <;> simp only [execApp, Option.some.injEq] at performed <;>
    (repeat' split at performed) <;> cases performed <;>
    first
    | exact ⟨Or.inl rfl, rfl, rfl⟩
    | exact ⟨Or.inr ⟨_, rfl, rfl⟩, rfl, rfl⟩
    | exact absurd rfl accept
    | exact absurd rfl empty
    | exact absurd rfl rebuild

/-- A stored error stays, unless a recognition begins or the object is rebuilt; and only the
take of a wait changes what was taken. -/
theorem app_error_taken (performed : execApp outcome system stmt = some after) :
    (stmt ≠ .clearEptr → stmt ≠ .freshImpl → system.impl.eptr.isSome = true →
        after.impl.eptr.isSome = true) ∧
      (stmt ≠ .takeResult → after.taken = system.taken) := by
  cases stmt <;> cases outcome <;> simp only [execApp, Option.some.injEq] at performed <;>
    (repeat' split at performed) <;> cases performed <;>
    first
    | exact ⟨fun _ _ failed => failed, fun _ => rfl⟩
    | exact ⟨fun _ _ _ => rfl, fun _ => rfl⟩
    | exact ⟨fun other => absurd rfl other, fun _ => rfl⟩
    | exact ⟨fun _ other => absurd rfl other, fun _ => rfl⟩
    | exact ⟨fun _ _ failed => failed, fun other => absurd rfl other⟩

/-- A statement that matters for nothing puts no statement that matters before the rest. -/
theorem expands_immaterial {new : List AppStmt} (expands : stmt.Expands new)
    (immaterial : stmt.matters = false) : ∀ pushed ∈ new, pushed.matters = false := by
  refine expands_all expands (fun _ _ => rfl) (fun _ => rfl) ?_
  cases stmt with
  | await condition | sleep condition =>
    cases condition with
    | result => exact absurd immaterial (by decide)
    | status => exact List.forall_mem_singleton.mpr rfl
  | _ =>
    first
    | exact List.forall_mem_nil _
    | decide
    | exact absurd immaterial (by simp [AppStmt.matters])

/-- A statement that matters for nothing is a steady step. -/
theorem app_steady (performed : execApp outcome system stmt = some after)
    (immaterial : stmt.matters = false) : Steady parse system after := by
  have other {material : AppStmt} (matters : material.matters = true) : stmt ≠ material := by
    rintro rfl
    exact absurd (matters.symm.trans immaterial) (by decide)
  obtain ⟨plain, recognizing, -⟩ := app_plain performed (other rfl) (other rfl) (other rfl)
  obtain ⟨failed, taken⟩ := app_error_taken performed
  exact .of_plain plain recognizing.trans (failed (other rfl) (other rfl)) (taken (other rfl))

end Application

section Run

variable {parse : Bytes → Json} {outcome : Outcome} {before after : System} {stmt : AppStmt}
  {rest list : List AppStmt}

/-- A statement that matters for nothing leaves the position, unless it ends the call. -/
theorem Position.app_immaterial
    (position : Position parse before (before.app.filter AppStmt.matters))
    (next : before.app = stmt :: rest) (immaterial : stmt.matters = false)
    (performed : execApp outcome { before with app := rest } stmt = some after) :
    Position parse after (after.app.filter AppStmt.matters) := by
  have popped : Steady parse { before with app := rest } after := app_steady performed immaterial
  have steady : Steady parse before after :=
    ⟨popped.clear, popped.failed, popped.taken, popped.emptyings, popped.since, popped.results⟩
  have outside (first : AppStmt) (others : List AppStmt) (matters : first.matters = true) :
      ¬ first :: others <+: before.app := by
    rw [next, List.cons_prefix_cons]
    rintro ⟨rfl, -⟩
    exact absurd (matters.symm.trans immaterial) (by decide)
  rcases app_list performed with empty | ⟨new, shape, expands⟩
  · rw [empty]
    exact .idle ((position.emptied outside).steady steady)
  · have same : after.app.filter AppStmt.matters = before.app.filter AppStmt.matters := by
      rw [shape, next, List.filter_append, List.filter_cons_of_neg (by simp [immaterial]),
        List.filter_eq_nil_iff.mpr (by simpa using expands_immaterial expands immaterial),
        List.nil_append]
    rw [same]
    exact position.steady steady fun first others matters front =>
      absurd front (outside first others matters)

/-- A wait that finds no result while the flag is set ends with an error or a clear flag. -/
theorem over_of_holds {impl : Impl} (holds : Condition.result.holds impl = true)
    (allowed : (impl.recognizing && decide (impl.result ≠ [])) = false) :
    impl.eptr.isSome = true ∨ impl.recognizing = false := by
  simp only [Condition.holds, Bool.or_eq_true, decide_eq_true_eq, Bool.not_eq_true'] at holds
  rcases holds with (stored | failed) | clear
  · right
    by_contra set
    rw [Bool.not_eq_false] at set
    have empty : impl.result = [] := by simpa [set] using allowed
    exact absurd stored (by simp [empty])
  · exact Or.inl failed
  · exact Or.inr clear

/-- A statement that matters brings the application thread to its next position. -/
theorem Position.app_matters (collecting : Collecting parse before)
    (next : before.app = stmt :: rest) (tail : rest.filter AppStmt.matters = list)
    (position : Position parse before (stmt :: list))
    (allowed : WaitsForEnd parse before (.app outcome))
    (performed : execApp outcome { before with app := rest } stmt = some after) :
    Position parse after (after.app.filter AppStmt.matters) := by
  simp only [WaitsForEnd, cutsShort, next, List.head?_cons] at allowed
  have arrive {system : System} {stmts : List AppStmt} (reached : Position parse system stmts)
      (shape : system.app.filter AppStmt.matters = stmts) :
      Position parse system (system.app.filter AppStmt.matters) := shape ▸ reached
  cases position with
  | building clear none =>
    have still : Emptied parse 1 before := fun since => absurd since (by simp [none])
    simp only [execApp] at performed
    split_ifs at performed <;> cases performed
    · exact arrive (.idle still) tail
    · exact arrive (.idle still) tail
  | recognize emptied front =>
    rw [next, List.cons_prefix_cons] at front
    simp only [execApp] at performed
    split_ifs at performed with recognizing <;> cases performed
    · exact .idle emptied
    · exact arrive (.accept emptied (by simpa using recognizing) front.2) tail
  | accept emptied clear front =>
    rw [next, List.cons_prefix_cons] at front
    cases performed
    exact arrive (.clearEptr rfl front.2) tail
  | clearEptr fresh front =>
    rw [next, List.cons_prefix_cons] at front
    cases performed
    exact arrive (.clearResult fresh front.2) tail
  | clearResult fresh front =>
    cases performed
    exact arrive (.idle fun _ => Nat.le_add_left ..) tail
  | wait emptied once =>
    simp only [Bool.not_eq_false'] at allowed
    simp only [execApp, allowed, if_true] at performed
    cases performed
    refine arrive (.await emptied once) ?_
    simp [System.appThen, terminateSendMessageThread, takeResults, AppStmt.matters, List.filter_cons, tail]
  | await emptied once =>
    simp only [execApp] at performed
    split_ifs at performed with holds <;> cases performed
    · exact arrive (.take emptied once (over_of_holds holds allowed)) tail
    · refine arrive (.sleep emptied once) ?_
      simp [System.appThen, System.withImpl, AppStmt.matters, List.filter_cons, tail]
  | sleep emptied once =>
    simp only [execApp] at performed
    split_ifs at performed with free
    cases performed
    refine arrive (.await emptied once) ?_
    simp [System.appThen, System.withImpl, AppStmt.matters, List.filter_cons, tail]
  | take emptied once ceased =>
    cases performed
    refine arrive (.empty emptied (ceased.imp_right fun clear => ⟨clear, fun since => ?_⟩)) tail
    have none : stores before.ws = [] := by
      by_contra pending
      exact absurd (clear.symm.trans (collecting.storing pending)) (by decide)
    have all := collecting.collected (Nat.le_antisymm once (emptied since)) since
    rwa [none, List.append_nil] at all
  | empty emptied ceased =>
    cases performed
    refine arrive (.rethrow (fun since => Nat.succ_le_succ (emptied since)) ?_) tail
    exact ceased.imp_right fun done => ⟨done.ended, done.all⟩
  | rethrow emptied ceased =>
    simp only [execApp] at performed
    split at performed <;> cases performed
    · rename_i sound
      have done := ceased.resolve_left (by simp [show before.impl.eptr = none from sound])
      exact arrive (.reset emptied ⟨done.ended, done.all⟩) tail
    · exact .idle fun since => (emptied since).trans' (by decide)
  | reset emptied done =>
    simp only [execApp] at performed
    split_ifs at performed <;> cases performed
    · refine arrive (.rebuild emptied ⟨done.ended, done.all⟩) ?_
      simp [System.appThen, resetImpl, AppStmt.matters, List.filter_cons, tail]
    · exact arrive (.ret emptied ⟨done.ended, done.all⟩) tail
  | rebuild emptied done =>
    simp only [execApp] at performed
    split_ifs at performed <;> cases performed
    · exact arrive (.ret emptied ⟨done.ended, done.all⟩) tail
    · exact arrive (.ret emptied ⟨rfl, done.all⟩) tail
  | ret emptied done =>
    cases performed
    exact arrive (.idle fun since => (emptied since).trans' (by decide)) tail

/-- A statement of the application thread keeps what is collected, in the positions in which
it occurs. -/
theorem Collecting.app (collecting : Collecting parse before) (next : before.app = stmt :: rest)
    (position : Position parse before (before.app.filter AppStmt.matters))
    (allowed : WaitsForEnd parse before (.app outcome))
    (performed : execApp outcome { before with app := rest } stmt = some after) :
    Collecting parse after := by
  have ws : after.ws = before.ws := (app_ws performed :)
  have general (accept : stmt ≠ .setRecognizing) (empty : stmt ≠ .clearResult)
      (rebuild : stmt ≠ .freshImpl) : Collecting parse after := by
    obtain ⟨plain, recognizing, result⟩ := app_plain performed accept empty rebuild
    exact collecting.plain plain recognizing result (by rw [ws]) (ws ▸ collecting.order)
      fun other member _ => ws ▸ member
  simp only [WaitsForEnd, cutsShort, next, List.head?_cons] at allowed
  rw [next] at position
  cases stmt with
  | setRecognizing =>
    rw [List.filter_cons_of_pos rfl] at position
    generalize rest.filter AppStmt.matters = list at position
    cases position with
    | accept emptied clear front =>
      have none : stores before.ws = [] := by
        by_contra pending
        exact absurd (clear.symm.trans (collecting.storing pending)) (by decide)
      cases performed
      constructor
      · exact fun _ => rfl
      · intro member
        exact absurd rfl (List.any_eq_false.mp allowed _ member)
      · intro member
        exact absurd rfl (List.any_eq_false.mp allowed _ member)
      · exact fun _ => rfl
      · exact collecting.order
      · exact fun _ _ => ⟨rfl, none⟩
      · intro once
        exact absurd once Nat.zero_ne_one
  | clearResult =>
    rw [List.filter_cons_of_pos rfl] at position
    generalize rest.filter AppStmt.matters = list at position
    cases performed
    constructor
    · exact collecting.running
    · exact collecting.ended
    · exact collecting.cancelled
    · exact collecting.storing
    · exact collecting.order
    · intro fresh
      exact absurd fresh (Nat.succ_ne_zero _)
    · intro once since
      have fresh : emptyings before.log = 0 := Nat.succ.inj once
      cases position with
      | clearResult _ front =>
        obtain ⟨former, none⟩ := collecting.early fresh since
        exact none.trans former.symm
      | empty emptied ceased => exact absurd (emptied since) (by simp [fresh])
  | freshImpl =>
    rw [List.filter_cons_of_pos rfl] at position
    generalize rest.filter AppStmt.matters = list at position
    have ceased : before.impl.recognizing = false ∧
        (uncancelled parse before.log = true → emptyings before.log ≠ 1) := by
      cases position with
      | building clear none => exact ⟨clear, fun since => absurd since (by simp [none])⟩
      | rebuild emptied done =>
        exact ⟨done.ended, fun since once => absurd (emptied since) (by simp [once])⟩
    obtain ⟨clear, other⟩ := ceased
    simp only [execApp] at performed
    split_ifs at performed <;> cases performed
    · exact ⟨collecting.running, collecting.ended, collecting.cancelled, collecting.storing,
        collecting.order, collecting.early, collecting.collected⟩
    · constructor
      · intro running
        exact absurd (clear.symm.trans (collecting.running running)) (by decide)
      · exact collecting.ended
      · exact collecting.cancelled
      · intro pending
        exact absurd (clear.symm.trans (collecting.storing pending)) (by decide)
      · exact collecting.order
      · exact collecting.early
      · intro once since
        exact absurd once (other since)
  | _ => exact general (by simp) (by simp) (by simp)

/-- A statement of a handler is a steady step. -/
theorem ws_steady (outcome : Outcome) (system : System) (stmt : WsStmt) :
    Steady parse system (execWs outcome system stmt) := by
  have plain : PlainStep system.log (execWs outcome system stmt).log := by
    apply ws_logs
    intro event background
    cases event with
    | accepted | emptied | received => exact absurd background Bool.false_ne_true
    | _ => rfl
  have kept : (system.impl.eptr.isSome = true →
      (execWs outcome system stmt).impl.eptr.isSome = true) ∧
        (execWs outcome system stmt).taken = system.taken := by
    cases stmt <;> cases outcome <;> simp only [execWs] <;> (repeat' split) <;>
      first
      | exact ⟨id, rfl⟩
      | exact ⟨fun _ => rfl, rfl⟩
  refine .of_plain plain (fun clear => ?_) kept.1 kept.2
  rw [ws_recognizing, clear, Bool.false_and]

/-- The audio sender logs plain entries. -/
theorem sender_plain (performed : execSender outcome before = some after) :
    PlainStep before.log after.log :=
  sender_logs performed (fun _ _ => rfl) fun _ _ => rfl

/-- A step of the audio sender is steady. -/
theorem sender_steady (performed : execSender outcome before = some after) :
    Steady parse before after := by
  have frame := (sender_frame outcome before after performed).1
  refine .of_plain (sender_plain performed) (fun clear => (frame.keeps (·.recognizing)).trans clear)
    (fun failed => ?_) frame.taken
  rw [execSender] at performed
  (repeat' split at performed) <;> cases performed <;>
    first
    | exact failed
    | (cases outcome <;> first | exact failed | rfl)

/-- A read of the audio source is steady. -/
theorem read_steady {ret : Int} {chunk : Bytes} (performed : execRead ret chunk before = some after) :
    Steady parse before after := by
  obtain ⟨frame, log⟩ := read_frame ret chunk before after performed
  refine .of_plain (Or.inl log) (fun clear => (frame.keeps (·.recognizing)).trans clear) (fun failed => ?_)
    frame.taken
  rw [execRead] at performed
  split_ifs at performed <;> cases performed <;> exact failed

/-- The invariant of a run whose waits see the end of the recognition. -/
structure Awaits (parse : Bytes → Json) (system : System) : Prop where
  collecting : Collecting parse system
  position : Position parse system (system.app.filter AppStmt.matters)

/-- The handlers of the connection neither store nor clear. -/
theorem connection_inert {label : Label} {stmts : List WsStmt}
    (connection : ConnectionEvent label stmts) :
    stores stmts = [] ∧ ∀ stmt ∈ stmts, stmt.clears = false := by
  cases connection <;> decide

/-- A step of another thread that is steady leaves the position. -/
theorem Awaits.steady (awaits : Awaits parse before) (collecting : Collecting parse after)
    (steady : Steady parse before after) (app : after.app = before.app) : Awaits parse after := by
  refine ⟨collecting, ?_⟩
  rw [app]
  exact awaits.position.steady steady fun _ _ _ front => app ▸ front

/-- Every allowed step keeps the invariant. -/
theorem Awaits.step {label : Label} (awaits : Awaits parse before)
    (allowed : WaitsForEnd parse before label) (moved : step parse before label = some after) :
    Awaits parse after := by
  obtain ⟨-, moves⟩ := step_moves parse before after label moved
  obtain ⟨collecting, position⟩ := awaits
  -- A step that logs a plain entry, and leaves the implementation object to the other threads.
  have logs {system : System} (plain : PlainStep before.log system.log)
      (recognizing : system.impl.recognizing = before.impl.recognizing)
      (result : system.impl.result = before.impl.result) (ws : system.ws = before.ws) :
      Collecting parse system :=
    collecting.plain plain recognizing result (by rw [ws]) (ws ▸ collecting.order)
      fun _ member _ => ws ▸ member
  cases moves with
  | call call idle =>
    refine ⟨logs (Or.inr ⟨_, rfl, rfl⟩) rfl rfl rfl, ?_⟩
    rw [idle] at position
    cases position with
    | idle emptied =>
      cases call with
      | recognize audioSrc lm => exact .recognize emptied (by simp [System.record, program, recognize])
      | waitRecognitionResult =>
        have once : emptyings before.log ≤ 1 := by simpa [WaitsForEnd, cutsShort] using allowed
        exact .wait emptied once
      | cancelRecognition => exact .idle emptied
      | close => exact .idle emptied
  | app outcome stmt rest _ next performed =>
    refine ⟨collecting.app next position allowed performed, ?_⟩
    cases matters : stmt.matters with
    | false => exact position.app_immaterial next matters performed
    | true =>
      rw [next, List.filter_cons_of_pos matters] at position
      exact position.app_matters collecting next rfl allowed performed
  | gaveUp rest exception asleep free =>
    refine ⟨logs (Or.inr ⟨_, rfl, rfl⟩) rfl rfl rfl, ?_⟩
    rw [asleep, List.filter_cons_of_pos rfl] at position
    generalize rest.filter AppStmt.matters = list at position
    cases position with
    | sleep emptied once => exact .idle emptied
  | expired condition rest asleep free met =>
    refine ⟨logs (Or.inl rfl) rfl rfl rfl, ?_⟩
    rw [asleep] at position
    cases condition with
    | result =>
      rw [List.filter_cons_of_pos rfl] at position
      cases tail : rest.filter AppStmt.matters with
      | nil =>
        rw [tail] at position
        cases position
      | cons first others =>
        rw [tail] at position
        cases position with
        | sleep emptied once =>
          show Position parse _ (rest.filter AppStmt.matters)
          rw [tail]
          exact .take emptied once (over_of_holds (met rfl) allowed)
    | status =>
      rw [List.filter_cons_of_neg (by simp [AppStmt.matters])] at position
      refine position.steady (.of_plain (Or.inl rfl) id id rfl) fun first others matters front => ?_
      rw [asleep, List.cons_prefix_cons] at front
      obtain ⟨rfl, -⟩ := front
      exact absurd matters (by simp [AppStmt.matters])
  | rejected payload cause other free =>
    exact Awaits.steady ⟨collecting, position⟩ (logs (Or.inl rfl) rfl rfl rfl)
      (.of_plain (Or.inl rfl) id id rfl) rfl
  | received payload response decoded free =>
    simp only [WaitsForEnd, cutsShort, decoded, Bool.and_eq_false_iff, Bool.not_eq_false',
      Bool.and_eq_true, decide_eq_true_eq] at allowed
    have allowed (some : (finalResult parse response).isSome = true) :=
      allowed.resolve_left (by simp [some])
    refine Awaits.steady ⟨collecting, position⟩ (collecting.received free response allowed) ?_ rfl
    refine ⟨id, id, rfl, rfl, fun since => (Bool.and_eq_true_iff.mp since).2, fun clear => ?_⟩
    have none : finalResult parse response = none := by
      by_contra some
      have running := (allowed (Option.isSome_iff_ne_none.mpr some)).1
      exact absurd (clear.symm.trans (collecting.running running)) (by decide)
    simp [System.record, finalResults, none]
  | event label stmts connection free =>
    obtain ⟨none, inert⟩ := connection_inert connection
    refine Awaits.steady ⟨collecting, position⟩ ?_ (.of_plain (Or.inl rfl) id id rfl) rfl
    refine collecting.plain (Or.inl rfl) rfl rfl (by rw [free]; exact none) (.of_none none) ?_
    exact fun stmt member clears => absurd clears (by simp [inert stmt member])
  | ws outcome stmt rest next =>
    have popped : Steady parse { before with ws := rest } _ := ws_steady outcome _ stmt
    exact Awaits.steady ⟨collecting, position⟩ (collecting.ws outcome stmt rest next)
      ⟨popped.clear, popped.failed, popped.taken, popped.emptyings, popped.since, popped.results⟩
      (ws_app ..)
  | read ret chunk _ performed =>
    obtain ⟨frame, log⟩ := read_frame ret chunk before after performed
    exact Awaits.steady ⟨collecting, position⟩
      (logs (Or.inl log) (frame.keeps (·.recognizing)) (frame.keeps (·.result)) frame.ws)
      (read_steady performed) frame.app
  | sender outcome _ performed =>
    have frame := (sender_frame outcome before after performed).1
    exact Awaits.steady ⟨collecting, position⟩
      (logs (sender_plain performed) (frame.keeps (·.recognizing)) (frame.keeps (·.result)) frame.ws)
      (sender_steady performed) frame.app

end Run

/-- A new recognizer is such a run. -/
theorem Awaits.create (parse : Bytes → Json) (properties : Properties) :
    Awaits parse (System.create properties) := by
  refine ⟨⟨?_, ?_, ?_, ?_, trivial, ?_, ?_⟩, .building rfl rfl⟩ <;>
    simp [System.create, inProgress, uncancelled, stores]

/-- Only the return of a call is logged as one. -/
theorem step_returned (parse : Bytes → Json) (before after : System) (label : Label) (call : Call)
    (value : List RecognitionResult) (moved : step parse before label = some after)
    (returned : after.log = .returned call value :: before.log) :
    ∃ outcome rest, before.app = .ret call :: rest ∧
      execApp outcome { before with app := rest } (.ret call) = some after := by
  rcases step_ends_call moved returned rfl with
    ⟨outcome, stmt, rest, next, performed⟩ | ⟨-, exception, threw⟩
  · refine ⟨outcome, rest, ?_⟩
    rcases app_log performed with same | ⟨event, logged, mayLog⟩
    · exact absurd (same.symm.trans returned) (by simp)
    · obtain ⟨rfl, -⟩ := List.cons.inj (logged.symm.trans returned)
      obtain rfl : stmt = .ret call := by
        cases stmt <;> cases outcome <;> first | exact absurd mayLog id | rw [mayLog]
      exact ⟨next, performed⟩
  · cases threw

/-- A run whose waits do not find a result while the flag is set: a wait returns only when
the recognition has ended, and returns all its results in the order of their arrival. -/
theorem wait_returns_all_results (parse : Bytes → Json) (properties : Properties)
    (labels : List Label) (before after : System) (label : Label) (value : List RecognitionResult)
    (execution : Execution (step parse) (WaitsForEnd parse) (System.create properties) labels before)
    (moved : step parse before label = some after)
    (returned : after.log = .returned .waitRecognitionResult value :: before.log)
    (since : uncancelled parse before.log = true) :
    after.impl.recognizing = false ∧ value = finalResults parse before.log := by
  have awaits : Awaits parse before :=
    execution.invariant (Awaits parse) (.create parse properties)
      fun before label after awaits allowed moved => awaits.step allowed moved
  obtain ⟨outcome, rest, next, performed⟩ :=
    step_returned parse before after label _ value moved returned
  have position := awaits.position
  rw [next, List.filter_cons_of_pos rfl] at position
  generalize rest.filter AppStmt.matters = list at position
  cases position with
  | ret emptied done =>
    cases performed
    obtain ⟨-, rfl⟩ := Event.returned.inj (List.cons.inj returned).1
    exact ⟨done.ended, done.all since⟩

/-- A body whose only byte is a minus sign tells that more segments follow. -/
def segmentBody (body : Bytes) : Json :=
  if body = bytes "-" then .object [(bytes "last_segment", .bool false)] else .object []

/-- The server sends a final result of a segment that is not the last. -/
def oneSegment : List Label := [resultMessage (bytes "-")] ++ websocket 2

/-- The last statement of a wait returns what was taken. -/
theorem step_returns (parse : Bytes → Json) (system : System) (running : system.crashed = none)
    (next : system.app = [.ret .waitRecognitionResult]) :
    step parse system (.app .ok) =
      some ((({ system with app := [] } : System).withImpl (System.released system.impl)).record
        (.returned .waitRecognitionResult system.taken)) := by
  simp [step, running, next, execApp]

/-- A wait behind the last of two segments returns both. -/
theorem wait_behind_last_segment :
    ∃ before after value, Execution (step segmentBody) (WaitsForEnd segmentBody)
        (System.create { connectOnRecognize := true })
        (firstRecognition 0 { uri := bytes "builtin:slm/general" } ++ handshake ++ oneSegment ++
          lastResult ++ waitAndJoin.dropLast) before ∧
      step segmentBody before (.app .ok) = some after ∧
      after.log = .returned .waitRecognitionResult value :: before.log ∧ value.length = 2 ∧
      after.impl.recognizing = false ∧ value = finalResults segmentBody before.log := by
  obtain ⟨before, execution, check⟩ := exists_execution_of_run
    (step segmentBody) (WaitsForEnd segmentBody) (System.create { connectOnRecognize := true })
    (firstRecognition 0 { uri := bytes "builtin:slm/general" } ++ handshake ++ oneSegment ++
      lastResult ++ waitAndJoin.dropLast)
    (fun before => before.crashed = none ∧ before.app = [.ret .waitRecognitionResult] ∧
      uncancelled segmentBody before.log = true ∧ before.taken.length = 2) (by decide +kernel)
  obtain ⟨running, next, since, both⟩ := of_decide_eq_true check
  have moved := step_returns segmentBody before running next
  exact ⟨before, _, before.taken, execution, moved, rfl, both,
    wait_returns_all_results segmentBody _ _ before _ _ before.taken execution moved rfl since⟩

/-- A wait behind the first of them returns it while the recognition goes on. -/
theorem wait_behind_first_segment :
    ¬ ∀ (parse : Bytes → Json) (properties : Properties) (labels : List Label)
      (before after : System) (label : Label) (value : List RecognitionResult),
      Execution (step parse) (fun _ _ => True) (System.create properties) labels before →
        step parse before label = some after →
        after.log = .returned .waitRecognitionResult value :: before.log →
        uncancelled parse before.log = true →
        after.impl.recognizing = false ∧ value = finalResults parse before.log := by
  intro always
  obtain ⟨before, execution, check⟩ := exists_execution_of_run
    (step segmentBody) (fun _ _ => True) (System.create { connectOnRecognize := true })
    (firstRecognition 0 { uri := bytes "builtin:slm/general" } ++ handshake ++ oneSegment ++
      waitAndJoin.dropLast)
    (fun before => before.crashed = none ∧ before.app = [.ret .waitRecognitionResult] ∧
      uncancelled segmentBody before.log = true ∧ before.impl.recognizing = true) (by decide +kernel)
  obtain ⟨running, next, since, recognizing⟩ := of_decide_eq_true check
  have moved := step_returns segmentBody before running next
  have ended := (always _ _ _ before _ _ before.taken execution moved rfl since).1
  exact absurd (recognizing.symm.trans ended) (by decide)

end AsrClient
