import AsrClient.Recognizer.Configuration
import AsrClient.Recognizer.Results

/-!
# The results that listeners hear of

The listeners hear of a result with a body from the handler of its message. For a result
without a body the handler stores the status, and then announces all that is stored: the
results of earlier segments, unless a wait has taken them, and the status, unless a wait
has taken it as well.

As long as nothing but the status is stored whenever the stored results are announced,
each listener hears of each final result once, in the order of the messages. What a
listener has heard and what the handler has still to tell it make up what the messages
have brought, at any moment.
-/

namespace AsrClient

open Transitions SpeechRecognizer

/-- What the listeners are to hear of a message: its result, with the flag of the last
segment when it has a body. -/
def announcement (parse : Bytes → Json) (response : ASRMessageResponse) :
    Option RecognitionResult :=
  (finalResult parse response).map fun result =>
    if response.extra = [] then result
    else { result with
      lastSegment := some (ASRProcessResult.lastSegment (parse response.extra)) }

/-- The results that were received, in the order of the messages, each as often as the
listener is registered. -/
def expectedResults (parse : Bytes → Json) (listeners : List Listener) (listener : Listener)
    (log : List Event) : List RecognitionResult :=
  ((received log).reverse.filterMap (announcement parse)).flatMap
    (List.replicate (listeners.count listener))

/-- The results that a listener has heard of, in their order. -/
def heardResults (listener : Listener) (log : List Event) : List RecognitionResult :=
  (log.filterMap fun
    | .notified other (.onRecognitionResult result) => if other = listener then some result else none
    | _ => none).reverse

/-- Every listener has heard of results that were received, each once and in order, and of
all of them when the messages have been handled. -/
structure EachResultOnce (parse : Bytes → Json) (listeners : List Listener) (system : System) :
    Prop where
  inOrder (listener : Listener) :
    heardResults listener system.log <+: expectedResults parse listeners listener system.log
  all (handled : system.ws = []) (listener : Listener) :
    heardResults listener system.log = expectedResults parse listeners listener system.log

/-- The stored results are announced when there are several of them, or none. -/
def repeats (system : System) : Label → Bool
  | .ws _ => system.ws.head? = some .invokeResults && system.impl.result.length ≠ 1
  | _ => false

/-- Statements of the loop over the stored results, once it has begun. -/
def WsStmt.refers : WsStmt → Bool
  | .notifyStored _ _ => true
  | _ => false

/-- The application empties the list that the loop refers to. -/
def destroys (system : System) (label : Label) : Bool :=
  empties system label && system.ws.any WsStmt.refers

/-- The step keeps the implementation object, announces one stored result if any, and does not
empty the list before all of the listeners have heard of it. -/
def AnnouncesOne (system : System) (label : Label) : Prop :=
  KeepsImpl system label ∧ repeats system label = false ∧ destroys system label = false

instance (system : System) (label : Label) : Decidable (AnnouncesOne system label) :=
  inferInstanceAs (Decidable (_ ∧ _ ∧ _))

/-- The results that a statement has still to tell a listener, when the stored ones are
those given. -/
def WsStmt.owes (listeners : List Listener) (stored : List RecognitionResult)
    (listener : Listener) : WsStmt → List RecognitionResult
  | .invoke (.onRecognitionResult result) => List.replicate (listeners.count listener) result
  | .invokeResults => stored.flatMap (List.replicate (listeners.count listener))
  | .notifyListener other (.onRecognitionResult result) => if other = listener then [result] else []
  | .notifyStored other place => if other = listener then stored[place]?.toList else []
  | _ => []

/-- The result of the message received last, as the listeners are to hear of it. -/
def lastAnnouncement (parse : Bytes → Json) (log : List Event) : List RecognitionResult :=
  ((lastReceived log).bind (announcement parse)).toList

/-- The stored results are about to be announced: the result of the message is still to be
stored, or it was stored last and may have been taken. -/
inductive Announcing (system : System) (result : RecognitionResult) : Prop where
  | push (former : List WsStmt) (list : system.ws = former ++ announceStored result)
      (first : .invokeResults ∉ former) : Announcing system result
  | taken (list : system.ws = [.invokeResults, .clearRecognizing])
      (none : system.impl.result = []) : Announcing system result
  | stored (list : system.ws = [.invokeResults, .clearRecognizing])
      (former : List RecognitionResult) (last : system.impl.result = former ++ [result]) :
      Announcing system result

/-- The loop over the stored results is under way: it refers to these, and nothing but the end
of the handler follows it. -/
structure Looping (system : System) (stored : List RecognitionResult) : Prop where
  result : system.impl.result = stored
  others : ∀ other ∈ system.ws, other.refers = true ∨ other = .clearRecognizing

/-- What a listener has heard and has still to hear is what the messages have brought. -/
structure Telling (parse : Bytes → Json) (listeners : List Listener) (system : System) : Prop where
  told (listener : Listener) : heardResults listener system.log ++
    system.ws.flatMap (WsStmt.owes listeners (lastAnnouncement parse system.log) listener) =
      expectedResults parse listeners listener system.log
  announcing : .invokeResults ∈ system.ws → ∃ result,
    lastAnnouncement parse system.log = [result] ∧ Announcing system result
  looping (stmt : WsStmt) (member : stmt ∈ system.ws) (refers : stmt.refers = true) :
    Looping system (lastAnnouncement parse system.log)

section Handler

variable (parse : Bytes → Json) (response : ASRMessageResponse) (listeners : List Listener)
  (listener : Listener)

/-- A response has no result to tell. -/
theorem response_owes (stored : List RecognitionResult) :
    (ASRProcessResponse.handle response).flatMap (WsStmt.owes listeners stored listener) = [] := by
  have handles := ASRProcessResponse.handle_handles response
  generalize ASRProcessResponse.handle response = stmts at handles
  cases handles <;> rfl

/-- Only messages that the result handler takes have a result. -/
theorem final_result_eq :
    finalResult parse response = if isResult response then segmentResult parse response else none := by
  rw [finalResult, isResult]
  cases methodWord response with
  | none => rfl
  | some method =>
    cases isReply : contains method (getMethodString .response) <;> simp [isReply]

/-- The handler of a result owes every listener its announcement. -/
theorem result_owes (kind : isResult response = true) :
    (ASRProcessResult.handle parse response).flatMap
        (WsStmt.owes listeners (announcement parse response).toList listener) =
      (announcement parse response).toList.flatMap (List.replicate (listeners.count listener)) := by
  rw [announcement, final_result_eq, if_pos kind]
  obtain ⟨stmts, handler, handles⟩ := ASRProcessResult.handle_handles parse response
  have session (stored : List RecognitionResult) :
      (ASRProcessResult.sessionStatus response).flatMap
        (WsStmt.owes listeners stored listener) = [] := by
    cases ASRProcessResult.session_status_cases response with
    | inl none =>
      rw [none]
      rfl
    | inr idle =>
      rw [idle]
      rfl
  rw [handler, List.flatMap_append, session, List.nil_append, segmentResult]
  cases handles with
  | canceled status => simp [status, WsStmt.owes]
  | bodiless going empty => simp [going, empty, WsStmt.owes]
  | segment going body isFinal =>
    rw [ASRProcessResult.finalSegment]
    split_ifs <;> simp_all [WsStmt.owes]
  | announced going body notFinal partialResult => simp [going, body, notFinal, WsStmt.owes]
  | undefined going body notFinal => simp [going, body, notFinal, WsStmt.owes]

/-- A handler owes every listener what its message announces. -/
theorem handler_owes :
    (ASRProcessMsg.handle parse response).flatMap
        (WsStmt.owes listeners (announcement parse response).toList listener) =
      (announcement parse response).toList.flatMap (List.replicate (listeners.count listener)) := by
  have handles := ASRProcessMsg.handle_handles parse response
  generalize ASRProcessMsg.handle parse response = stmts at handles
  cases handles with
  | response kind noResult =>
    simp [announcement, final_result_eq, noResult, response_owes]
  | result kind noResponse => exact result_owes parse response listeners listener kind
  | other _ noResponse noResult few =>
    simp only [announcement, final_result_eq, noResult]
    simp only [List.mem_cons, List.not_mem_nil, or_false] at few
    rcases few with rfl | rfl | rfl | rfl <;> rfl

/-- A handler that announces the stored results stores the result of its message before. -/
theorem handler_announcing (announces : .invokeResults ∈ ASRProcessMsg.handle parse response) :
    ∃ result former, announcement parse response = some result ∧
      ASRProcessMsg.handle parse response = former ++ announceStored result ∧
      .invokeResults ∉ former := by
  have handles := ASRProcessMsg.handle_handles parse response
  generalize ASRProcessMsg.handle parse response = stmts at announces handles
  cases handles with
  | response kind noResult => exact absurd announces (reply_announces_nothing response)
  | result kind noResponse =>
    have handler := result_announces parse response announces
    have session : .invokeResults ∉ ASRProcessResult.sessionStatus response := by
      rw [ASRProcessResult.sessionStatus]
      split_ifs <;> simp
    refine ⟨_, _, ?_, handler, session⟩
    rw [announcement, final_result_eq, if_pos kind]
    obtain ⟨stmts, split, handles⟩ := ASRProcessResult.handle_handles parse response
    obtain rfl := List.append_cancel_left (split.symm.trans handler)
    rw [segmentResult]
    generalize shape : announceStored (.ofString (ASRProcessResult.resultStatus response)) = stmts
      at handles
    cases handles with
    | bodiless going empty => simp [going, empty]
    | segment going body isFinal =>
      rw [ASRProcessResult.finalSegment] at shape
      split_ifs at shape <;> simp [announceStored] at shape
    | _ => simp [announceStored] at shape
  | other _ noResponse noResult few =>
    simp only [List.mem_cons, List.not_mem_nil, or_false] at few
    rcases few with rfl | rfl | rfl | rfl <;> simp at announces

end Handler

section Run

variable {parse : Bytes → Json} {listeners : List Listener} {before after : System}

/-- An entry that tells a listener of a result adds it, and no other entry does. -/
theorem heard_cons (listener : Listener) (event : Event) (log : List Event) :
    heardResults listener (event :: log) = heardResults listener log ++
      match event with
      | .notified other (.onRecognitionResult result) => if other = listener then [result] else []
      | _ => [] := by
  rw [heardResults, heardResults]
  cases event with
  | notified other callback =>
    cases callback with
    | onRecognitionResult result =>
      by_cases same : other = listener <;> simp [same]
    | _ => simp
  | _ => simp

/-- Another thread tells no listener of a result. -/
theorem Apart.heard (apart : Apart before after) (listener : Listener) :
    heardResults listener after.log = heardResults listener before.log := by
  rcases apart.log with same | ⟨event, logged, isApart⟩
  · rw [same]
  · rw [logged, heard_cons]
    cases event with
    | notified other callback =>
      cases callback with
      | onRecognitionResult result => exact absurd isApart Bool.false_ne_true
      | _ => exact List.append_nil _
    | _ => exact List.append_nil _

/-- Telling all the listeners of a result tells each as often as it is registered. -/
theorem invoked_owes (registered : List Listener) (stored : List RecognitionResult)
    (listener : Listener) (result : RecognitionResult) :
    (registered.map (WsStmt.notifyListener · (.onRecognitionResult result))).flatMap
        (WsStmt.owes listeners stored listener) =
      List.replicate (registered.count listener) result := by
  induction registered with
  | nil => rfl
  | cons other registered inductionHypothesis =>
    rw [List.map_cons, List.flatMap_cons, inductionHypothesis, WsStmt.owes]
    by_cases same : other = listener
    · rw [if_pos same, same, List.count_cons_self, List.replicate_succ, List.singleton_append]
    · rw [if_neg same, List.count_cons_of_ne same, List.nil_append]

/-- Telling all the listeners of the result in a place likewise, when there is one. -/
theorem stored_owes (registered : List Listener) (stored : List RecognitionResult)
    (listener : Listener) (place : Nat) :
    (registered.map (WsStmt.notifyStored · place)).flatMap (WsStmt.owes listeners stored listener) =
      stored[place]?.toList.flatMap (List.replicate (registered.count listener)) := by
  induction registered with
  | nil => simp
  | cons other registered inductionHypothesis =>
    rw [List.map_cons, List.flatMap_cons, inductionHypothesis, WsStmt.owes]
    by_cases same : other = listener
    · rw [if_pos same, same, List.count_cons_self]
      cases stored[place]? <;> simp [List.replicate_succ]
    · rw [if_neg same, List.count_cons_of_ne same, List.nil_append]

/-- The places of a list have its elements, in order. -/
theorem places_flat (stored : List RecognitionResult) :
    (List.range stored.length).flatMap (fun place => stored[place]?.toList) = stored := by
  induction stored with
  | nil => rfl
  | cons result stored inductionHypothesis =>
    rw [List.length_cons, List.range_succ_eq_map, List.flatMap_cons, List.flatMap_map]
    simpa using inductionHypothesis

/-- A statement of a handler moves what it owes: a listener has heard of it, or other
statements owe it. -/
theorem ws_conserves (outcome : Outcome) (system : System) (stmt : WsStmt)
    (stored : List RecognitionResult) (listener : Listener)
    (keeps : system.impl.listener = listeners)
    (same : stmt.announces = true → system.impl.result = stored) :
    heardResults listener (execWs outcome system stmt).log ++
        (execWs outcome system stmt).ws.flatMap (WsStmt.owes listeners stored listener) =
      heardResults listener system.log ++ (stmt.owes listeners stored listener ++
        system.ws.flatMap (WsStmt.owes listeners stored listener)) := by
  cases stmt with
  | invoke callback =>
    rw [execWs, System.wsThen, List.flatMap_append, keeps]
    congr 2
    cases callback with
    | onRecognitionResult result => exact invoked_owes listeners stored listener result
    | _ => simp [List.flatMap_map, WsStmt.owes]
  | invokeResults =>
    rw [execWs, System.wsThen, List.flatMap_append, List.flatMap_assoc, keeps, same rfl]
    simp only [stored_owes, WsStmt.owes]
    rw [← List.flatMap_assoc, places_flat]
  | notifyListener other callback =>
    rw [execWs, System.record, heard_cons, List.append_assoc]
    cases callback <;> rfl
  | notifyStored other place =>
    rw [execWs, WsStmt.owes, ← same rfl]
    cases system.impl.result[place]? with
    | none => simp [System.crash]
    | some result => simp [System.record, heard_cons]
  | configure =>
    simp only [execWs]
    split <;> rfl
  | _ =>
    simp only [execWs]
    (repeat' split) <;>
      first
      | rfl
      | (simp only [System.send]
         split <;> rw [heard_cons, List.append_nil] <;> rfl)

/-- No statement puts an announcement of the stored results before the rest. -/
theorem pushed_announces {stmt : WsStmt} {new : List WsStmt}
    (pushed : ∀ put ∈ new, stmt.MayPush put) : .invokeResults ∉ new := by
  intro member
  have may := pushed _ member
  cases stmt <;> exact may

/-- A statement of a handler leaves the stored results about to be announced, until it
announces them. -/
theorem Announcing.ws {result : RecognitionResult} (announcing : Announcing before result)
    (outcome : Outcome) (stmt : WsStmt) (rest : List WsStmt) (next : before.ws = stmt :: rest)
    (announces : .invokeResults ∈ (execWs outcome { before with ws := rest } stmt).ws) :
    Announcing (execWs outcome { before with ws := rest } stmt) result := by
  obtain ⟨new, list, pushed⟩ := ws_list outcome { before with ws := rest } stmt
  have unpushed := pushed_announces pushed
  have later : .invokeResults ∈ rest :=
    (List.mem_append.mp (list ▸ announces)).resolve_left unpushed
  cases announcing with
  | push former shape first =>
    rw [next] at shape
    cases former with
    | nil =>
      obtain ⟨rfl, rfl⟩ := List.cons.inj shape
      exact .stored rfl before.impl.result rfl
    | cons head former =>
      obtain ⟨rfl, rfl⟩ := List.cons.inj shape
      refine .push (new ++ former) (list.trans (List.append_assoc ..).symm) ?_
      rw [List.mem_append, not_or]
      exact ⟨unpushed, fun member => first (List.mem_cons_of_mem _ member)⟩
  | taken shape none =>
    obtain ⟨rfl, rfl⟩ := List.cons.inj (next.symm.trans shape)
    exact absurd later (by decide)
  | stored shape former last =>
    obtain ⟨rfl, rfl⟩ := List.cons.inj (next.symm.trans shape)
    exact absurd later (by decide)

/-- Only the end of the handler is behind the announcement. -/
theorem Announcing.behind {result : RecognitionResult} (announcing : Announcing before result)
    {rest : List WsStmt} (next : before.ws = .invokeResults :: rest) :
    ∀ other ∈ rest, other.refers = true ∨ other = .clearRecognizing := by
  cases announcing with
  | push former shape first =>
    rw [next] at shape
    cases former with
    | nil => exact absurd (List.cons.inj shape).1 (by simp)
    | cons head former =>
      obtain ⟨rfl, -⟩ := List.cons.inj shape
      exact absurd (List.mem_cons_self ..) first
  | taken shape none =>
    obtain ⟨-, rfl⟩ := List.cons.inj (next.symm.trans shape)
    simp
  | stored shape former last =>
    obtain ⟨-, rfl⟩ := List.cons.inj (next.symm.trans shape)
    simp

/-- The loop begins with the stored results, and refers to them as it goes on. -/
theorem Looping.ws {stored : List RecognitionResult} (outcome : Outcome) (stmt : WsStmt)
    (rest : List WsStmt) (result : before.impl.result = stored) (begins : stmt.announces = true)
    (others : ∀ other ∈ rest, other.refers = true ∨ other = .clearRecognizing) :
    Looping (execWs outcome { before with ws := rest } stmt) stored := by
  cases stmt with
  | invokeResults =>
    refine ⟨result, fun other member => ?_⟩
    cases List.mem_append.mp member with
    | inl put =>
      obtain ⟨place, -, told⟩ := List.mem_flatMap.mp put
      obtain ⟨listener, -, rfl⟩ := List.mem_map.mp told
      exact Or.inl rfl
    | inr left =>
      exact others other left
  | notifyStored listener place =>
    simp only [execWs]
    split
    · exact ⟨result, others⟩
    · exact ⟨result, others⟩
  | _ => exact absurd begins Bool.false_ne_true

/-- A statement that announces the only stored result announces that of the message. -/
theorem Announcing.one {result : RecognitionResult} (announcing : Announcing before result)
    {rest : List WsStmt} (next : before.ws = .invokeResults :: rest)
    (single : before.impl.result.length = 1) : before.impl.result = [result] := by
  cases announcing with
  | push former shape first =>
    rw [next] at shape
    cases former with
    | nil => exact absurd (List.cons.inj shape).1 (by simp)
    | cons head former =>
      obtain ⟨rfl, -⟩ := List.cons.inj shape
      exact absurd (List.mem_cons_self ..) first
  | taken shape none => simp [none] at single
  | stored shape former last =>
    rw [last, List.length_append, List.length_singleton] at single
    rw [last, List.eq_nil_of_length_eq_zero (by omega : former.length = 0), List.nil_append]

/-- A step of another thread leaves what the handler has to tell. -/
theorem Telling.apart (telling : Telling parse listeners before) (apart : Apart before after)
    (kept : before.ws.any WsStmt.refers = true → after.impl.result = before.impl.result) :
    Telling parse listeners after where
  told listener := by
    rw [apart.heard, apart.ws, lastAnnouncement, apart.continues.last, expectedResults,
      apart.continues.received]
    exact telling.told listener
  announcing announces := by
    rw [lastAnnouncement, apart.continues.last]
    obtain ⟨result, last, announcing⟩ := telling.announcing (apart.ws ▸ announces)
    refine ⟨result, last, ?_⟩
    cases announcing with
    | push former list first => exact .push former (apart.ws.trans list) first
    | taken list none =>
      exact .taken (apart.ws.trans list) (apart.result.elim (·.trans none) id)
    | stored list former last =>
      cases apart.result with
      | inl same =>
        exact .stored (apart.ws.trans list) former (same.trans last)
      | inr taken =>
        exact .taken (apart.ws.trans list) taken
  looping stmt member refers := by
    rw [lastAnnouncement, apart.continues.last]
    rw [apart.ws] at member
    obtain ⟨result, others⟩ := telling.looping stmt member refers
    exact ⟨(kept (List.any_eq_true.mpr ⟨stmt, member, refers⟩)).trans result, apart.ws ▸ others⟩

/-- A handler begins with no reference to the stored results. -/
theorem handler_refers (parse : Bytes → Json) (response : ASRMessageResponse) (stmt : WsStmt)
    (member : stmt ∈ ASRProcessMsg.handle parse response) : stmt.refers = false := by
  cases ASRProcessMsg.handle_performs parse response stmt member <;> rfl

/-- The receipt of a message adds what it announces to what the handler has to tell. -/
theorem Telling.received (telling : Telling parse listeners before) (free : before.ws = [])
    (response : ASRMessageResponse) :
    Telling parse listeners (({ before with ws := ASRProcessMsg.handle parse response } :
      System).record (.received response)) where
  told listener := by
    have told := telling.told listener
    rw [free, List.flatMap_nil, List.append_nil] at told
    show heardResults listener (.received response :: before.log) ++
      (ASRProcessMsg.handle parse response).flatMap
        (WsStmt.owes listeners (announcement parse response).toList listener) =
      ((response :: AsrClient.received before.log).reverse.filterMap (announcement parse)).flatMap
        (List.replicate (listeners.count listener))
    rw [handler_owes, heard_cons, List.append_nil, told, expectedResults, List.reverse_cons,
      List.filterMap_append, List.flatMap_append]
    cases announced : announcement parse response <;> simp [announced]
  announcing announces := by
    obtain ⟨result, former, announced, list, first⟩ := handler_announcing parse response announces
    refine ⟨result, ?_, .push former list first⟩
    show (announcement parse response).toList = [result]
    rw [announced, Option.toList_some]
  looping stmt member refers :=
    absurd refers (by simp [handler_refers parse response stmt member])

/-- A statement of a handler that announces one stored result, if any, tells what it has
to tell. -/
theorem Telling.ws (telling : Telling parse listeners before)
    (keeps : before.impl.listener = listeners) (outcome : Outcome) (stmt : WsStmt)
    (rest : List WsStmt) (next : before.ws = stmt :: rest)
    (single : stmt = .invokeResults → before.impl.result.length = 1) :
    Telling parse listeners (execWs outcome { before with ws := rest } stmt) := by
  have continued : Continues before.log (execWs outcome { before with ws := rest } stmt).log :=
    ws_continues outcome { before with ws := rest } stmt
  have same (announces : stmt.announces = true) :
      before.impl.result = lastAnnouncement parse before.log := by
    cases stmt with
    | invokeResults =>
      obtain ⟨result, last, announcing⟩ := telling.announcing (by simp [next])
      rw [last]
      exact announcing.one next (single rfl)
    | notifyStored listener place =>
      exact (telling.looping (.notifyStored listener place) (by simp [next]) rfl).result
    | _ => exact absurd announces Bool.false_ne_true
  constructor
  · intro listener
    rw [lastAnnouncement, continued.last, expectedResults, continued.received]
    have told := telling.told listener
    rw [next, List.flatMap_cons] at told
    exact (ws_conserves outcome { before with ws := rest } stmt _ listener keeps same).trans told
  · intro announces
    rw [lastAnnouncement, continued.last]
    obtain ⟨new, list, pushed⟩ := ws_list outcome { before with ws := rest } stmt
    have later : .invokeResults ∈ rest :=
      (List.mem_append.mp (list ▸ announces)).resolve_left (pushed_announces pushed)
    obtain ⟨result, last, announcing⟩ := telling.announcing (next ▸ List.mem_cons_of_mem _ later)
    exact ⟨result, last, announcing.ws outcome stmt rest next announces⟩
  · intro other member refers
    rw [lastAnnouncement, continued.last]
    obtain ⟨new, list, pushed⟩ := ws_list outcome { before with ws := rest } stmt
    rw [list, List.mem_append] at member
    cases member with
    | inl put =>
      -- Only the announcement itself begins the loop.
      obtain rfl : stmt = .invokeResults := by
        have may := pushed other put
        cases stmt <;> cases other <;> first | rfl | exact absurd may id | contradiction
      obtain ⟨result, -, announcing⟩ := telling.announcing (by simp [next])
      exact .ws outcome _ rest (same rfl) rfl (announcing.behind next)
    | inr left =>
      obtain ⟨result, others⟩ := telling.looping other (next ▸ List.mem_cons_of_mem _ left) refers
      rw [next, List.forall_mem_cons] at others
      rcases others with ⟨loops | rfl, later⟩
      · refine .ws outcome stmt rest result ?_ later
        cases stmt <;> first | rfl | contradiction
      · exact ⟨result, later⟩

/-- Every step that announces one stored result, if any, tells what it has to tell. -/
theorem Telling.turn {label : Label} (telling : Telling parse listeners before)
    (keeps : before.impl.listener = listeners) (allowed : AnnouncesOne before label)
    (turn : Turn parse before label after) : Telling parse listeners after := by
  cases turn with
  | apart _ _ apart kept =>
    refine telling.apart apart fun refers => kept ?_
    have intact := allowed.2.2
    rwa [destroys, refers, Bool.and_true] at intact
  | received payload response free decoded => exact telling.received free response
  | event _ stmts connection free =>
    refine ⟨fun listener => ?_, fun announces => ?_, fun stmt member refers => ?_⟩
    · have told := telling.told listener
      rw [free, List.flatMap_nil] at told
      cases connection <;> exact told
    · cases connection <;> simp at announces
    · have unrelated : ∀ stmt ∈ stmts, stmt.refers = false := by cases connection <;> decide
      exact absurd refers (by simp [unrelated stmt member])
  | ws outcome stmt rest next =>
    refine telling.ws keeps outcome stmt rest next ?_
    rintro rfl
    have single := allowed.2.1
    simpa [repeats, next] using single

/-- Nothing is to tell for a new object. -/
theorem Telling.built {properties : Properties} (built : Built properties before) :
    Telling parse listeners before where
  told listener := by
    simp [built.log, built.ws, heardResults, expectedResults, AsrClient.received]
  announcing := by simp [built.ws]
  looping := by simp [built.ws]

/-- What is told so far is told once and in order. -/
theorem Telling.eachResultOnce (telling : Telling parse listeners before) :
    EachResultOnce parse listeners before where
  inOrder listener := ⟨_, telling.told listener⟩
  all handled listener := by
    have told := telling.told listener
    rwa [handled, List.flatMap_nil, List.append_nil] at told

end Run

/-- A run in which the stored results are only ever announced when there is one: every
listener hears of every final result once, in the order of the messages. -/
theorem each_result_once (parse : Bytes → Json) (properties : Properties) (labels : List Label)
    (system : System)
    (execution : Execution (step parse) AnnouncesOne (System.create properties) labels system) :
    EachResultOnce parse properties.listener system := by
  have either := impl_invariant execution (fun _ _ allowed => allowed.1)
    (Telling parse properties.listener) (fun _ built => .built built)
    (fun _ _ _ same telling allowed moved =>
      telling.turn same.keepsListener allowed (same.turn moved))
  rcases either with building | ⟨-, telling⟩
  · constructor <;> simp [building.silent, heardResults, expectedResults, received]
  · exact telling.eachResultOnce

/-- An announcement of the stored results tells a registered listener as many results as
one message has exactly when one result is stored. -/
theorem announces_one_iff (listeners : List Listener) (stored : List RecognitionResult)
    (listener : Listener) (registered : listener ∈ listeners) :
    (WsStmt.invokeResults.owes listeners stored listener).length = listeners.count listener ↔
      stored.length = 1 := by
  have positive : 0 < listeners.count listener := List.count_pos_iff.mpr registered
  simp only [WsStmt.owes, List.length_flatMap, List.length_replicate, List.map_const',
    List.sum_replicate_nat]
  constructor
  · exact fun same => Nat.eq_of_mul_eq_mul_right positive (same.trans (Nat.one_mul _).symm)
  · intro one
    rw [one, Nat.one_mul]

/-- A result without a body. -/
def bodiless : List Label :=
  [.receive (bytes "ASR 2.4 RECOGNITION_RESULT\r\nResult-Status:NO_SPEECH\r\n\r\n")]

/-- A wait takes the result of the first segment, and the recognition ends with a result
without a body. -/
theorem taken_segment_announced_once :
    ∃ system, Execution (step segmentBody) AnnouncesOne
        (System.create { connectOnRecognize := true, listener := [7] })
        (firstRecognition 0 { uri := bytes "builtin:slm/general" } ++ handshake ++
          [resultMessage (bytes "-")] ++ websocket 3 ++ waitAndJoin ++ bodiless ++ websocket 4)
        system ∧
      system.ws = [] ∧ (heardResults 7 system.log).length = 2 ∧
      EachResultOnce segmentBody [7] system := by
  obtain ⟨system, execution, check⟩ := exists_execution_of_run
    (step segmentBody) AnnouncesOne (System.create { connectOnRecognize := true, listener := [7] })
    (firstRecognition 0 { uri := bytes "builtin:slm/general" } ++ handshake ++
      [resultMessage (bytes "-")] ++ websocket 3 ++ waitAndJoin ++ bodiless ++ websocket 4)
    (fun system => system.ws = [] ∧ (heardResults 7 system.log).length = 2) (by decide +kernel)
  obtain ⟨handled, both⟩ := of_decide_eq_true check
  exact ⟨system, execution, handled, both, each_result_once _ _ _ system execution⟩

/-- The application calls for a recognition. -/
def isRecognize : Label → Bool
  | .call (.recognize _ _) => true
  | _ => false

/-- When no wait takes it, the result of the first segment is announced again with the
result that has no body, in a single recognition. -/
theorem segment_announced_twice :
    ¬ ∀ (parse : Bytes → Json) (properties : Properties) (labels : List Label) (system : System),
      labels.countP isRecognize = 1 →
        Execution (step parse) KeepsImpl (System.create properties) labels system →
          EachResultOnce parse properties.listener system := by
  intro always
  obtain ⟨system, execution, check⟩ := exists_execution_of_run
    (step segmentBody) KeepsImpl (System.create { connectOnRecognize := true, listener := [7] })
    (firstRecognition 0 { uri := bytes "builtin:slm/general" } ++ handshake ++
      [resultMessage (bytes "-")] ++ websocket 3 ++ bodiless ++ websocket 5)
    (fun system => system.ws = [] ∧ (heardResults 7 system.log).length = 3 ∧
      (expectedResults segmentBody [7] 7 system.log).length = 2) (by decide +kernel)
  obtain ⟨handled, three, two⟩ := of_decide_eq_true check
  have same := (always _ _ _ system (by decide) execution).all handled 7
  exact absurd (three.symm.trans ((congrArg List.length same).trans two)) (by decide)

end AsrClient
