import AsrClient.ResultFromJson
import AsrClient.Recognizer.Uninterrupted

/-!
# What a result makes of the recognizer

The handler of a result stores it, calls the listeners, and clears the flag of the running
recognition, or does only some of this, depending on the status header and on the body.
What it does without interruption is listed once, case by case. The properties of single
results are read off this list: what the listeners are given and what is stored, which
results end a recognition, when the handler reads past the end of the alternatives, and
which code the application sees.
-/

namespace AsrClient

open SpeechRecognizer

namespace ASRProcessResult

/-- The recognizer behind the handler of a result, without interruption. -/
def handled (parse : Bytes → Json) (response : ASRMessageResponse) (system : System) : System :=
  system.performAll (handle parse response)

/-- What the handler changes: it stores results, makes calls, may clear the flag, and may
lose the process. -/
structure Changes (before after : System) (stored : List RecognitionResult)
    (calls : List (Listener × Callback)) (clears lost : Bool) : Prop where
  result : after.impl.result = before.impl.result ++ stored
  log : after.log = (calls.map fun call => .notified call.1 call.2).reverse ++ before.log
  recognizing : after.impl.recognizing = (before.impl.recognizing && !clears)
  crashed : after.crashed = if lost then some .undefined else before.crashed

/-- Every listener is called with each of the results. -/
def announcements (listeners : List Listener) (results : List RecognitionResult) :
    List (Listener × Callback) :=
  results.flatMap fun result => listeners.map fun listener => (listener, .onRecognitionResult result)

/-- The result of a final segment, without the flag of the last one. -/
def segment (json : Json) : RecognitionResult := withTimes json (recognitionResultFromJson json)

/-- The cases of the handler, with what each of them stores, calls, clears and loses. -/
inductive Does (parse : Bytes → Json) (response : ASRMessageResponse) (impl : Impl) :
    List RecognitionResult → List (Listener × Callback) → Bool → Bool → Prop where
  | canceled (status : canceled response = true) : Does parse response impl [] [] true false
  | bodiless (going : canceled response = false) (empty : response.extra = []) :
      Does parse response impl [.ofString (resultStatus response)]
        (announcements impl.listener (impl.result ++ [.ofString (resultStatus response)]))
        true false
  | segment (going : canceled response = false) (body : response.extra ≠ [])
      (isFinal : finalResult response (parse response.extra) = true) :
      Does parse response impl [segment (parse response.extra)]
        (announcements impl.listener [{ segment (parse response.extra) with
          lastSegment := some (lastSegment (parse response.extra)) }])
        (lastSegment (parse response.extra)) false
  | announced (going : canceled response = false) (body : response.extra ≠ [])
      (notFinal : finalResult response (parse response.extra) = false)
      (partialResult : PartialRecognition)
      (first : partialRecognitionFromJson (parse response.extra) = some partialResult) :
      Does parse response impl []
        (impl.listener.map fun listener => (listener, .onPartialRecognition partialResult))
        false false
  | undefined (going : canceled response = false) (body : response.extra ≠ [])
      (notFinal : finalResult response (parse response.extra) = false)
      (none : partialRecognitionFromJson (parse response.extra) = none) :
      Does parse response impl [] [] false true

/-- Callbacks in sequence are entries of the log. -/
theorem notify_fold (calls : List (Listener × Callback)) (system : System) :
    (calls.map fun call => WsStmt.notifyListener call.1 call.2).foldl (execWs .ok) system =
      { system with
        log := (calls.map fun call => .notified call.1 call.2).reverse ++ system.log } := by
  induction calls generalizing system with
  | nil => rfl
  | cons call calls inductionHypothesis =>
    rw [List.map_cons, List.foldl_cons, inductionHypothesis]
    simp [execWs, System.record]

/-- The listeners are told of a stored result as long as it is in its place. -/
theorem notify_place_fold (listeners : List Listener) (place : Nat) (result : RecognitionResult)
    (system : System) (stored : system.impl.result[place]? = some result) :
    (listeners.map (WsStmt.notifyStored · place)).foldl (execWs .ok) system =
      { system with
        log := (listeners.map (Event.notified · (.onRecognitionResult result))).reverse ++
          system.log } := by
  induction listeners generalizing system with
  | nil => rfl
  | cons listener listeners inductionHypothesis =>
    have told : execWs .ok system (.notifyStored listener place) =
        system.record (.notified listener (.onRecognitionResult result)) := by
      rw [execWs, stored]
    have others := inductionHypothesis
      (system.record (.notified listener (.onRecognitionResult result))) stored
    rw [List.map_cons, List.foldl_cons, told, others]
    simp [System.record]

/-- The loop over the places of the stored results tells of each result in turn.

The induction is on the results that are still to come; the others are in front of them in the
list. -/
theorem notify_stored_fold (listeners : List Listener) (former stored : List RecognitionResult)
    (system : System) (whole : system.impl.result = former ++ stored) :
    ((List.range' former.length stored.length).flatMap fun place =>
        listeners.map (WsStmt.notifyStored · place)).foldl (execWs .ok) system =
      { system with
        log := ((announcements listeners stored).map
          fun call => .notified call.1 call.2).reverse ++ system.log } := by
  induction stored generalizing former system with
  | nil => rfl
  | cons result stored inductionHypothesis =>
    have place : system.impl.result[former.length]? = some result := by simp [whole]
    have later := inductionHypothesis (former ++ [result])
      { system with
        log := (listeners.map (Event.notified · (.onRecognitionResult result))).reverse ++
          system.log } (by simp [whole])
    rw [List.length_append, List.length_singleton] at later
    rw [List.length_cons, List.range'_succ, List.flatMap_cons, List.foldl_append,
      notify_place_fold listeners former.length result system place, later]
    simp [announcements, Function.comp_def]

section Perform

variable (system : System)

@[simp] theorem perform_set_session_status (status : SessionStatus) :
    system.perform (.setSessionStatus status) =
      { system with ws := [], impl := { system.impl with sessionStatus := status } } := rfl

@[simp] theorem perform_clear_recognizing : system.perform .clearRecognizing =
    { system with ws := [], impl := { system.impl with recognizing := false } } := rfl

@[simp] theorem perform_push_result (result : RecognitionResult) :
    system.perform (.pushResult result) = { system with
      ws := []
      impl := { system.impl with result := system.impl.result ++ [result] } } := rfl

@[simp] theorem perform_out_of_range : system.perform .outOfRange =
    { system with ws := [], crashed := some .undefined } := rfl

/-- A callback of all listeners. -/
@[simp] theorem perform_invoke (callback : Callback) : system.perform (.invoke callback) =
    { system with
      ws := []
      log := ((system.impl.listener.map fun listener => (listener, callback)).map
        fun call => .notified call.1 call.2).reverse ++ system.log } := by
  have calls := notify_fold (system.impl.listener.map fun listener => (listener, callback))
    { system with ws := [] }
  rw [List.map_map] at calls
  rw [← calls]
  simp [System.perform, execWs, System.wsThen, Function.comp_def]

/-- The callbacks of all listeners for all stored results. -/
@[simp] theorem perform_invoke_results : system.perform .invokeResults =
    { system with
      ws := []
      log := ((announcements system.impl.listener system.impl.result).map
        fun call => .notified call.1 call.2).reverse ++ system.log } := by
  rw [System.perform, execWs, List.range_eq_range']
  exact (congrArg (List.foldl (execWs .ok) _) (List.append_nil _)).trans
    (notify_stored_fold system.impl.listener [] system.impl.result { system with ws := [] } rfl)

end Perform

/-- The session status is none of what the handler changes. -/
theorem session_status_changes (response : ASRMessageResponse) (system : System) :
    Changes system (system.performAll (sessionStatus response)) [] [] false false ∧
      (system.performAll (sessionStatus response)).impl.listener = system.impl.listener := by
  cases session_status_cases response with
  | inl none =>
    rw [none]
    exact ⟨⟨by simp, rfl, by simp, rfl⟩, rfl⟩
  | inr idle =>
    rw [idle]
    exact ⟨⟨by simp, rfl, by simp, rfl⟩, rfl⟩

/-- What the handler changes is what it does in one of the cases. -/
theorem handled_does (parse : Bytes → Json) (response : ASRMessageResponse) (system : System) :
    ∃ stored calls clears lost,
      Changes system (handled parse response system) stored calls clears lost ∧
        Does parse response system.impl stored calls clears lost := by
  obtain ⟨⟨result, log, recognizing, crashed⟩, listener⟩ := session_status_changes response system
  simp only [List.append_nil, List.map_nil, List.reverse_nil, List.nil_append, Bool.not_false,
    Bool.and_true, Bool.false_eq_true, if_false] at result log recognizing crashed
  rw [handled, handle, System.perform_all_append]
  generalize system.performAll (sessionStatus response) = base at *
  dsimp only
  split_ifs with canceled empty isFinal
  · refine ⟨_, _, _, _, ⟨?_, ?_, ?_, ?_⟩, .canceled canceled⟩ <;>
      simp [result, log, crashed]
  · refine ⟨_, _, _, _, ⟨?_, ?_, ?_, ?_⟩, .bodiless (by simpa using canceled) empty⟩ <;>
      simp [result, log, crashed, listener]
  · refine ⟨_, _, _, _, ⟨?_, ?_, ?_, ?_⟩, .segment (by simpa using canceled) empty isFinal⟩ <;>
      cases last : lastSegment (parse response.extra) <;>
        simp [finalSegment, segment, announcements, last, result, log, recognizing, crashed, listener]
  · cases first : partialRecognitionFromJson (parse response.extra) with
    | none =>
      refine ⟨_, _, _, _, ⟨?_, ?_, ?_, ?_⟩,
        .undefined (by simpa using canceled) empty (by simpa using isFinal) first⟩ <;>
        simp [partialSegment, first, result, log, recognizing]
    | some partialResult =>
      refine ⟨_, _, _, _, ⟨?_, ?_, ?_, ?_⟩,
        .announced (by simpa using canceled) empty (by simpa using isFinal) partialResult first⟩ <;>
        simp [partialSegment, first, result, log, recognizing, crashed, listener]

/-- A result with a value in every field. -/
def Initialised (result : RecognitionResult) : Prop :=
  result.resultStatus.isSome = true ∧ result.lastSegment.isSome = true

/-- The stored result is complete, and the listeners are given the same one. -/
def StoredAsDelivered (before after : System) : Prop :=
  ∀ stored, after.impl.result = before.impl.result ++ [stored] →
    Initialised stored ∧
      ∀ events listener delivered, after.log = events ++ before.log →
        .notified listener (.onRecognitionResult delivered) ∈ events → delivered = stored

/-- The result of a segment is stored without the flag of the last segment. -/
theorem segment_last_segment (json : Json) : (segment json).lastSegment = none :=
  from_json_last_segment json

section Single

variable {before after : System} {stored : List RecognitionResult}
  {calls : List (Listener × Callback)} {clears lost : Bool}

/-- What is stored behind the former results. -/
theorem Changes.stored_iff (changes : Changes before after stored calls clears lost)
    (result : RecognitionResult) :
    after.impl.result = before.impl.result ++ [result] ↔ stored = [result] := by
  rw [changes.result, List.append_cancel_left_eq]

/-- The entries in front of the former log are the calls. -/
theorem Changes.events_eq (changes : Changes before after stored calls clears lost)
    {events : List Event} (log : after.log = events ++ before.log) :
    events = (calls.map fun call => .notified call.1 call.2).reverse :=
  List.append_cancel_right (log.symm.trans changes.log)

/-- A call among the entries is one of the calls. -/
theorem Changes.call_mem (changes : Changes before after stored calls clears lost)
    {events : List Event} (log : after.log = events ++ before.log) {listener : Listener}
    {callback : Callback} (member : .notified listener callback ∈ events) :
    (listener, callback) ∈ calls := by
  rw [changes.events_eq log, List.mem_reverse] at member
  obtain ⟨⟨other, called⟩, isCall, same⟩ := List.mem_map.mp member
  cases same
  exact isCall

end Single

/-- A result is stored complete and as it is delivered exactly when nothing is stored: the
flag of the last segment is missing in everything that is. -/
theorem stored_as_delivered_iff (parse : Bytes → Json) (response : ASRMessageResponse)
    (system : System) : StoredAsDelivered system (handled parse response system) ↔
      canceled response = true ∨
        (response.extra ≠ [] ∧ finalResult response (parse response.extra) = false) := by
  obtain ⟨stored, calls, clears, lost, changes, does⟩ := handled_does parse response system
  have nothing (none : stored = []) : StoredAsDelivered system (handled parse response system) := by
    intro result added
    rw [changes.stored_iff, none] at added
    exact absurd added (by simp)
  have something (result : RecognitionResult) (one : stored = [result])
      (unknown : result.lastSegment = none) :
      ¬ StoredAsDelivered system (handled parse response system) := by
    intro asDelivered
    obtain ⟨⟨-, known⟩, -⟩ := asDelivered result ((changes.stored_iff result).mpr one)
    exact absurd known (by simp [unknown])
  cases does with
  | canceled status => exact ⟨fun _ => Or.inl status, fun _ => nothing rfl⟩
  | bodiless going empty =>
    refine ⟨fun asDelivered => absurd asDelivered (something _ rfl rfl), ?_⟩
    simp [going, empty]
  | segment going body isFinal =>
    refine ⟨fun asDelivered => absurd asDelivered (something _ rfl (segment_last_segment _)), ?_⟩
    simp [going, isFinal]
  | announced going body notFinal partialResult first =>
    exact ⟨fun _ => Or.inr ⟨body, notFinal⟩, fun _ => nothing rfl⟩
  | undefined going body notFinal none =>
    exact ⟨fun _ => Or.inr ⟨body, notFinal⟩, fun _ => nothing rfl⟩

/-- A result with a status and a body. -/
def resultResponse (status : String) : ASRMessageResponse where
  startLine := firstLine .recognitionResult
  headers := (∅ : HeaderMap).insert (bytes "Result-Status") (bytes status)
  extra := bytes "body"

/-- A recognised segment is stored before the flag of the last segment is set. -/
theorem segment_stored_without_flag :
    ¬ ∀ (parse : Bytes → Json) (response : ASRMessageResponse) (system : System),
      (response.extra = [] ∨ finalResult response (parse response.extra) = true) →
        StoredAsDelivered system (handled parse response system) := by
  intro always
  have asDelivered := always (fun _ => .null) (resultResponse "RECOGNIZED")
    { properties := {}, impl := { listener := [7] } } (by decide +kernel)
  obtain ⟨⟨-, known⟩, -⟩ := asDelivered (segment .null) (by decide +kernel)
  exact absurd known (by decide +kernel)

/-- How often a listener is called with a kind of callback. -/
def callsTo (listener : Listener) (kind : Callback → Bool) (events : List Event) : Nat :=
  events.countP fun
    | .notified other callback => other = listener && kind callback
    | _ => false

/-- A callback with a result. -/
def isResultCallback : Callback → Bool
  | .onRecognitionResult _ => true
  | _ => false

/-- A callback with a partial result. -/
def isPartialCallback : Callback → Bool
  | .onPartialRecognition _ => true
  | _ => false

/-- A message ends the recognition: it stores one result, each listener is called once with
a result and never with a partial one, and the flag is clear. -/
structure EndsRecognition (before after : System) : Prop where
  stored : ∃ result, after.impl.result = before.impl.result ++ [result]
  announced : ∃ events, after.log = events ++ before.log ∧ ∀ listener,
    callsTo listener isResultCallback events = before.impl.listener.count listener ∧
      callsTo listener isPartialCallback events = 0
  ended : after.impl.recognizing = false

/-- A callback of all listeners calls each of them as often as it is registered. -/
theorem calls_to_all (listeners : List Listener) (callback : Callback) (listener : Listener)
    (kind : Callback → Bool) :
    callsTo listener kind ((listeners.map fun other => (other, callback)).map
        fun call => .notified call.1 call.2).reverse =
      if kind callback then listeners.count listener else 0 := by
  rw [callsTo, List.countP_reverse, List.map_map, List.countP_map, List.count]
  cases sort : kind callback with
  | true =>
    refine (List.countP_congr fun other _ => ?_).trans (if_pos rfl).symm
    simp [sort]
  | false => simp [Function.comp_def, sort]

/-- A body that does not say whether it is final is so by its status header. -/
theorem final_by_status {response : ASRMessageResponse} {json : Json}
    (silent : (json.get (bytes "final_result")).isBool = false) :
    finalResult response json = true ↔ resultStatus response = RecognitionResult.getString .recognized := by
  rw [finalResult, flag, silent]
  simp

/-- A result that stores nothing does not end the recognition as a result. -/
theorem Changes.stores_for_end {before after : System} {calls : List (Listener × Callback)}
    {clears lost : Bool} (changes : Changes before after [] calls clears lost) :
    ¬ EndsRecognition before after := by
  intro ends
  obtain ⟨result, added⟩ := ends.stored
  exact absurd ((changes.stored_iff result).mp added) (by simp)

/-- A result with a body that says nothing of its own, and with the name of a status at
which the recognition has ended, ends the recognition exactly when this is RECOGNIZED. -/
theorem ends_recognition_iff (parse : Bytes → Json) (response : ASRMessageResponse)
    (system : System) (code : Code)
    (named : resultStatus response = RecognitionResult.getString code)
    (terminal : code ≠ .processing ∧ code ≠ .canceled) (body : response.extra ≠ [])
    (noFinal : ((parse response.extra).get (bytes "final_result")).isBool = false)
    (noLast : ((parse response.extra).get (bytes "last_segment")).isBool = false) :
    EndsRecognition system (handled parse response system) ↔ code = .recognized := by
  have final : finalResult response (parse response.extra) = true ↔ code = .recognized := by
    rw [final_by_status noFinal, named]
    exact RecognitionResult.get_string_inj
  have last : lastSegment (parse response.extra) = true := by
    rw [lastSegment, flag, noLast]
    rfl
  obtain ⟨stored, calls, clears, lost, changes, does⟩ := handled_does parse response system
  cases does with
  | canceled status =>
    rw [canceled, decide_eq_true_eq, named, RecognitionResult.get_string_inj] at status
    exact absurd status terminal.2
  | bodiless _ empty => exact absurd empty body
  | segment _ _ isFinal =>
    refine ⟨fun _ => final.mp isFinal, fun _ => ⟨⟨_, changes.result⟩, ⟨_, changes.log, ?_⟩, ?_⟩⟩
    · intro listener
      rw [announcements, List.flatMap_singleton, calls_to_all, calls_to_all]
      exact ⟨rfl, rfl⟩
    · rw [changes.recognizing, last]
      simp
  | announced _ _ notFinal partialResult first =>
    refine ⟨fun ends => absurd ends changes.stores_for_end, fun recognized => ?_⟩
    exact absurd ((final.mpr recognized).symm.trans notFinal) (by decide)
  | undefined _ _ notFinal none =>
    refine ⟨fun ends => absurd ends changes.stores_for_end, fun recognized => ?_⟩
    exact absurd ((final.mpr recognized).symm.trans notFinal) (by decide)

/-- A recognised result of an old server ends the recognition. -/
theorem recognized_ends_recognition :
    EndsRecognition { properties := {}, impl := { listener := [7], recognizing := true } }
      (handled (fun _ => .null) (resultResponse "RECOGNIZED")
        { properties := {}, impl := { listener := [7], recognizing := true } }) :=
  (ends_recognition_iff (fun _ => .null) (resultResponse "RECOGNIZED") _ .recognized
    (by decide +kernel) (by decide) (by decide +kernel) rfl rfl).mpr rfl

/-- The result of an old server that nothing was said ends nothing: it is taken for a
partial one. -/
theorem no_speech_taken_as_partial :
    ¬ ∀ (parse : Bytes → Json) (response : ASRMessageResponse) (system : System) (code : Code),
      resultStatus response = RecognitionResult.getString code →
        code ≠ .processing ∧ code ≠ .canceled → response.extra ≠ [] →
          ((parse response.extra).get (bytes "final_result")).isBool = false →
            ((parse response.extra).get (bytes "last_segment")).isBool = false →
              EndsRecognition system (handled parse response system) := by
  intro always
  have ends := always (fun _ => .object [(bytes "alternatives", .array [.object []])])
    (resultResponse "NO_SPEECH") { properties := {}, impl := { recognizing := true } } .noSpeech
    (by decide +kernel) (by decide) (by decide +kernel) (by decide +kernel) (by decide +kernel)
  exact absurd ends.ended (by decide +kernel)

/-- The handler does not lose the process. -/
def StaysInBounds (parse : Bytes → Json) (response : ASRMessageResponse) : Prop :=
  ∀ system : System, system.crashed = none → (handled parse response system).crashed = none

/-- A partial result is read from the first alternative, where there is one. -/
theorem partial_none_iff (json : Json) :
    partialRecognitionFromJson json = none ↔ (json.get (bytes "alternatives")).arrayItems = [] := by
  rw [partialRecognitionFromJson, Option.map_eq_none_iff, List.getElem?_eq_none_iff,
    Nat.le_zero, List.length_eq_zero_iff]

/-- The handler reads no alternative past the end exactly when the message is not a partial
result, or has an alternative. -/
theorem stays_in_bounds_iff (parse : Bytes → Json) (response : ASRMessageResponse) :
    StaysInBounds parse response ↔
      canceled response = true ∨ response.extra = [] ∨
        finalResult response (parse response.extra) = true ∨
        ((parse response.extra).get (bytes "alternatives")).arrayItems ≠ [] := by
  constructor
  · intro stays
    obtain ⟨stored, calls, clears, lost, changes, does⟩ :=
      handled_does parse response { properties := {} }
    have crashed := changes.crashed.symm.trans (stays { properties := {} } rfl)
    cases does with
    | canceled status => exact Or.inl status
    | bodiless _ empty => exact Or.inr (Or.inl empty)
    | segment _ _ isFinal => exact Or.inr (Or.inr (Or.inl isFinal))
    | announced _ _ _ partialResult first =>
      refine Or.inr (Or.inr (Or.inr fun none => ?_))
      exact absurd (first.symm.trans ((partial_none_iff _).mpr none)) (by simp)
    | undefined _ _ _ none => exact absurd crashed (by simp)
  · intro inside system going
    obtain ⟨stored, calls, clears, lost, changes, does⟩ := handled_does parse response system
    rw [changes.crashed, going]
    cases does with
    | undefined going body notFinal none =>
      rw [partial_none_iff] at none
      simp [going, body, notFinal, none] at inside
    | _ => rfl

/-- A partial result of an old server, without alternatives, is read past the end. -/
theorem empty_partial_out_of_range :
    ¬ ∀ (parse : Bytes → Json) (response : ASRMessageResponse), response.extra ≠ [] →
      StaysInBounds parse response := by
  intro always
  have crashed := always (fun _ => .null) (resultResponse "PROCESSING") (by decide +kernel)
    { properties := {} } rfl
  exact absurd crashed (by decide +kernel)

/-- The code of the stored result and of the delivered ones. -/
structure Shows (before after : System) (code : Code) : Prop where
  stored : ∃ result, after.impl.result = before.impl.result ++ [result] ∧
    result.resultStatus = some code
  delivered (events : List Event) (listener : Listener) (result : RecognitionResult)
    (log : after.log = events ++ before.log)
    (member : .notified listener (.onRecognitionResult result) ∈ events) :
    result.resultStatus = some code

/-- The code that a body with these alternatives shows for the status that it names:
processing counts as no match, and no match as recognised if there is an alternative. -/
def shown (code : Code) (alternatives : List Json) : Code :=
  if code = .processing ∨ code = .noMatch then
    if alternatives = [] then .noMatch else .recognized
  else code

/-- The segment of a body that names a status has the code that is shown for it. -/
theorem segment_code (json : Json) (code : Code)
    (named : (json.get (bytes "result_status")).stringValue = RecognitionResult.getString code) :
    (segment json).resultStatus =
      some (shown code (json.get (bytes "alternatives")).arrayItems) := by
  have status : (segment json).resultStatus = (recognitionResultFromJson json).resultStatus := rfl
  rw [status, from_json_code, named, of_string_name, shown]
  cases code <;> simp <;> split_ifs <;> rfl

/-- The application sees the status that the body of a final result names, whatever the
header says and however many alternatives there are; processing is shown as no match,
and no match with an alternative as recognised. -/
theorem final_result_shows (parse : Bytes → Json) (response : ASRMessageResponse)
    (system : System) (code : Code) (going : canceled response = false)
    (body : response.extra ≠ []) (isFinal : finalResult response (parse response.extra) = true)
    (named : ((parse response.extra).get (bytes "result_status")).stringValue =
      RecognitionResult.getString code) :
    Shows system (handled parse response system)
      (shown code ((parse response.extra).get (bytes "alternatives")).arrayItems) := by
  have status := segment_code (parse response.extra) code named
  obtain ⟨stored, calls, clears, lost, changes, does⟩ := handled_does parse response system
  cases does with
  | canceled isCanceled => exact absurd (going.symm.trans isCanceled) (by decide)
  | bodiless _ empty => exact absurd empty body
  | segment _ _ _ =>
    refine ⟨⟨_, changes.result, status⟩, fun events listener result log member => ?_⟩
    have isCall := changes.call_mem log member
    rw [announcements, List.flatMap_singleton] at isCall
    obtain ⟨other, -, same⟩ := List.mem_map.mp isCall
    cases same
    exact status
  | announced _ _ notFinal partialResult first =>
    exact absurd (isFinal.symm.trans notFinal) (by decide)
  | undefined _ _ notFinal none => exact absurd (isFinal.symm.trans notFinal) (by decide)

/-- A body of a final result with a status and two alternatives. -/
def twoAlternatives (status : String) : Json :=
  .object [(bytes "result_status", .string (bytes status)),
    (bytes "alternatives", .array [.object [], .object []])]

/-- A result that the server ended early is shown as such, with its alternatives. -/
theorem max_speech_shown :
    Shows { properties := {}, impl := { listener := [7] } }
      (handled (fun _ => twoAlternatives "MAX_SPEECH") (resultResponse "RECOGNIZED")
        { properties := {}, impl := { listener := [7] } }) .maxSpeech :=
  final_result_shows (fun _ => twoAlternatives "MAX_SPEECH") (resultResponse "RECOGNIZED") _
    .maxSpeech (by decide +kernel) (by decide +kernel) (by decide +kernel) (by decide +kernel)

/-- A result that names no match is shown as recognised, because it has alternatives. -/
theorem no_match_shown_as_recognized :
    ¬ ∀ (parse : Bytes → Json) (response : ASRMessageResponse) (system : System),
      canceled response = false → response.extra ≠ [] →
        finalResult response (parse response.extra) = true →
          let name := ((parse response.extra).get (bytes "result_status")).stringValue
          ∃ code, Shows system (handled parse response system) code ∧
            (∀ other, name = RecognitionResult.getString other → code = other) ∧
              ((∀ other, name ≠ RecognitionResult.getString other) →
                resultStatus response = RecognitionResult.getString code) := by
  intro always
  obtain ⟨code, shows, named, -⟩ := always (fun _ => twoAlternatives "NO_MATCH")
    (resultResponse "RECOGNIZED") { properties := {}, impl := { listener := [7] } }
    (by decide +kernel) (by decide +kernel) (by decide +kernel)
  obtain rfl := named .noMatch (by decide +kernel)
  obtain ⟨result, added, isNoMatch⟩ := shows.stored
  have same : [segment (twoAlternatives "NO_MATCH")] = [result] :=
    (show _ = [segment (twoAlternatives "NO_MATCH")] by decide +kernel).symm.trans added
  rw [← (List.cons.inj same).1] at isNoMatch
  exact absurd isNoMatch (by decide +kernel)

end ASRProcessResult

end AsrClient
