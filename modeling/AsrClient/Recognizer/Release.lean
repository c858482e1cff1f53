import AsrClient.Recognizer.Frames

/-!
# The end of a recognition

A recognition that was accepted is in progress until a message ends it, a request can
not be sent, or the connection is closed. The flag of the implementation object is set
by the acceptance, and cleared by the messages that end a recognition with a result or
with a cancellation. Nothing else clears it: neither an error that the server reports,
nor a failure to send, nor the end of the connection.

The flag therefore tells the truth as long as none of these three happens while it is set,
but for the time in which a handler has still to clear it: the last result is stored some
statements earlier, so a wait may have returned by then, and the next recognition come to its
test of the flag.
-/

namespace AsrClient

open Transitions SpeechRecognizer

/-- How a message can end a recognition. -/
inductive Ending where
  | error
  | cancellation
  | finalResult
deriving DecidableEq

/-- A failed reply to one of the requests that start a recognition, or a reply to its
cancellation. -/
def replyEnding (response : ASRMessageResponse) : Option Ending :=
  let value := response.getHeader ResponseHeader.method.getString
  if value = getMethodString .createSession ∨ value = getMethodString .setParameters ∨
      value = getMethodString .startRecognition then
    if ASRProcessResponse.succeeded response then none else some .error
  else if value = getMethodString .cancelRecognition then
    if ASRProcessResponse.succeeded response || ASRProcessResponse.invalidAction response then
      some .cancellation
    else none
  else none

/-- A cancelled result, or a final one that has no body or is the last segment. -/
def resultEnding (parse : Bytes → Json) (response : ASRMessageResponse) : Option Ending :=
  let json := parse response.extra
  if ASRProcessResult.canceled response then some .cancellation
  else if response.extra = [] then some .finalResult
  else if ASRProcessResult.finalResult response json && ASRProcessResult.lastSegment json then
    some .finalResult
  else none

/-- The end of the recognition that a message tells, if any. -/
def ending (parse : Bytes → Json) (response : ASRMessageResponse) : Option Ending :=
  match methodWord response with
  | none => none
  | some method =>
      if contains method (getMethodString .response) then replyEnding response
      else if contains method (getMethodString .recognitionResult) then resultEnding parse response
      else none

/-- The entries of the log with which a recognition ends. -/
def ends (parse : Bytes → Json) : Event → Bool
  | .received response => (ending parse response).isSome
  | .sendFailed .. => true
  | .closed => true
  | _ => false

/-- An accepted recognition has not ended yet. -/
def inProgress (parse : Bytes → Json) : List Event → Bool
  | [] => false
  | .accepted :: _ => true
  | event :: log => !ends parse event && inProgress parse log

/-- The flag is set only while a recognition is in progress, or while the handler that is
about to clear it is at work. -/
def Tracked (parse : Bytes → Json) (system : System) : Prop :=
  system.impl.recognizing = true →
    inProgress parse system.log = true ∨ WsStmt.clearRecognizing ∈ system.ws

/-- A step with which a recognition ends while nothing clears the flag: an error is
reported, a request can not be sent, or the connection is closed. -/
def endsUncleared (parse : Bytes → Json) (system : System) : Label → Bool
  | .receive payload =>
      match ASRMessageResponse.consume payload with
      | .ok response => ending parse response = some .error
      | .error _ => false
  | .app outcome =>
      match system.app.head? with
      | some .clearOpen => true
      | some .createSession => outcome ≠ .ok
      | some .startRecognition => outcome ≠ .ok
      | some .cancelRequest => outcome ≠ .ok
      | _ => false
  | .ws outcome =>
      match system.ws.head? with
      | some .setParameters => outcome ≠ .ok
      | some .startRecognition => outcome ≠ .ok
      | _ => false
  | .sender outcome =>
      match system.impl.sendAudioMessageThread with
      | some (.sending _ _) => outcome ≠ .ok
      | _ => false
  | _ => false

/-- A recognition comes to its test of the flag while a handler has still to clear it. -/
def testsEarly (system : System) : Label → Bool
  | .app _ => system.app.head? = some .rejectActive && system.ws.contains .clearRecognizing
  | _ => false

/-- A recognition is rejected. -/
def rejects (system : System) : Label → Bool
  | .app _ => system.app.head? = some .rejectActive && system.impl.recognizing
  | _ => false

/-- A recognition ends so only while the flag is clear, and none comes to its test early. -/
def EndsCleared (parse : Bytes → Json) (system : System) (label : Label) : Prop :=
  (system.impl.recognizing = true → endsUncleared parse system label = false) ∧
    testsEarly system label = false

instance (parse : Bytes → Json) (system : System) (label : Label) :
    Decidable (EndsCleared parse system label) :=
  inferInstanceAs (Decidable (_ ∧ _))

/-- The reply to a cancellation is handled as one. -/
theorem dispatch_cancel (response : ASRMessageResponse)
    (value : response.getHeader ResponseHeader.method.getString =
      getMethodString .cancelRecognition) :
    ASRProcessResponse.dispatch response = ASRProcessResponse.cancelRecog response := by
  simp only [ASRProcessResponse.dispatch, value]
  rw [if_neg (by decide), if_neg (by decide), if_neg (by decide), if_pos trivial]

/-- The handler of a reply that ends a recognition, but not by an error, clears the flag. -/
theorem reply_ending_clears (response : ASRMessageResponse) (kind : Ending) (sound : kind ≠ .error)
    (finished : replyEnding response = some kind) :
    WsStmt.clearRecognizing ∈ ASRProcessResponse.handle response := by
  simp only [replyEnding] at finished
  split_ifs at finished with starts succeeded cancels accepted
  · exact absurd (Option.some.inj finished).symm sound
  · rw [ASRProcessResponse.handle, dispatch_cancel response cancels,
      ASRProcessResponse.cancelRecog, if_pos accepted]
    simp

/-- The handler of a result that ends a recognition clears the flag. -/
theorem result_ending_clears (parse : Bytes → Json) (response : ASRMessageResponse)
    (finished : (resultEnding parse response).isSome = true) :
    WsStmt.clearRecognizing ∈ ASRProcessResult.handle parse response := by
  simp only [resultEnding] at finished
  simp only [ASRProcessResult.handle, List.mem_append]
  right
  split_ifs at finished with canceled empty last
  · simp [canceled]
  · simp [canceled, empty]
  · obtain ⟨isFinal, isLast⟩ := Bool.and_eq_true_iff.mp last
    simp [canceled, empty, isFinal, isLast, ASRProcessResult.finalSegment]
  · exact absurd finished (by simp)

/-- The handler of a message that ends a recognition, but not by an error, clears the
flag. -/
theorem ending_clears (parse : Bytes → Json) (response : ASRMessageResponse) (kind : Ending)
    (sound : kind ≠ .error) (finished : ending parse response = some kind) :
    WsStmt.clearRecognizing ∈ ASRProcessMsg.handle parse response := by
  unfold ending at finished
  unfold ASRProcessMsg.handle
  cases word : methodWord response with
  | none => simp [word] at finished
  | some method =>
    simp only [word] at finished ⊢
    split_ifs at finished ⊢ with isResponse isResult
    · exact reply_ending_clears response kind sound finished
    · exact result_ending_clears parse response (by simp [finished])

/-- Entries that end nothing leave a recognition in progress. -/
theorem in_progress_cons (parse : Bytes → Json) (event : Event) (log : List Event)
    (lasting : ends parse event = false) (progress : inProgress parse log = true) :
    inProgress parse (event :: log) = true := by
  cases event <;> simp_all [inProgress]

/-- A statement of the application thread logs the end of a recognition only where the
condition forbids it. -/
theorem app_ends (parse : Bytes → Json) (outcome : Outcome) (system : System) (stmt : AppStmt)
    (rest : List AppStmt) (event : Event) (next : system.app = stmt :: rest)
    (logged : stmt.MayLog outcome event)
    (allowed : endsUncleared parse system (.app outcome) = false) : ends parse event = false := by
  simp only [endsUncleared, next, List.head?_cons] at allowed
  cases event <;> simp only [ends] <;> cases stmt <;> cases outcome <;>
    simp_all [AppStmt.MayLog]

/-- A statement of the websocket thread likewise. -/
theorem ws_ends (parse : Bytes → Json) (outcome : Outcome) (system : System) (stmt : WsStmt)
    (rest : List WsStmt) (event : Event) (next : system.ws = stmt :: rest)
    (logged : stmt.MayLog outcome event)
    (allowed : endsUncleared parse system (.ws outcome) = false) : ends parse event = false := by
  simp only [endsUncleared, next, List.head?_cons] at allowed
  cases event <;> simp only [ends] <;> cases stmt <;> cases outcome <;>
    simp_all [WsStmt.MayLog]

/-- Every allowed step keeps track of the flag. -/
theorem tracked_step (parse : Bytes → Json) (before after : System) (label : Label)
    (tracked : Tracked parse before) (allowed : EndsCleared parse before label)
    (moved : step parse before label = some after) : Tracked parse after := by
  obtain ⟨-, moves⟩ := step_moves parse before after label moved
  obtain ⟨uncleared, -⟩ := allowed
  intro recognizing
  cases moves with
  | call call idle =>
    exact (tracked recognizing).imp_left (in_progress_cons parse _ _ rfl)
  | app outcome stmt rest _ next performed =>
    rcases app_recognizing performed recognizing with ⟨-, accepted⟩ | already
    · exact Or.inl (by rw [accepted]; rfl)
    · rw [app_ws performed]
      refine (tracked already).imp_left fun progress => ?_
      rcases app_log performed with same | ⟨event, logged, mayLog⟩
      · rw [same]
        exact progress
      · rw [logged]
        exact in_progress_cons parse event _
          (app_ends parse outcome before stmt rest event next mayLog (uncleared already)) progress
  | gaveUp rest exception asleep free =>
    exact (tracked recognizing).imp_left (in_progress_cons parse _ _ rfl)
  | expired condition rest asleep free met => exact tracked recognizing
  | rejected payload cause other free => exact tracked recognizing
  | received payload response decoded free =>
    have progress : inProgress parse before.log = true :=
      (tracked recognizing).resolve_right (by simp [free])
    cases finished : ending parse response with
    | none => exact Or.inl (in_progress_cons parse _ _ (by simp [ends, finished]) progress)
    | some kind =>
      refine Or.inr (ending_clears parse response kind ?_ finished)
      rintro rfl
      have none := uncleared recognizing
      simp [endsUncleared, decoded, finished] at none
  | event label stmts connection free =>
    exact Or.inl ((tracked recognizing).resolve_right (by simp [free]))
  | ws outcome stmt rest next =>
    rw [ws_recognizing, Bool.and_eq_true, decide_eq_true_eq] at recognizing
    obtain ⟨already, other⟩ := recognizing
    obtain ⟨new, list, -⟩ := ws_list outcome { before with ws := rest } stmt
    cases tracked already with
    | inl progress =>
      left
      rcases ws_log outcome { before with ws := rest } stmt with same | ⟨event, logged, mayLog⟩
      · rw [same]
        exact progress
      · rw [logged]
        exact in_progress_cons parse event _
          (ws_ends parse outcome before stmt rest event next mayLog (uncleared already)) progress
    | inr pending =>
      right
      rw [next, List.mem_cons] at pending
      rw [list]
      exact List.mem_append_right _ (pending.resolve_left (Ne.symm other))
  | read ret chunk _ performed =>
    obtain ⟨frame, log⟩ := read_frame ret chunk before after performed
    rw [frame.keeps (·.recognizing)] at recognizing
    rw [frame.ws, log]
    exact tracked recognizing
  | sender outcome _ performed =>
    obtain ⟨frame, log⟩ := sender_frame outcome before after performed
    rw [frame.keeps (·.recognizing)] at recognizing
    rw [frame.ws]
    refine (tracked recognizing).imp_left fun progress => ?_
    rcases log with same | ⟨ret, buffer, position, ⟨-, sent⟩ | ⟨failed, unsent⟩⟩
    · rw [same]
      exact progress
    · rw [sent]
      exact in_progress_cons parse _ _ rfl progress
    · have none := uncleared recognizing
      simp [endsUncleared, position, failed] at none

end AsrClient
