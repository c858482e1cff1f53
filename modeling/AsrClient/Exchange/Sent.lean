import AsrClient.Exchange.Legible

/-!
# What the client sends

Each request is built from what the client holds when it is sent: the language model of the
recognition, the configuration of the object, the chunk that the audio sender has read. So
the requests of a run are legible when the application passes no language model and the
audio source returns no chunk that an `int` cannot measure, and no text of the configuration
has a line feed.
-/

namespace AsrClient

open SpeechRecognizer

/-- A request that is built from what the object holds. -/
inductive OwnRequest (impl : Impl) : ASRMessageRequest → Prop where
  | session : OwnRequest impl ASRSendMessage.createSession
  | cancellation : OwnRequest impl ASRSendMessage.cancelRecognition
  | start (lm : LanguageModelList) (request : ASRMessageRequest) (model : impl.lm = some lm)
      (made : ASRSendMessage.startRecognition lm = some request) : OwnRequest impl request
  | parameters (config : RecognitionConfig) (configured : impl.config = some config) :
      OwnRequest impl (ASRSendMessage.setParameters config)
  | audio (ret : Int) (buffer : Bytes)
      (position : impl.sendAudioMessageThread = some (.sending ret buffer)) :
      OwnRequest impl (ASRSendMessage.sendAudio ret buffer)

/-- The chunk that the audio sender holds. -/
def Sender.buffer : Sender → Bytes
  | .read => []
  | .test _ buffer => buffer
  | .wantLock _ buffer => buffer
  | .logging _ buffer => buffer
  | .sending _ buffer => buffer
  | .finished => []

/-- What the application and the audio source hand over has a length that an `int` holds. -/
def Label.Short : Label → Prop
  | .call (.recognize _ (some lm)) => lm.Short
  | .read _ chunk => chunk.length < 2 ^ 31
  | _ => True

instance (label : Label) : Decidable label.Short := by
  unfold Label.Short
  split <;> infer_instance

/-- The language models and the chunk that the client holds are short. -/
structure HoldsShort (system : System) : Prop where
  lm : ∀ lm, system.impl.lm = some lm → lm.Short
  setLm : ∀ lm, .setLm (some lm) ∈ system.app → lm.Short
  buffer : ∀ sender, system.impl.sendAudioMessageThread = some sender →
    sender.buffer.length < 2 ^ 31

section Sending

variable {parse : Bytes → Json} {outcome : Outcome} {before after : System} {thread : Thread}
  {request : ASRMessageRequest}

/-- The application thread sends such requests. -/
theorem app_sends_own {stmt : AppStmt} (performed : execApp outcome before stmt = some after)
    (sent : after.log = .sent thread request :: before.log) : OwnRequest before.impl request := by
  have grown : before.log ≠ .sent thread request :: before.log := (List.cons_ne_self _ _).symm
  have own {new : ASRMessageRequest} (request_own : OwnRequest before.impl new)
      (logged : (if outcome = .ok then Event.sent .application new
        else .sendFailed .application new) ::
        before.log = .sent thread request :: before.log) : OwnRequest before.impl request := by
    obtain ⟨entry, -⟩ := List.cons.inj logged
    split_ifs at entry
    cases entry
    exact request_own
  cases stmt with
  | createSession =>
    cases performed
    exact own .session (by simpa [System.send] using sent)
  | cancelRequest =>
    cases performed
    exact own .cancellation (by simpa [System.send] using sent)
  | startRecognition =>
    simp only [execApp] at performed
    split at performed
    · cases performed
      exact absurd sent grown
    · rename_i lm model
      split at performed
      · cases performed
        simp [System.raise] at sent
      · rename_i new made
        cases performed
        exact own (.start lm new model made) (by simpa [System.send] using sent)
  | _ =>
    rcases app_log performed with same | ⟨event, logged, mayLog⟩
    · exact absurd (same.symm.trans sent) grown
    · obtain ⟨rfl, -⟩ := List.cons.inj (logged.symm.trans sent)
      cases outcome <;> exact absurd mayLog id

/-- The handlers send such requests. -/
theorem ws_sends_own {stmt : WsStmt}
    (sent : (execWs outcome before stmt).log = .sent thread request :: before.log) :
    OwnRequest before.impl request := by
  have grown : before.log ≠ .sent thread request :: before.log := (List.cons_ne_self _ _).symm
  have own {new : ASRMessageRequest} (request_own : OwnRequest before.impl new)
      (logged : (if outcome = .ok then Event.sent .websocket new
        else .sendFailed .websocket new) ::
        before.log = .sent thread request :: before.log) : OwnRequest before.impl request := by
    obtain ⟨entry, -⟩ := List.cons.inj logged
    split_ifs at entry
    cases entry
    exact request_own
  cases stmt with
  | setParameters =>
    simp only [execWs] at sent
    split at sent
    · exact absurd sent grown
    · rename_i config configured
      exact own (.parameters config configured) (by simpa [System.send] using sent)
  | startRecognition =>
    simp only [execWs] at sent
    split at sent
    · exact absurd sent grown
    · rename_i lm model
      split at sent
      · exact absurd sent grown
      · rename_i new made
        exact own (.start lm new model made) (by simpa [System.send] using sent)
  | _ =>
    rcases ws_log outcome before _ with same | ⟨event, logged, mayLog⟩
    · exact absurd (same.symm.trans sent) grown
    · obtain ⟨rfl, -⟩ := List.cons.inj (logged.symm.trans sent)
      cases outcome <;> exact absurd mayLog id

/-- Every request that a step sends is built from what the object held before it. -/
theorem sent_own {label : Label} (moved : step parse before label = some after)
    (sent : after.log = .sent thread request :: before.log) : OwnRequest before.impl request := by
  have grown : before.log ≠ .sent thread request :: before.log := (List.cons_ne_self _ _).symm
  obtain ⟨-, moves⟩ := step_moves parse before after label moved
  cases moves with
  | call call idle => cases sent
  | app outcome stmt rest _ next performed => exact (app_sends_own performed sent :)
  | gaveUp rest exception asleep free => cases sent
  | expired condition rest asleep free met => exact absurd sent grown
  | rejected payload cause other free => exact absurd sent grown
  | received payload response decoded free => cases sent
  | event label stmts connection free => exact absurd sent grown
  | ws outcome stmt rest next => exact (ws_sends_own sent :)
  | read ret chunk _ performed =>
    exact absurd ((read_frame ret chunk before after performed).2.symm.trans sent) grown
  | sender outcome _ performed =>
    rcases (sender_frame outcome before after performed).2 with same |
      ⟨ret, buffer, position, ⟨-, logged⟩ | ⟨-, logged⟩⟩
    · exact absurd (same.symm.trans sent) grown
    · obtain ⟨entry, -⟩ := List.cons.inj (logged.symm.trans sent)
      cases entry
      exact .audio ret buffer position
    · exact absurd (List.cons.inj (logged.symm.trans sent)).1 (by simp)

/-- A request is legible when what it is built from is short, and no text has a line feed. -/
theorem OwnRequest.legible (own : OwnRequest before.impl request) (short : HoldsShort before)
    (unbroken : ∀ config, before.impl.config = some config → config.Unbroken) :
    Legible request := by
  cases own with
  | session => exact create_session_codable.legible rfl (by decide)
  | cancellation => exact (create_codable .cancelRecognition).legible rfl (by decide)
  | start lm _ model made =>
    exact (start_recognition_codable made (short.lm lm model)).legible
      (start_recognition_start_line made) (by decide)
  | parameters config configured => exact set_parameters_legible config (unbroken config configured)
  | audio ret buffer position =>
    exact (send_audio_codable ret buffer (short.buffer _ position)).legible rfl (by decide)

end Sending

section Holding

variable {parse : Bytes → Json} {outcome : Outcome} {before after : System}

/-- The application thread takes its language model from one statement, and starts no
sender. -/
theorem app_holds {stmt : AppStmt} (performed : execApp outcome before stmt = some after) :
    (after.impl.lm = before.impl.lm ∨ after.impl.lm = none ∨ stmt = .setLm after.impl.lm) ∧
      (after.impl.sendAudioMessageThread = before.impl.sendAudioMessageThread ∨
        after.impl.sendAudioMessageThread = none) := by
  cases stmt <;> simp only [execApp, Option.some.injEq] at performed <;>
    (repeat' split at performed) <;> cases performed <;>
    first
    | exact ⟨Or.inl rfl, Or.inl rfl⟩
    | exact ⟨Or.inl rfl, Or.inr rfl⟩
    | exact ⟨Or.inr (Or.inl rfl), Or.inr rfl⟩
    | exact ⟨Or.inr (Or.inr rfl), Or.inl rfl⟩

/-- The handlers leave the language model alone, and start a sender at its first read. -/
theorem ws_holds (outcome : Outcome) (before : System) (stmt : WsStmt) :
    (execWs outcome before stmt).impl.lm = before.impl.lm ∧
      ((execWs outcome before stmt).impl.sendAudioMessageThread =
          before.impl.sendAudioMessageThread ∨
        (execWs outcome before stmt).impl.sendAudioMessageThread = some .read) := by
  cases stmt <;> simp only [execWs] <;> (repeat' split) <;>
    first
    | exact ⟨rfl, Or.inl rfl⟩
    | exact ⟨rfl, Or.inr rfl⟩

/-- No statement puts another language model before the rest. -/
theorem expands_lm {stmt : AppStmt} {new : List AppStmt} (expands : stmt.Expands new) :
    ∀ pushed ∈ new, ∀ lm, pushed ≠ .setLm lm := by
  refine expands_all expands (by simp) (by simp) ?_
  cases stmt <;>
    simp [AppStmt.pushes, implOpen, implClose, terminateSendMessageThread, takeResults, resetImpl]

/-- The audio sender keeps the chunk that it has read until it drops it. -/
theorem sender_buffer (performed : execSender outcome before = some after) (sender : Sender)
    (position : after.impl.sendAudioMessageThread = some sender) :
    sender.buffer = [] ∨ ∃ former, before.impl.sendAudioMessageThread = some former ∧
      sender.buffer = former.buffer := by
  rw [execSender] at performed
  split at performed
  · rename_i ret buffer held
    split_ifs at performed <;> cases performed <;> obtain rfl := Option.some.inj position
    · exact Or.inl rfl
    · exact Or.inl rfl
    · exact Or.inr ⟨_, held, rfl⟩
  · rename_i ret buffer held
    split_ifs at performed
    cases performed
    obtain rfl := Option.some.inj position
    exact Or.inr ⟨_, held, rfl⟩
  · rename_i ret buffer held
    cases performed
    obtain rfl := Option.some.inj position
    exact Or.inr ⟨_, held, rfl⟩
  · cases performed
    obtain rfl := Option.some.inj position
    split_ifs <;> exact Or.inl rfl
  · cases performed
  · cases performed
  · cases performed

/-- Every step that hands over something short keeps what the client holds short. -/
theorem HoldsShort.step {label : Label} (short : HoldsShort before) (allowed : label.Short)
    (moved : step parse before label = some after) : HoldsShort after := by
  obtain ⟨-, moves⟩ := step_moves parse before after label moved
  -- A step that adds neither a language model nor a chunk.
  have apart (lm : after.impl.lm = before.impl.lm)
      (app : ∀ lm, .setLm (some lm) ∈ after.app → .setLm (some lm) ∈ before.app)
      (sender : after.impl.sendAudioMessageThread = before.impl.sendAudioMessageThread) :
      HoldsShort after :=
    ⟨lm ▸ short.lm, fun lm member => short.setLm lm (app lm member), sender ▸ short.buffer⟩
  cases moves with
  | call call idle =>
    refine ⟨short.lm, fun lm member => ?_, short.buffer⟩
    cases call with
    | recognize audioSrc given =>
      obtain rfl : some lm = given := by simpa [System.record, program, recognize] using member
      exact allowed
    | waitRecognitionResult => simp [System.record, program, waitRecognitionResult] at member
    | cancelRecognition => simp [System.record, program, cancelRecognition] at member
    | close => simp [System.record, program, close] at member
  | app outcome stmt rest _ next performed =>
    obtain ⟨models, senders⟩ := app_holds performed
    have later {other : AppStmt} (member : other ∈ rest) : other ∈ before.app :=
      next ▸ List.mem_cons_of_mem _ member
    constructor
    · intro lm model
      rcases models with same | none | taken
      · exact short.lm lm (same ▸ model)
      · exact absurd (none.symm.trans model) (by simp)
      · exact short.setLm lm (by rw [next, taken, model]; exact List.mem_cons_self)
    · intro lm member
      rcases app_list performed with empty | ⟨new, list, expands⟩
      · simp [empty] at member
      · rw [list, List.mem_append] at member
        cases member with
        | inl pushed => exact absurd rfl (expands_lm expands _ pushed _)
        | inr former => exact short.setLm lm (later former)
    · intro sender position
      rcases senders with same | none
      · exact short.buffer sender (same ▸ position)
      · exact absurd (none.symm.trans position) (by simp)
  | gaveUp rest exception asleep free => exact apart rfl (by simp [System.raise]) rfl
  | expired condition rest asleep free met =>
    exact apart rfl (fun lm member => asleep ▸ List.mem_cons_of_mem _ member) rfl
  | rejected payload cause other free => exact apart rfl (fun _ => id) rfl
  | received payload response decoded free => exact apart rfl (fun _ => id) rfl
  | event label stmts connection free => exact apart rfl (fun _ => id) rfl
  | ws outcome stmt rest next =>
    obtain ⟨lm, senders⟩ := ws_holds outcome { before with ws := rest } stmt
    refine ⟨lm ▸ short.lm, fun lm member => ?_, fun sender position => ?_⟩
    · rw [ws_app] at member
      exact short.setLm lm member
    · rcases senders with same | started
      · exact short.buffer sender (same ▸ position)
      · obtain rfl := Option.some.inj (started.symm.trans position)
        decide
  | read ret chunk _ performed =>
    obtain ⟨frame, -⟩ := read_frame ret chunk before after performed
    refine ⟨frame.keeps (·.lm) ▸ short.lm, frame.app ▸ short.setLm, fun sender position => ?_⟩
    rw [execRead] at performed
    split_ifs at performed
    · cases performed
      exact short.buffer sender position
    · cases performed
      obtain rfl := Option.some.inj position
      exact allowed
  | sender outcome _ performed =>
    obtain ⟨frame, -⟩ := sender_frame outcome before after performed
    refine ⟨frame.keeps (·.lm) ▸ short.lm, frame.app ▸ short.setLm, fun sender position => ?_⟩
    rcases sender_buffer performed sender position with empty | ⟨former, held, same⟩
    · rw [empty]
      decide
    · rw [same]
      exact short.buffer former held

end Holding

/-- The last audio message of a recognition. -/
def isLastPacket (request : ASRMessageRequest) : Bool :=
  isRequest .sendAudio request && request.getHeader (bytes "LastPacket") = bytes "true"

/-- The last packet was sent behind the acceptance of the latest recognition. -/
def lastSent : List Event → Bool
  | [] => false
  | .accepted :: _ => false
  | .sent _ request :: log => isLastPacket request || lastSent log
  | _ :: log => lastSent log

end AsrClient
