import AsrClient.Exchange.Preparation

/-!
# Which runs lose the client

The process of the client is lost when an exception leaves the websocket thread, when an
operation is undefined, or when a thread object that holds a thread is assigned or destroyed.
An application that hands every recognition an audio source and a language model does not
meet most of these on one connection to the mock server: all its messages are decoded, what
the handlers read is there, and the thread of the connection is started once. What is left is
the audio sender of a recognition that is started while the thread object of the former
sender has not been joined.

Audio sources are told apart by numbers, and have no lifetime here: the application is taken to
keep each of them alive while a sender reads it.
-/

namespace AsrClient

open Transitions SpeechRecognizer

/-- The process is not lost, or only by a sender that takes the place of another. -/
def Survives (system : System) : Prop :=
  system.crashed = none ∨ system.crashed = some .senderOverwritten

section Client

variable {parse : Bytes → Json} {properties : Properties} {outcome : Outcome}
  {before after : System} {label : Label}

/-- The statements of the application that lose the process. -/
theorem app_crashes {stmt : AppStmt} (performed : execApp outcome before stmt = some after) :
    after.crashed = before.crashed ∨ (stmt = .startRecognition ∧ before.impl.lm = none) ∨
      (stmt = .init ∧ before.impl.thread = true) ∨ stmt = .freshImpl := by
  cases stmt <;> simp only [execApp, Option.some.injEq] at performed <;>
    (repeat' split at performed) <;> cases performed <;>
    first
    | exact Or.inl rfl
    | exact Or.inr (Or.inl ⟨rfl, by assumption⟩)
    | exact Or.inr (Or.inr (Or.inl ⟨rfl, by assumption⟩))
    | exact Or.inr (Or.inr (Or.inr rfl))

/-- The statements of the handlers that do: the last of them are not expected. -/
theorem ws_crashes (outcome : Outcome) (before : System) (stmt : WsStmt) :
    (execWs outcome before stmt).crashed = before.crashed ∨
      (stmt = .setParameters ∧ before.impl.config = none) ∨
      (stmt = .startRecognition ∧ ∀ lm, before.impl.lm = some lm →
        ASRSendMessage.startRecognition lm = none) ∨
      (stmt = .startSender ∧ (execWs outcome before stmt).crashed = some .senderOverwritten) ∨
      ¬ stmt.Expected := by
  cases stmt with
  | setParameters =>
    simp only [execWs]
    split
    · exact Or.inr (Or.inl ⟨trivial, by assumption⟩)
    · exact Or.inl rfl
  | startRecognition =>
    simp only [execWs]
    split
    · rename_i none
      exact Or.inr (Or.inr (Or.inl ⟨trivial, by simp [none]⟩))
    · rename_i lm model
      split
      · rename_i unmade
        refine Or.inr (Or.inr (Or.inl ⟨trivial, fun other isOther => ?_⟩))
        obtain rfl := Option.some.inj (model.symm.trans isOther)
        exact unmade
      · exact Or.inl rfl
  | startSender =>
    simp only [execWs]
    split_ifs
    · exact Or.inl rfl
    · exact Or.inr (Or.inr (Or.inr (Or.inl ⟨trivial, rfl⟩)))
    · exact Or.inl rfl
  | configure =>
    simp only [execWs]
    split_ifs <;> exact Or.inl rfl
  | outOfRange | notifyStored => exact Or.inr (Or.inr (Or.inr (Or.inr id)))
  | _ => exact Or.inl rfl

/-- A recognition can be started from what the application has to hand over. -/
theorem start_made {lm : LanguageModelList} (given : lm.Given) :
    ASRSendMessage.startRecognition lm ≠ none := by
  simp only [ASRSendMessage.startRecognition]
  split_ifs with uri grammar
  · simp
  · simp
  · exact fun _ => given.elim uri grammar

/-- What the process needs so as not to be lost. -/
structure Holds (system : System) : Prop where
  prepared : Prepared system
  connects : Connects system
  expected : ∀ stmt ∈ system.ws, stmt.Expected
  survives : Survives system

/-- Every fair step keeps what is needed. -/
theorem Prepared.step (prepared : Prepared before) (same : SameImpl properties before)
    (fair : Fair parse before label) (moved : step parse before label = some after) :
    Prepared after := by
  obtain ⟨-, moves⟩ := step_moves parse before after label moved
  have sameWs (stmt : WsStmt) (member : stmt ∈ before.ws) :
      stmt ∈ before.ws ∨ (stmt.needs = false ∧ stmt ≠ .setParameters) := Or.inl member
  cases moves with
  | call call idle =>
    obtain ⟨supplied, setLm, setSrc⟩ := program_supplied fair.proper before.impl.audioSrc.isSome
      before.impl.lm.isSome
    exact ⟨prepared.given, setLm, setSrc, supplied, fun thread request sent =>
      prepared.requests thread request ((List.mem_cons.mp sent).resolve_left (by simp)),
      prepared.handlers, prepared.parameters, prepared.sender⟩
  | app outcome stmt rest _ next performed => exact prepared.app same next performed
  | gaveUp rest exception asleep free =>
    exact prepared.frame rfl rfl rfl rfl (fun _ member => absurd member List.not_mem_nil) trivial
      sameWs fun thread request sent _ => (List.mem_cons.mp sent).resolve_left (by simp)
  | expired condition rest asleep free met =>
    have supplied := prepared.application
    rw [asleep] at supplied
    exact prepared.frame rfl rfl rfl rfl (fun _ member => asleep ▸ List.mem_cons_of_mem _ member)
      supplied.2 sameWs fun _ _ sent _ => sent
  | rejected payload cause other free =>
    exact prepared.frame rfl rfl rfl rfl (fun _ => id) prepared.application sameWs
      fun _ _ sent _ => sent
  | received payload response decoded free =>
    have serves : served before.log response = true := by
      simpa [serves, decoded] using fair.served.2
    exact prepared.received response serves
  | event label stmts connection free =>
    refine prepared.frame rfl rfl rfl rfl (fun _ => id) prepared.application ?_
      fun _ _ sent _ => sent
    cases connection <;> simp [WsStmt.needs]
  | ws outcome stmt rest next => exact prepared.ws next
  | read ret chunk _ performed =>
    obtain ⟨frame, log⟩ := read_frame ret chunk before after performed
    exact prepared.frame (frame.keeps (·.lm)) (frame.keeps (·.audioSrc)) (frame.keeps (·.config))
      frame.held (frame.app ▸ fun _ => id) (frame.app ▸ prepared.application) (frame.ws ▸ sameWs)
      fun _ _ sent _ => log ▸ sent
  | sender outcome _ performed =>
    obtain ⟨frame, log⟩ := sender_frame outcome before after performed
    refine prepared.frame (frame.keeps (·.lm)) (frame.keeps (·.audioSrc)) (frame.keeps (·.config))
      frame.held (frame.app ▸ fun _ => id) (frame.app ▸ prepared.application) (frame.ws ▸ sameWs) ?_
    intro thread request sent opens
    rcases log with unchanged | ⟨ret, buffer, -, ⟨-, logged⟩ | ⟨-, logged⟩⟩
    · exact unchanged ▸ sent
    · rw [logged, List.mem_cons] at sent
      rcases sent with isNew | former
      · cases isNew
        have start : (ASRSendMessage.sendAudio ret buffer).startLine = firstLine .sendAudio := rfl
        simp [opensRecognition, is_request_iff start] at opens
      · exact former
    · rw [logged, List.mem_cons] at sent
      exact sent.resolve_left (by simp)

/-- No fair step loses the process but the start of a sender. -/
theorem Holds.survives_step (holds : Holds before) (same : SameImpl properties before)
    (fair : Fair parse before label) (moved : step parse before label = some after) :
    Survives after := by
  obtain ⟨alive, moves⟩ := step_moves parse before after label moved
  have still (crashed : after.crashed = before.crashed) : Survives after :=
    Or.inl (crashed.trans alive)
  obtain ⟨prepared, connects, expected, -⟩ := holds
  cases moves with
  | app outcome stmt rest _ next performed =>
    have supplied := prepared.application
    rw [next] at supplied
    rcases app_crashes performed with unchanged | ⟨rfl, none⟩ | ⟨rfl, runs⟩ | rfl
    · exact still unchanged
    · have has := (supplied.1 rfl).2
      rw [show before.impl.lm = Option.none from none] at has
      cases has
    · have idle := connects.idle .init (by simp [next]) rfl
      exact absurd (idle.symm.trans runs) (by decide)
    · exact absurd (same.keepsImpl .freshImpl (by simp [next])) (by decide)
  | rejected payload cause other free =>
    obtain ⟨response, decoded, -⟩ := fair.understood
    obtain ⟨-, -, -, equal⟩ := receive_decoded decoded moved
    have crashed := congrArg System.crashed equal
    simp [System.crash, System.record, alive] at crashed
  | ws outcome stmt rest next =>
    rcases ws_crashes outcome { before with ws := rest } stmt with
      unchanged | ⟨rfl, none⟩ | ⟨rfl, unmade⟩ | ⟨-, overwritten⟩ | unexpected
    · exact still unchanged
    · have present := prepared.parameters (by simp [next])
      rw [show before.impl.config = Option.none from none] at present
      cases present
    · obtain ⟨lm, isModel⟩ := Option.isSome_iff_exists.mp
        (prepared.handlers .startRecognition (by simp [next]) rfl).lm
      exact absurd (unmade lm isModel) (start_made (prepared.given lm isModel))
    · exact Or.inr overwritten
    · exact absurd (expected stmt (by simp [next])) unexpected
  | read ret chunk _ performed =>
    rw [execRead] at performed
    split_ifs at performed with reading none
    · have has := (prepared.sender (by rw [reading]; rfl)).audioSrc
      rw [Option.isNone_iff_eq_none.mp none] at has
      cases has
    · cases performed
      exact Or.inl alive
  | sender outcome _ performed =>
    rw [execSender] at performed
    (repeat' split at performed) <;> cases performed <;> exact Or.inl alive
  | _ => exact Or.inl alive

/-- Every fair step keeps what the process needs. -/
theorem Holds.step (holds : Holds before) (same : SameImpl properties before)
    (fair : Fair parse before label) (moved : step parse before label = some after) :
    Holds after := by
  refine ⟨holds.prepared.step same fair moved, holds.connects.step same fair.served.1 moved, ?_,
    holds.survives_step same fair moved⟩
  by_cases receives : label.receives = true
  · cases label with
    | receive payload =>
      obtain ⟨response, decoded, expected⟩ := fair.understood
      obtain ⟨-, -, -, rfl⟩ := receive_decoded decoded moved
      exact expected
    | _ => cases receives
  · exact client_expected moved (by simpa using receives) holds.expected

/-- A new object holds. -/
theorem Holds.built (built : Built properties before) (alive : before.crashed = none) :
    Holds before where
  prepared := by
    constructor <;> simp [built.impl, built.app, built.log, built.ws, Supplied, AppStmt.needs]
  connects := .built built
  expected := by simp [built.ws]
  survives := Or.inl alive

/-- A process under construction is not lost. -/
theorem Building.not_lost (building : Building properties before) : before.crashed = none := by
  cases building <;> rfl

/-- The construction does not lose it. -/
theorem Building.alive (building : Building properties before)
    (moved : AsrClient.step parse before label = some after) : after.crashed = none := by
  obtain ⟨alive, moves⟩ := step_moves parse before after label moved
  have quiet : before.ws = [] ∧ before.impl.thread = false ∧
      before.impl.sendAudioMessageThread = none := by
    cases building <;> simp [System.create]
  obtain ⟨free, deaf, silent⟩ := quiet
  cases moves with
  | app outcome stmt rest _ next performed =>
    rcases app_crashes performed with unchanged | ⟨rfl, -⟩ | ⟨rfl, runs⟩ | rfl
    · exact unchanged.trans alive
    · cases building <;> simp [System.create, resetImpl] at next
    · exact absurd (deaf.symm.trans runs) (by decide)
    · simp only [execApp, deaf, silent] at performed
      cases performed
      exact alive
  | rejected payload cause other _ listening => simp [deaf] at listening
  | ws outcome stmt rest next => simp [free] at next
  | read ret chunk _ performed => simp [execRead, silent] at performed
  | sender outcome _ performed => simp [execSender, silent] at performed
  | _ => exact alive

/-- What is needed is there wherever fair steps lead, once the construction is over. -/
theorem holds_of_execution {labels : List Label} {system : System}
    (execution : Execution (AsrClient.step parse) (Fair parse) (System.create properties) labels
      system) : Building properties system ∨ (SameImpl properties system ∧ Holds system) := by
  refine execution.invariant (fun system => Building properties system ∨
    (SameImpl properties system ∧ Holds system)) (Or.inl .created) ?_
  rintro before label after (building | ⟨same, holds⟩) fair moved
  · cases building.step moved with
    | inl still => exact Or.inl still
    | inr finished => exact Or.inr ⟨.built finished, .built finished (building.alive moved)⟩
  · exact Or.inr ⟨same.step fair.served.1.1 moved, holds.step same fair moved⟩

end Client

/-- A recognition that is called is handed what it needs. -/
def Move.Proper : Move → Prop
  | .client label => label.Proper
  | _ => True

instance Move.decidableProper : (move : Move) → Decidable move.Proper
  | .client label => inferInstanceAs (Decidable label.Proper)
  | .deliver | .serve | .elsewhere _ => inferInstanceAs (Decidable True)

/-- The client keeps its object and its connection, and every recognition is handed what it
needs. -/
def Exchange.Proper (exchange : Exchange) (move : Move) : Prop :=
  exchange.Lawful move ∧ move.Proper

/-- Against the mock server the client takes fair steps. -/
theorem fair_of_execution {parse : Bytes → Json} {properties : Properties} {hdl : ConnectionHdl}
    (reads : ReadsResult parse)
    (unbroken : ∀ config, properties.recogConfig = some config → config.Unbroken)
    {moves : List Move} {exchange : Exchange}
    (execution : Execution (Exchange.step parse hdl) Exchange.Proper
      (Exchange.create properties hdl) moves exchange) :
    ∃ labels, Execution (step parse) (Fair parse) (System.create properties) labels
      exchange.client := by
  induction execution with
  | refl => exact ⟨[], .refl⟩
  | snoc moves before after move former allowed moved inductionHypothesis =>
    obtain ⟨labels, run⟩ := inductionHypothesis
    have coupled := coupled_of_execution reads unbroken (former.weaken fun _ _ proper => proper.1)
    rcases coupled.client_step reads allowed.1 moved with
      ⟨same, -⟩ | ⟨label, served, -, clientMoved, sameStep, taken⟩
    · exact ⟨labels, same ▸ run⟩
    · refine ⟨_, .snoc labels _ _ label run ⟨served, ?_, ?_⟩ clientMoved⟩
      · cases label with
        | call call =>
          cases move with
          | client other =>
            have same : other = .call call := Option.some.inj sameStep
            exact same ▸ allowed.2
          | _ => cases sameStep
        | _ => trivial
      · cases label with
        | receive payload =>
          obtain ⟨say, response, decoded, takes⟩ := taken payload rfl
          exact ⟨response, decoded, takes.handler ▸ say_stmts_expected say⟩
        | _ => trivial

section Errors

variable {parse : Bytes → Json} {outcome : Outcome} {before after : System} {label : Label}

/-- The only errors that are told or stored are those of the connection. -/
structure Reports (system : System) : Prop where
  told : ∀ listener error, .notified listener (.onError error) ∈ system.log →
    error.code = .connectionFailure
  telling : ∀ listener error, .notifyListener listener (.onError error) ∈ system.app →
    error.code = .connectionFailure
  stored : ∀ exception, system.impl.eptr = some exception → exception = .library

/-- Only a failed connection comes to tell the listeners of an error. -/
theorem expands_tells {stmt : AppStmt} {new : List AppStmt} (expands : stmt.Expands new)
    (other : stmt ≠ .checkStatus) (listener : Listener) (callback : Callback) :
    .notifyListener listener callback ∉ new := by
  cases stmt with
  | checkStatus => exact absurd rfl other
  | connect | resetIfAutoClose | testJoinable | closeIfOpen | closeIfAutoClose | init | await
  | connectUnlessDeferred | firstRequest | branchOpen =>
    rcases expands with rfl | rfl <;>
      simp [implOpen, resetImpl, implClose, terminateSendMessageThread, takeResults]
  | sleep condition =>
    obtain rfl : new = [.await condition] := expands
    simp
  | _ =>
    obtain rfl : new = [] := expands
    simp

/-- A failed connection tells the listeners that it has failed. -/
theorem check_status_tells {rest : List AppStmt}
    (performed : execApp outcome { before with app := rest } .checkStatus = some after)
    (listener : Listener) (error : RecognitionError)
    (telling : .notifyListener listener (.onError error) ∈ after.app) :
    error.code = .connectionFailure ∨ .notifyListener listener (.onError error) ∈ rest := by
  simp only [execApp] at performed
  split at performed
  · cases performed
    exact Or.inr (by simpa [System.appThen] using telling)
  · cases performed
    simp only [System.appThen, List.mem_append, List.mem_map, List.mem_singleton,
      AppStmt.notifyListener.injEq, Callback.onError.injEq] at telling
    rcases telling with (⟨other, -, rfl, rfl⟩ | thrown) | left
    · exact Or.inl rfl
    · cases thrown
    · exact Or.inr left

/-- The exception that is stored stays, is taken away, or is one of the library. -/
theorem app_eptr {stmt : AppStmt} (performed : execApp outcome before stmt = some after) :
    after.impl.eptr = before.impl.eptr ∨ after.impl.eptr = none ∨
      after.impl.eptr = some .library := by
  cases stmt <;> simp only [execApp, System.send, Option.some.injEq] at performed <;>
    (repeat' split at performed) <;> cases performed <;>
    first
    | exact Or.inl rfl
    | exact Or.inr (Or.inl rfl)
    | exact Or.inr (Or.inr rfl)

/-- The audio sender stores an exception of the library only. -/
theorem sender_eptr (performed : execSender outcome before = some after) :
    after.impl.eptr = before.impl.eptr ∨ after.impl.eptr = some .library := by
  rw [execSender] at performed
  (repeat' split at performed) <;> cases performed <;>
    first
    | exact Or.inl rfl
    | (cases outcome <;> first | exact Or.inl rfl | exact Or.inr rfl)

/-- A statement of the application tells and stores no other error. -/
theorem Reports.app {stmt : AppStmt} {rest : List AppStmt} (reports : Reports before)
    (next : before.app = stmt :: rest)
    (performed : execApp outcome { before with app := rest } stmt = some after) :
    Reports after := by
  have later {other : AppStmt} (member : other ∈ rest) : other ∈ before.app :=
    next ▸ List.mem_cons_of_mem _ member
  constructor
  · intro listener error told
    rcases app_log performed with unchanged | ⟨event, logged, mayLog⟩
    · exact reports.told listener error (unchanged ▸ told)
    · rw [logged, List.mem_cons] at told
      rcases told with rfl | former
      · cases stmt with
        | notifyListener other callback =>
          obtain ⟨rfl, rfl⟩ : listener = other ∧ .onError error = callback := by
            cases outcome <;> exact mayLog
          exact reports.telling listener error (next ▸ List.mem_cons_self)
        | _ => cases outcome <;> exact absurd mayLog id
      · exact reports.told listener error former
  · intro listener error telling
    by_cases checks : stmt = .checkStatus
    · subst checks
      exact (check_status_tells performed listener error telling).elim id fun left =>
        reports.telling listener error (later left)
    · rcases app_list performed with empty | ⟨new, list, expands⟩
      · simp [empty] at telling
      · rw [list, List.mem_append] at telling
        exact reports.telling listener error
          (later (telling.resolve_left (expands_tells expands checks listener _)))
  · intro exception stored
    rcases app_eptr performed with unchanged | taken | library
    · exact reports.stored exception (unchanged ▸ stored)
    · cases taken.symm.trans stored
    · exact (Option.some.inj (library.symm.trans stored)).symm

/-- A handler of an expected message tells and stores no other error. -/
theorem Reports.ws {stmt : WsStmt} {rest : List WsStmt} (reports : Reports before)
    (expected : stmt.Expected) : Reports (execWs outcome { before with ws := rest } stmt) := by
  constructor
  · intro listener error told
    rcases ws_log outcome { before with ws := rest } stmt with unchanged | ⟨event, logged, mayLog⟩
    · exact reports.told listener error (unchanged ▸ told)
    · rw [logged, List.mem_cons] at told
      rcases told with rfl | former
      · cases stmt with
        | notifyListener other callback =>
          obtain ⟨rfl, rfl⟩ : listener = other ∧ .onError error = callback := by
            cases outcome <;> exact mayLog
          cases expected
        | _ => cases outcome <;> exact absurd mayLog id
      · exact reports.told listener error former
  · rw [ws_app]
    exact reports.telling
  · intro exception stored
    cases stmt with
    | setEptr other =>
      obtain rfl : other = .library := expected
      exact (Option.some.inj stored).symm
    | setParameters | startRecognition =>
      simp only [execWs] at stored
      (repeat' split at stored) <;>
        first
        | exact reports.stored exception stored
        | (simp only [System.send] at stored
           split_ifs at stored
           · exact reports.stored exception stored
           · exact (Option.some.inj stored).symm)
    | startSender | configure =>
      simp only [execWs] at stored
      (repeat' split at stored) <;> exact reports.stored exception stored
    | notifyStored => exact expected.elim
    | _ => exact reports.stored exception stored

/-- Every step that meets only what is expected tells and stores no other error. -/
theorem Reports.step (reports : Reports before) (expected : ∀ stmt ∈ before.ws, stmt.Expected)
    (moved : AsrClient.step parse before label = some after) : Reports after := by
  obtain ⟨-, moves⟩ := step_moves parse before after label moved
  have quiet {event : Event} (other : ∀ listener error, event ≠ .notified listener (.onError error))
      (listener : Listener) (error : RecognitionError)
      (told : .notified listener (.onError error) ∈ event :: before.log) :
      error.code = .connectionFailure :=
    reports.told listener error
      ((List.mem_cons.mp told).resolve_left (other listener error).symm)
  cases moves with
  | call call idle =>
    refine ⟨quiet (by simp), fun listener error telling => ?_, reports.stored⟩
    cases call <;> simp [System.record, program, recognize, waitRecognitionResult,
      cancelRecognition, close] at telling
  | app outcome stmt rest _ next performed => exact reports.app next performed
  | gaveUp rest exception asleep free =>
    exact ⟨quiet (by simp), fun _ _ telling => absurd telling List.not_mem_nil, reports.stored⟩
  | expired condition rest asleep free met =>
    exact ⟨reports.told, fun listener error telling =>
      reports.telling listener error (asleep ▸ List.mem_cons_of_mem _ telling), reports.stored⟩
  | rejected payload cause other free => exact ⟨reports.told, reports.telling, reports.stored⟩
  | received payload response decoded free =>
    exact ⟨quiet (by simp), reports.telling, reports.stored⟩
  | event label stmts connection free => exact ⟨reports.told, reports.telling, reports.stored⟩
  | ws outcome stmt rest next => exact reports.ws (expected stmt (by simp [next]))
  | read ret chunk _ performed =>
    obtain ⟨frame, log⟩ := read_frame ret chunk before after performed
    rw [execRead] at performed
    split_ifs at performed <;> cases performed <;>
      exact ⟨reports.told, reports.telling, reports.stored⟩
  | sender outcome _ performed =>
    have frame := (sender_frame outcome before after performed).1
    refine ⟨fun listener error told => ?_, frame.app ▸ reports.telling, fun exception stored => ?_⟩
    · have logs : after.log = before.log ∨ ∃ event, after.log = event :: before.log ∧
          ∀ listener error, event ≠ .notified listener (.onError error) :=
        sender_logs performed (by simp) (by simp)
      rcases logs with unchanged | ⟨event, logged, other⟩
      · exact reports.told listener error (unchanged ▸ told)
      · exact quiet other listener error (logged ▸ told)
    · rcases sender_eptr performed with unchanged | library
      · exact reports.stored exception (unchanged ▸ stored)
      · exact (Option.some.inj (library.symm.trans stored)).symm

end Errors

/-- No request of the client fails at the mock server: in any exchange the listeners are told of
no error but that of a connection that has failed, and the exception that a wait throws again
is one of the library. -/
theorem only_connection_errors (parse : Bytes → Json) (reads : ReadsResult parse)
    (properties : Properties)
    (unbroken : ∀ config, properties.recogConfig = some config → config.Unbroken)
    (hdl : ConnectionHdl) (moves : List Move) (exchange : Exchange)
    (execution : Execution (Exchange.step parse hdl) Exchange.Lawful
      (Exchange.create properties hdl) moves exchange) :
    (∀ listener error, .notified listener (.onError error) ∈ exchange.client.log →
      error.code = .connectionFailure) ∧
      ∀ exception, exchange.client.impl.eptr = some exception → exception = .library := by
  have both := execution.invariant
    (fun exchange => Attuned parse properties hdl exchange ∧ Reports exchange.client)
    ⟨.create parse properties hdl, by
      constructor <;> simp [Exchange.create, System.create, resetImpl]⟩
    fun before move after ⟨attuned, reports⟩ allowed moved => by
      refine ⟨attuned.step reads unbroken allowed moved, ?_⟩
      rcases attuned.coupled.client_step reads allowed moved with
        ⟨same, -⟩ | ⟨label, -, -, clientMoved, -⟩
      · exact same ▸ reports
      · exact reports.step attuned.expected clientMoved
  exact ⟨both.2.told, both.2.stored⟩

/-- Up to the last packet of a recognition no other error is told. -/
theorem last_packet_without_errors :
    ∃ exchange, Execution (Exchange.step (fun _ => resultJson) 0) Exchange.Lawful
        (Exchange.create configured 0) lastPacketMoves exchange ∧
      (∀ listener error, .notified listener (.onError error) ∈ exchange.client.log →
        error.code = .connectionFailure) ∧
        ∀ exception, exchange.client.impl.eptr = some exception → exception = .library := by
  obtain ⟨exchange, execution, -⟩ := last_packet_in_flight
  exact ⟨exchange, execution, only_connection_errors (fun _ => resultJson) rfl configured
    configured_unbroken 0 lastPacketMoves exchange execution⟩

end AsrClient
