import AsrClient.Exchange.Settling

/-!
# What a recognition needs

A handler that starts a recognition, and the audio sender, read what the application has
handed over: the language model, the audio source and the parameters. None of them is tested
there. They are there all the same when the application always hands them over, because such
a handler follows an answer, the answer follows a request for a session, and the request
follows the call that stores them.

The thread of the connection is started once: the statement that starts it is reached only
while the flag of the connection is clear, and the flag is set right behind it.
-/

namespace AsrClient

open Transitions SpeechRecognizer

/-- A language model that a recognition can be started from. -/
def LanguageModelList.Given (lm : LanguageModelList) : Prop := lm.uri ≠ [] ∨ lm.grammarBody ≠ []

instance (lm : LanguageModelList) : Decidable lm.Given := inferInstanceAs (Decidable (_ ∨ _))

/-- Every recognition is handed an audio source and a language model. -/
def Label.Proper : Label → Prop
  | .call (.recognize _ none) => False
  | .call (.recognize audioSrc (some lm)) => audioSrc.isSome = true ∧ lm.Given
  | _ => True

instance Label.decidableProper : (label : Label) → Decidable label.Proper
  | .call (.recognize _ none) => inferInstanceAs (Decidable False)
  | .call (.recognize _ (some _)) => inferInstanceAs (Decidable (_ ∧ _))
  | .call .waitRecognitionResult | .call .cancelRecognition | .call .close
  | .app _ | .timeout | .receive _ | .opened | .failed | .closed | .ws _ | .read _ _
  | .sender _ => inferInstanceAs (Decidable True)

/-- The message of a step is decoded, and leads to what is expected. -/
def Label.Understood (parse : Bytes → Json) : Label → Prop
  | .receive payload => ∃ response, ASRMessageResponse.consume payload = .ok response ∧
      ∀ stmt ∈ ASRProcessMsg.handle parse response, stmt.Expected
  | _ => True

/-- A step on one connection to a server that answers in order and says nothing unexpected, in
a recognizer that is always handed what it needs. -/
structure Fair (parse : Bytes → Json) (system : System) (label : Label) : Prop where
  served : Served system label
  proper : label.Proper
  understood : label.Understood parse

/-- The language model and the audio source are there. -/
structure Armed (impl : Impl) : Prop where
  lm : impl.lm.isSome = true
  audioSrc : impl.audioSrc.isSome = true

/-- A request that belongs to a recognition. -/
def opensRecognition (request : ASRMessageRequest) : Bool :=
  isRequest .createSession request || isRequest .setParameters request ||
    isRequest .startRecognition request

/-- A statement of a handler that goes on with a recognition. -/
def WsStmt.needs : WsStmt → Bool
  | .configure => true
  | .setParameters => true
  | .startRecognition => true
  | .startSender => true
  | _ => false

/-- A statement of the application that goes on with one. -/
def AppStmt.needs : AppStmt → Bool
  | .firstRequest => true
  | .createSession => true
  | .startRecognition => true
  | _ => false

/-- What the statements of a call need is there, or is stored by one of those before it. -/
def Supplied : Bool → Bool → List AppStmt → Prop
  | _, _, [] => True
  | _, lm, .setAudioSrc audioSrc :: rest => Supplied audioSrc.isSome lm rest
  | audioSrc, _, .setLm lm :: rest => Supplied audioSrc lm.isSome rest
  | audioSrc, lm, stmt :: rest =>
      (stmt.needs = true → audioSrc = true ∧ lm = true) ∧ Supplied audioSrc lm rest

/-- What a recognition needs is there wherever it is read. -/
structure Prepared (system : System) : Prop where
  given : ∀ lm, system.impl.lm = some lm → lm.Given
  setLm : ∀ lm, .setLm lm ∈ system.app → ∃ given, lm = some given ∧ given.Given
  setSrc : ∀ audioSrc, .setAudioSrc audioSrc ∈ system.app → audioSrc.isSome = true
  application : Supplied system.impl.audioSrc.isSome system.impl.lm.isSome system.app
  requests : ∀ thread request, .sent thread request ∈ system.log →
    opensRecognition request = true → Armed system.impl
  handlers : ∀ stmt ∈ system.ws, stmt.needs = true → Armed system.impl
  parameters : .setParameters ∈ system.ws → system.impl.config.isSome = true
  sender : system.impl.sendAudioMessageThread.isSome = true → Armed system.impl

/-- The statement starts the thread of the connection, or comes to one that does. -/
def AppStmt.starts : AppStmt → Bool
  | .init => true
  | .connectUnlessDeferred => true
  | _ => false

/-- The thread of the connection is started once. -/
structure Connects (system : System) : Prop where
  later : ∀ stmt ∈ system.app.tail, stmt.starts = false
  idle : ∀ stmt, system.app.head? = some stmt → stmt.starts = true → system.impl.thread = false
  isOpen : system.impl.thread = true →
    system.impl.isOpen = true ∨ system.app.head? = some .setOpen

section Connects

variable {parse : Bytes → Json} {outcome : Outcome} {before after : System} {stmt : AppStmt}
  {rest : List AppStmt}

/-- What a statement puts before the rest starts the thread of the connection at once or not at
all. -/
theorem expands_starts {new : List AppStmt} (expands : stmt.Expands new)
    (ordinary : ∀ pushed ∈ new, pushed.ordinary = true) :
    (∀ pushed ∈ new.tail, pushed.starts = false) ∧
      ∀ pushed, new.head? = some pushed → pushed.starts = true →
        stmt = .connect ∨ stmt = .connectUnlessDeferred := by
  have silent (none : ∀ pushed ∈ new, pushed.starts = false) :
      (∀ pushed ∈ new.tail, pushed.starts = false) ∧
        ∀ pushed, new.head? = some pushed → pushed.starts = true →
          stmt = .connect ∨ stmt = .connectUnlessDeferred := by
    refine ⟨fun pushed member => none pushed (List.mem_of_mem_tail member), ?_⟩
    intro pushed head starts
    exact absurd (none pushed (List.mem_of_mem_head? head)) (by simp [starts])
  cases stmt with
  | connect =>
    refine ⟨?_, fun _ _ _ => Or.inl rfl⟩
    rcases expands with rfl | rfl
    · exact List.forall_mem_nil _
    · decide
  | connectUnlessDeferred =>
    refine ⟨?_, fun _ _ _ => Or.inr rfl⟩
    rcases expands with rfl | rfl
    · exact List.forall_mem_nil _
    · decide
  | resetIfAutoClose =>
    rcases expands with rfl | rfl
    · exact silent (List.forall_mem_nil _)
    · exact absurd (ordinary .freshImpl (by decide)) (by decide)
  | _ =>
    refine silent (expands_all expands (fun _ _ => rfl) (fun _ => rfl) ?_)
    first
    | exact List.forall_mem_nil _
    | exact List.forall_mem_singleton.mpr rfl
    | decide

/-- The thread of the connection runs behind a statement only when it ran before, or is being
started. -/
theorem app_thread (performed : execApp outcome before stmt = some after)
    (runs : after.impl.thread = true) :
    before.impl.thread = true ∨ after.app.head? = some .setOpen := by
  cases stmt <;> simp only [execApp, Option.some.injEq] at performed <;>
    (repeat' split at performed) <;> cases performed <;>
    first
    | exact Or.inl runs
    | exact Or.inr rfl
    | exact absurd runs Bool.false_ne_true

/-- The flag of the connection stays set until the connection is closed. -/
theorem app_is_open (performed : execApp outcome before stmt = some after)
    (keeps : stmt ≠ .clearOpen ∧ stmt ≠ .freshImpl)
    (isOpen : before.impl.isOpen = true ∨ stmt = .setOpen) : after.impl.isOpen = true := by
  cases stmt <;> simp only [execApp, Option.some.injEq] at performed <;>
    (repeat' split at performed) <;> cases performed <;>
    first
    | rfl
    | exact isOpen.resolve_right (by simp)
    | exact absurd rfl keeps.1
    | exact absurd rfl keeps.2

/-- Where a recognizer comes to start its connection, the flag of the connection is clear and
no thread has been started. -/
theorem app_starts (performed : execApp outcome before stmt = some after)
    (later : ∀ pushed ∈ before.app, pushed.starts = false)
    (ordinary : ∀ pushed ∈ after.app, pushed.ordinary = true) (pushed : AppStmt)
    (head : after.app.head? = some pushed) (starts : pushed.starts = true) :
    after.impl.thread = before.impl.thread ∧
      (stmt = .connect ∧ before.impl.isOpen = false ∨ stmt = .connectUnlessDeferred) := by
  have absent : pushed ∉ before.app := fun member => by simp [later pushed member] at starts
  have comes : stmt = .connect ∨ stmt = .connectUnlessDeferred := by
    rcases app_list performed with empty | ⟨new, list, expands⟩
    · simp [empty] at head
    · rw [list] at head ordinary
      cases new with
      | nil => exact absurd (List.mem_of_mem_head? head) absent
      | cons first others =>
        exact (expands_starts expands fun pushed member =>
          ordinary pushed (List.mem_append_left _ member)).2 pushed head starts
  rcases comes with rfl | rfl
  · simp only [execApp] at performed
    split_ifs at performed with isOpen
    · cases performed
      exact absurd (List.mem_of_mem_head? head) absent
    · cases performed
      exact ⟨rfl, Or.inl ⟨rfl, by simpa using isOpen⟩⟩
  · simp only [execApp] at performed
    split_ifs at performed <;> cases performed <;> exact ⟨rfl, Or.inr rfl⟩

/-- Every statement keeps it so. -/
theorem Connects.app (connects : Connects before) (next : before.app = stmt :: rest)
    (keeps : stmt ≠ .clearOpen ∧ stmt ≠ .freshImpl)
    (performed : execApp outcome { before with app := rest } stmt = some after)
    (ordinary : ∀ pushed ∈ after.app, pushed.ordinary = true) : Connects after := by
  have later : ∀ pushed ∈ rest, pushed.starts = false := by
    have later := connects.later
    rwa [next] at later
  constructor
  · rcases app_list performed with empty | ⟨new, list, expands⟩
    · simp [empty]
    · rw [list] at ordinary ⊢
      cases new with
      | nil => exact fun pushed member => later pushed (List.mem_of_mem_tail member)
      | cons first others =>
        rw [List.cons_append, List.tail_cons, List.forall_mem_append]
        exact ⟨(expands_starts expands fun pushed member =>
          ordinary pushed (List.mem_append_left _ member)).1, later⟩
  · intro pushed head starts
    obtain ⟨same, comes⟩ := app_starts performed later ordinary pushed head starts
    rw [same, ← Bool.not_eq_true]
    intro runs
    rcases comes with ⟨rfl, closed⟩ | rfl
    · rcases connects.isOpen runs with isOpen | setting
      · exact absurd (closed.symm.trans isOpen) (by decide)
      · simp [next] at setting
    · exact absurd ((connects.idle .connectUnlessDeferred (by simp [next]) rfl).symm.trans runs)
        (by decide)
  · intro runs
    rcases app_thread performed runs with ran | setting
    · left
      refine app_is_open performed keeps ?_
      exact (connects.isOpen ran).imp_right (by simp [next])
    · exact Or.inr setting

/-- The handlers leave the connection and what they need alone. -/
theorem ws_stores (outcome : Outcome) (system : System) (stmt : WsStmt) :
    (execWs outcome system stmt).impl.thread = system.impl.thread ∧
      (execWs outcome system stmt).impl.isOpen = system.impl.isOpen ∧
      (execWs outcome system stmt).impl.lm = system.impl.lm ∧
      (execWs outcome system stmt).impl.audioSrc = system.impl.audioSrc := by
  cases stmt <;> simp only [execWs] <;> (repeat' split) <;> exact ⟨rfl, rfl, rfl, rfl⟩

/-- Every step on one connection keeps the thread of the connection so. -/
theorem Connects.step {properties : Properties} {label : Label} (connects : Connects before)
    (same : SameImpl properties before) (allowed : OneConnection before label)
    (moved : step parse before label = some after) : Connects after := by
  obtain ⟨-, moves⟩ := step_moves parse before after label moved
  have apart (app : after.app = before.app) (thread : after.impl.thread = before.impl.thread)
      (isOpen : after.impl.isOpen = before.impl.isOpen) : Connects after :=
    ⟨app ▸ connects.later, by rw [app, thread]; exact connects.idle,
      by rw [app, thread, isOpen]; exact connects.isOpen⟩
  cases moves with
  | call call idle =>
    have silent : ∀ stmt ∈ program call, stmt.starts = false := by
      cases call <;>
        simp [program, recognize, waitRecognitionResult, cancelRecognition, close, AppStmt.starts]
    refine ⟨fun stmt member => silent stmt (List.mem_of_mem_tail member), ?_, fun runs => ?_⟩
    · intro stmt head starts
      exact absurd (silent stmt (List.mem_of_mem_head? head)) (by simp [starts])
    · exact Or.inl ((connects.isOpen runs).resolve_right (by simp [idle]))
  | app outcome stmt rest _ next performed =>
    have ordinary := same.keepsImpl stmt (by simp [next])
    refine connects.app next ⟨?_, ?_⟩ performed
      (app_keeps_impl next same.keepsImpl allowed.1 performed)
    · rintro rfl
      have closing : closes before (.app outcome) = true := by simp [closes, next]
      exact absurd (closing.symm.trans allowed.2) (by decide)
    · rintro rfl
      cases ordinary
  | gaveUp rest exception asleep free =>
    refine ⟨List.forall_mem_nil _, (fun stmt head => by cases head), fun runs => ?_⟩
    exact Or.inl ((connects.isOpen runs).resolve_right (by simp [asleep]))
  | expired condition rest asleep free met =>
    have later : ∀ pushed ∈ rest, pushed.starts = false := by
      have later := connects.later
      rwa [asleep] at later
    refine ⟨fun pushed member => later pushed (List.mem_of_mem_tail member), ?_, fun runs => ?_⟩
    · intro stmt head starts
      exact absurd (later stmt (List.mem_of_mem_head? head)) (by simp [starts])
    · exact Or.inl ((connects.isOpen runs).resolve_right (by simp [asleep]))
  | rejected => exact apart rfl rfl rfl
  | received => exact apart rfl rfl rfl
  | event => exact apart rfl rfl rfl
  | ws outcome stmt rest next =>
    obtain ⟨thread, isOpen, -⟩ := ws_stores outcome { before with ws := rest } stmt
    exact apart (ws_app outcome { before with ws := rest } stmt) thread isOpen
  | read ret chunk _ performed =>
    have frame := (read_frame ret chunk before after performed).1
    exact apart frame.app (frame.keeps (·.thread)) (frame.keeps (·.isOpen))
  | sender outcome _ performed =>
    have frame := (sender_frame outcome before after performed).1
    exact apart frame.app (frame.keeps (·.thread)) (frame.keeps (·.isOpen))

/-- A new object has no thread. -/
theorem Connects.built {properties : Properties} (built : Built properties before) :
    Connects before := by
  refine ⟨?_, fun stmt _ _ => by rw [built.impl], fun runs => ?_⟩
  · rw [built.app]
    decide
  · rw [built.impl] at runs
    cases runs

end Connects

section Prepared

variable {parse : Bytes → Json} {outcome : Outcome} {before after : System}

/-- What is supplied stays so when more is there. -/
theorem Supplied.mono {audioSrc lm audioSrc' lm' : Bool} {stmts : List AppStmt}
    (supplied : Supplied audioSrc lm stmts) (more : audioSrc = true → audioSrc' = true)
    (other : lm = true → lm' = true) : Supplied audioSrc' lm' stmts := by
  induction stmts generalizing audioSrc lm audioSrc' lm' with
  | nil => trivial
  | cons stmt stmts inductionHypothesis =>
    cases stmt with
    | setAudioSrc given => exact inductionHypothesis supplied id other
    | setLm given => exact inductionHypothesis supplied more id
    | _ =>
      exact ⟨fun needs => ⟨more (supplied.1 needs).1, other (supplied.1 needs).2⟩,
        inductionHypothesis supplied.2 more other⟩

/-- A statement that stores nothing and needs nothing. -/
def AppStmt.isPlain : AppStmt → Bool
  | .setAudioSrc _ => false
  | .setLm _ => false
  | stmt => !stmt.needs

/-- Such statements may stand before the rest. -/
theorem Supplied.append {audioSrc lm : Bool} {new rest : List AppStmt}
    (supplied : Supplied audioSrc lm rest) (plain : ∀ stmt ∈ new, stmt.isPlain = true) :
    Supplied audioSrc lm (new ++ rest) := by
  induction new with
  | nil => exact supplied
  | cons stmt new inductionHypothesis =>
    obtain ⟨isPlain, others⟩ := List.forall_mem_cons.mp plain
    have later := inductionHypothesis others
    rw [List.cons_append]
    cases stmt with
    | setAudioSrc | setLm | firstRequest | createSession | startRecognition => cases isPlain
    | _ => exact ⟨fun needs => absurd needs Bool.false_ne_true, later⟩

/-- What the first statement needs is there, and what the rest needs, unless the statement
stores it. -/
theorem Supplied.tail {audioSrc lm : Bool} {stmt : AppStmt} {rest : List AppStmt}
    (supplied : Supplied audioSrc lm (stmt :: rest))
    (stores : (∀ given, stmt ≠ .setAudioSrc given) ∧ ∀ given, stmt ≠ .setLm given) :
    (stmt.needs = true → audioSrc = true ∧ lm = true) ∧ Supplied audioSrc lm rest := by
  cases stmt with
  | setAudioSrc given => exact absurd rfl (stores.1 given)
  | setLm given => exact absurd rfl (stores.2 given)
  | _ => exact supplied

/-- Statements that are put before the rest store nothing and need nothing, but for the first
request of a recognition. -/
theorem expands_plain {stmt : AppStmt} {new : List AppStmt} (expands : stmt.Expands new)
    (other : stmt ≠ .firstRequest) : ∀ pushed ∈ new, pushed.isPlain = true := by
  refine expands_all expands (fun _ _ => rfl) (fun _ => rfl) ?_
  cases stmt with
  | firstRequest => exact absurd rfl other
  | _ =>
    first
    | exact List.forall_mem_nil _
    | exact List.forall_mem_singleton.mpr rfl
    | decide

/-- A statement of the application leaves what a recognition needs alone, or stores it. -/
theorem app_stores {stmt : AppStmt} (performed : execApp outcome before stmt = some after)
    (ordinary : stmt.ordinary = true) :
    (after.impl.audioSrc = before.impl.audioSrc ∨ stmt = .setAudioSrc after.impl.audioSrc) ∧
      (after.impl.lm = before.impl.lm ∨ stmt = .setLm after.impl.lm) := by
  cases stmt <;> simp only [execApp, Option.some.injEq] at performed <;>
    (repeat' split at performed) <;> cases performed <;>
    first
    | exact ⟨Or.inl rfl, Or.inl rfl⟩
    | exact ⟨Or.inr rfl, Or.inl rfl⟩
    | exact ⟨Or.inl rfl, Or.inr rfl⟩
    | exact absurd ordinary Bool.false_ne_true

/-- A request of the application that belongs to a recognition comes from a statement that
needs something. -/
theorem app_request_needs {stmt : AppStmt} {thread : Thread} {request : ASRMessageRequest}
    (logged : stmt.MayLog outcome (.sent thread request))
    (opens : opensRecognition request = true) : stmt.needs = true := by
  obtain ⟨c, method, start⟩ := app_sends logged
  simp only [opensRecognition, Bool.or_eq_true, is_request_iff start] at opens
  cases stmt <;> cases method <;> first | rfl | simp at opens

/-- The statements of a call are supplied when the call is proper. -/
theorem program_supplied {call : Call} (proper : (Label.call call).Proper) (audioSrc lm : Bool) :
    Supplied audioSrc lm (program call) ∧
      (∀ lm, .setLm lm ∈ program call → ∃ given, lm = some given ∧ given.Given) ∧
      ∀ audioSrc, .setAudioSrc audioSrc ∈ program call → audioSrc.isSome = true := by
  cases call with
  | recognize source model =>
    cases model with
    | none => exact absurd proper id
    | some given =>
      obtain ⟨isSource, isGiven⟩ := proper
      refine ⟨?_, ?_, ?_⟩
      · simp [program, recognize, Supplied, AppStmt.needs, isSource]
      · simpa [program, recognize] using isGiven
      · simpa [program, recognize] using isSource
  | waitRecognitionResult =>
    simp [program, waitRecognitionResult, Supplied, AppStmt.needs]
  | cancelRecognition => simp [program, cancelRecognition, Supplied, AppStmt.needs]
  | close => simp [program, close, Supplied, AppStmt.needs]

/-- A statement of the application keeps it so. -/
theorem Prepared.app {properties : Properties} {stmt : AppStmt} {rest : List AppStmt}
    (prepared : Prepared before) (same : SameImpl properties before)
    (next : before.app = stmt :: rest)
    (performed : execApp outcome { before with app := rest } stmt = some after) :
    Prepared after := by
  have ordinary := same.keepsImpl stmt (by simp [next])
  have later {other : AppStmt} (member : other ∈ rest) : other ∈ before.app :=
    next ▸ List.mem_cons_of_mem _ member
  have here : stmt ∈ before.app := next ▸ List.mem_cons_self
  obtain ⟨audioSrc, lm⟩ := app_stores performed ordinary
  -- What is there stays there.
  have moreSrc (has : before.impl.audioSrc.isSome = true) : after.impl.audioSrc.isSome = true := by
    rcases audioSrc with unchanged | stored
    · exact unchanged ▸ has
    · exact prepared.setSrc _ (stored ▸ here)
  have given (isStored : stmt = .setLm after.impl.lm) :
      ∃ given, after.impl.lm = some given ∧ given.Given := prepared.setLm _ (isStored ▸ here)
  have moreLm (has : before.impl.lm.isSome = true) : after.impl.lm.isSome = true := by
    rcases lm with unchanged | stored
    · exact unchanged ▸ has
    · obtain ⟨model, isModel, -⟩ := given stored
      rw [isModel, Option.isSome_some]
  have more (armed : Armed before.impl) : Armed after.impl :=
    ⟨moreLm armed.lm, moreSrc armed.audioSrc⟩
  have pushed {other : AppStmt} (member : other ∈ after.app)
      (isInterface : other.isInterface = true) :
      other ∈ before.app := by
    rcases app_list performed with empty | ⟨new, list, expands⟩
    · simp [empty] at member
    · rw [list, List.mem_append] at member
      rcases member with put | left
      · exact absurd ((expands_inner expands).1 other put) (by simp [isInterface])
      · exact later left
  have supplied := prepared.application
  rw [next] at supplied
  constructor
  · intro model isModel
    rcases lm with unchanged | stored
    · exact prepared.given model (unchanged.symm.trans isModel)
    · obtain ⟨other, isOther, isGiven⟩ := given stored
      obtain rfl := Option.some.inj (isOther.symm.trans isModel)
      exact isGiven
  · exact fun model member => prepared.setLm model (pushed member rfl)
  · exact fun source member => prepared.setSrc source (pushed member rfl)
  · rcases app_list performed with empty | ⟨new, list, expands⟩
    · rw [empty]
      trivial
    rw [list]
    cases stmt with
    | setAudioSrc source =>
      cases performed
      obtain rfl : new = [] :=
        List.append_cancel_right (list.symm.trans rfl : new ++ rest = [] ++ rest)
      exact supplied
    | setLm model =>
      cases performed
      obtain rfl : new = [] :=
        List.append_cancel_right (list.symm.trans rfl : new ++ rest = [] ++ rest)
      exact supplied
    | firstRequest =>
      have needed := supplied.1 rfl
      rcases expands with rfl | rfl
      · exact ⟨fun _ => ⟨moreSrc needed.1, moreLm needed.2⟩, supplied.2.mono moreSrc moreLm⟩
      · exact ⟨fun _ => ⟨moreSrc needed.1, moreLm needed.2⟩, supplied.2.mono moreSrc moreLm⟩
    | _ =>
      exact (supplied.2.mono moreSrc moreLm).append (expands_plain expands (by simp))
  · intro thread request sent opens
    rcases app_log performed with unchanged | ⟨event, logged, mayLog⟩
    · exact more (prepared.requests thread request (unchanged ▸ sent) opens)
    · rw [logged, List.mem_cons] at sent
      rcases sent with rfl | former
      · have needs := app_request_needs mayLog opens
        have stores : (∀ given, stmt ≠ .setAudioSrc given) ∧ ∀ given, stmt ≠ .setLm given := by
          constructor <;> rintro given rfl <;> cases needs
        have needed := (supplied.tail stores).1 needs
        exact more ⟨needed.2, needed.1⟩
      · exact more (prepared.requests thread request former opens)
  · intro other member needs
    rw [app_ws performed] at member
    exact more (prepared.handlers other member needs)
  · intro member
    rw [app_ws performed] at member
    rw [(app_same_impl performed ordinary).1]
    exact prepared.parameters member
  · exact fun held => more (prepared.sender (app_sender performed held :))

/-- A handler goes on with a recognition only behind an answer to a request of one. -/
theorem handler_needs {response : ASRMessageResponse} {log : List Event} {stmt : WsStmt}
    (serves : served log response = true) (member : stmt ∈ ASRProcessMsg.handle parse response)
    (needs : stmt.needs = true) :
    stmt ≠ .setParameters ∧ ∃ thread request, .sent thread request ∈ log ∧
      opensRecognition request = true := by
  have follows := handler_follows parse response stmt member
  have behind {c : Method} (accepted : accepts c response = true)
      (isOne : c ∈ [Method.createSession, .setParameters, .startRecognition]) :
      ∃ thread request, .sent thread request ∈ log ∧ opensRecognition request = true := by
    have known : ∀ c ∈ [Method.createSession, .setParameters, .startRecognition], c ∈ answered := by
      decide
    obtain ⟨thread, request, earlier, suffix, isMethod⟩ :=
      served_sent serves accepted (known c isOne)
    refine ⟨thread, request, suffix.subset List.mem_cons_self, ?_⟩
    simp only [List.mem_cons, List.not_mem_nil, or_false] at isOne
    rcases isOne with rfl | rfl | rfl <;> simp [opensRecognition, isMethod]
  cases stmt with
  | configure => exact ⟨by simp, behind follows (by decide)⟩
  | setParameters => exact absurd follows id
  | startRecognition => exact ⟨by simp, behind follows (by decide)⟩
  | startSender => exact ⟨by simp, behind follows (by decide)⟩
  | _ => cases needs

/-- A message keeps it so. -/
theorem Prepared.received (prepared : Prepared before) (response : ASRMessageResponse)
    (serves : served before.log response = true) :
    Prepared (({ before with ws := ASRProcessMsg.handle parse response } : System).record
      (.received response)) where
  given := prepared.given
  setLm := prepared.setLm
  setSrc := prepared.setSrc
  application := prepared.application
  requests thread request sent := by
    exact prepared.requests thread request ((List.mem_cons.mp sent).resolve_left (by simp))
  handlers stmt member needs := by
    obtain ⟨-, thread, request, sent, opens⟩ := handler_needs serves member needs
    exact prepared.requests thread request sent opens
  parameters member := absurd rfl (handler_needs serves member rfl).1
  sender := prepared.sender

/-- A statement of a handler keeps it so. -/
theorem Prepared.ws {stmt : WsStmt} {rest : List WsStmt} (prepared : Prepared before)
    (next : before.ws = stmt :: rest) :
    Prepared (execWs outcome { before with ws := rest } stmt) := by
  obtain ⟨-, -, lm, audioSrc⟩ := ws_stores outcome { before with ws := rest } stmt
  have config := (ws_keeps outcome { before with ws := rest } stmt).1
  have app := ws_app outcome { before with ws := rest } stmt
  have same {impl : Impl} (armed : Armed before.impl) (lm : impl.lm = before.impl.lm)
      (audioSrc : impl.audioSrc = before.impl.audioSrc) : Armed impl :=
    ⟨lm ▸ armed.lm, audioSrc ▸ armed.audioSrc⟩
  have here (needs : stmt.needs = true) : Armed before.impl :=
    prepared.handlers stmt (by simp [next]) needs
  have later {other : WsStmt} (member : other ∈ rest) : other ∈ before.ws :=
    next ▸ List.mem_cons_of_mem _ member
  obtain ⟨new, list, pushes⟩ := ws_list outcome { before with ws := rest } stmt
  constructor
  · rw [lm]
    exact prepared.given
  · rw [app]
    exact prepared.setLm
  · rw [app]
    exact prepared.setSrc
  · rw [app, lm, audioSrc]
    exact prepared.application
  · intro thread request sent opens
    refine same ?_ lm audioSrc
    rcases ws_log outcome { before with ws := rest } stmt with unchanged | ⟨event, logged, mayLog⟩
    · exact prepared.requests thread request (unchanged ▸ sent) opens
    · rw [logged, List.mem_cons] at sent
      rcases sent with rfl | former
      · obtain ⟨c, method, -⟩ := ws_sends mayLog
        exact here (by cases stmt <;> cases method <;> rfl)
      · exact prepared.requests thread request former opens
  · intro other member needs
    refine same ?_ lm audioSrc
    rw [list, List.mem_append] at member
    rcases member with put | left
    · have mayPush := pushes other put
      cases stmt <;> cases other <;>
        first
        | exact here rfl
        | exact absurd mayPush id
        | exact absurd needs Bool.false_ne_true
    · exact prepared.handlers other (later left) needs
  · intro member
    rw [config]
    rw [list, List.mem_append] at member
    rcases member with put | left
    · by_cases configures : stmt = .configure
      · subst configures
        simp only [execWs] at list
        split at list
        · obtain rfl : [.startRecognition] = new := List.append_cancel_right list
          simp at put
        · rename_i present
          simpa [Option.isNone_iff_eq_none, Option.isSome_iff_ne_none] using present
      · have mayPush := pushes _ put
        cases stmt <;> first | exact absurd rfl configures | exact absurd mayPush id
    · exact prepared.parameters (later left)
  · intro held
    refine same ?_ lm audioSrc
    by_cases starts : stmt = .startSender
    · exact here (by rw [starts]; rfl)
    · rw [ws_sender outcome { before with ws := rest } stmt starts] at held
      exact prepared.sender held

/-- What changes nothing that is needed keeps it so. -/
theorem Prepared.frame (prepared : Prepared before) (lm : after.impl.lm = before.impl.lm)
    (audioSrc : after.impl.audioSrc = before.impl.audioSrc)
    (config : after.impl.config = before.impl.config)
    (sender : after.impl.sendAudioMessageThread.isSome = before.impl.sendAudioMessageThread.isSome)
    (app : ∀ stmt ∈ after.app, stmt ∈ before.app)
    (supplied : Supplied before.impl.audioSrc.isSome before.impl.lm.isSome after.app)
    (ws : ∀ stmt ∈ after.ws, stmt ∈ before.ws ∨ (stmt.needs = false ∧ stmt ≠ .setParameters))
    (log : ∀ thread request, .sent thread request ∈ after.log → opensRecognition request = true →
      .sent thread request ∈ before.log) : Prepared after := by
  have same (armed : Armed before.impl) : Armed after.impl :=
    ⟨lm ▸ armed.lm, audioSrc ▸ armed.audioSrc⟩
  constructor
  · rw [lm]
    exact prepared.given
  · exact fun model member => prepared.setLm model (app _ member)
  · exact fun source member => prepared.setSrc source (app _ member)
  · rw [lm, audioSrc]
    exact supplied
  · exact fun thread request sent opens =>
      same (prepared.requests thread request (log thread request sent opens) opens)
  · intro stmt member needs
    rcases ws stmt member with former | ⟨silent, -⟩
    · exact same (prepared.handlers stmt former needs)
    · exact absurd (silent.symm.trans needs) (by decide)
  · intro member
    rw [config]
    exact prepared.parameters ((ws _ member).resolve_right fun other => other.2 rfl)
  · rw [sender]
    exact fun held => same (prepared.sender held)

end Prepared

end AsrClient
