import AsrClient.Exchange.Settling

/-!
# The end of a recognition

Once the last packet of a recognition has been sent, the packet is on its way to the server,
or the result is on its way to the client, or the handler has still to clear the flag of the
recognition, or the flag is clear. Since the exchange comes to rest, the server and the
websocket thread end the recognition without the application, whatever else is in flight.
-/

namespace AsrClient

open Transitions UtilityServer

/-- A recognition whose last packet was sent is about to end. -/
structure Completing (exchange : Exchange) (asks : List Ask) (told : List Say) : Prop where
  flight : Flight exchange asks told
  ends : lastSent exchange.client.log = true → exchange.client.impl.recognizing = true →
    .audio true ∈ asks ∨ .result ∈ told ∨ .clearRecognizing ∈ exchange.client.ws

section Client

variable {parse : Bytes → Json} {client next : System} {label : Label}

/-- Only the acceptance of a recognition sets the flag, in any step of the client. -/
theorem step_recognizing (moved : step parse client label = some next)
    (recognizing : next.impl.recognizing = true) :
    next.log = .accepted :: client.log ∨ client.impl.recognizing = true := by
  obtain ⟨-, moves⟩ := step_moves parse client next label moved
  cases moves with
  | app outcome stmt rest _ list performed =>
    exact (app_recognizing performed recognizing).imp_left And.right
  | ws outcome stmt rest list =>
    rw [ws_recognizing, Bool.and_eq_true] at recognizing
    exact Or.inr recognizing.1
  | read ret chunk _ performed =>
    exact Or.inr
      ((read_frame ret chunk client next performed).1.keeps (·.recognizing) ▸ recognizing)
  | sender outcome _ performed =>
    exact Or.inr
      ((sender_frame outcome client next performed).1.keeps (·.recognizing) ▸ recognizing)
  | _ => exact Or.inr recognizing

/-- The statement that clears the flag stays until it has cleared it. -/
theorem step_clears (moved : step parse client label = some next)
    (clears : .clearRecognizing ∈ client.ws) (recognizing : next.impl.recognizing = true) :
    .clearRecognizing ∈ next.ws := by
  obtain ⟨-, moves⟩ := step_moves parse client next label moved
  cases moves with
  | app outcome stmt rest _ list performed =>
    have same : next.ws = client.ws := (app_ws performed :)
    exact same ▸ clears
  | ws outcome stmt rest list =>
    obtain ⟨new, sameList, -⟩ := ws_list outcome { client with ws := rest } stmt
    rw [ws_recognizing, Bool.and_eq_true, decide_eq_true_iff] at recognizing
    rw [list, List.mem_cons] at clears
    rw [sameList]
    exact List.mem_append_right _ (clears.resolve_left recognizing.2.symm)
  | received payload response decoded free => simp [free] at clears
  | event label stmts connection free => simp [free] at clears
  | read ret chunk _ performed => exact (read_frame ret chunk client next performed).1.ws ▸ clears
  | sender outcome _ performed => exact (sender_frame outcome client next performed).1.ws ▸ clears
  | _ => exact clears

/-- A message does not change which packet was sent last. -/
theorem receive_last_sent {payload : Bytes}
    (moved : step parse client (.receive payload) = some next) :
    lastSent next.log = lastSent client.log := by
  obtain ⟨-, moves⟩ := step_moves parse client next _ moved
  cases moves with
  | event _ _ connection => cases connection
  | _ => rfl

/-- Another step has sent the last packet, or it was sent before. -/
theorem step_last_sent (continued : Continues client.log next.log) {more : List Ask}
    (adds : Adds client.log next.log more) (sent : lastSent next.log = true) :
    next.log ≠ .accepted :: client.log ∧
      (lastSent client.log = true ∨ .audio true ∈ more) := by
  constructor
  · intro accepted
    rw [accepted] at sent
    cases sent
  · cases adds with
    | nothing silent =>
      left
      rcases continued with same | ⟨event, logged, -⟩
      · exact same ▸ sent
      · rw [logged] at sent
        cases event with
        | sent thread request => exact absurd logged (silent thread request)
        | accepted => cases sent
        | _ => exact sent
    | request thread request ask logged asked =>
      rw [logged, lastSent, Bool.or_eq_true] at sent
      rcases sent with last | former
      · exact Or.inr (List.mem_singleton.mpr (asked.last.mpr last).symm)
      · exact Or.inl former

end Client

section Step

variable {parse : Bytes → Json} {properties : Properties} {hdl : ConnectionHdl}
  {before after : Exchange} {move : Move}

/-- The result is said to the last packet. -/
theorem result_said {counter : Int} {value : Option Int}
    (counts : Ask.count value (.audio true) = some counter) :
    .result ∈ (Ask.audio true).saying counter := by
  obtain ⟨former, -, rfl⟩ := Option.map_eq_some_iff.mp counts
  rw [if_pos rfl]
  decide

/-- Every move keeps a recognition about to end. -/
theorem Completing.step {asks : List Ask} {told : List Say}
    (completing : Completing before asks told)
    (coupled : Coupled parse properties hdl before) (reads : ReadsResult parse)
    (unbroken : ∀ config, properties.recogConfig = some config → config.Unbroken)
    (allowed : before.Lawful move) (moved : before.step parse hdl move = some after) :
    ∃ asks told, Completing after asks told := by
  obtain ⟨flight, ends⟩ := completing
  cases Exchange.step_moves moved with
  | client label client other stepped carried =>
    obtain ⟨more, adds, flies⟩ := coupled.flight_client unbroken flight other allowed.1 stepped
    refine ⟨_, _, flies, fun sent recognizing => ?_⟩
    obtain ⟨notAccepted, sentBefore⟩ := step_last_sent (step_continues stepped other) adds sent
    rcases sentBefore with former | new
    · have wasRecognizing := (step_recognizing stepped recognizing).resolve_left notAccepted
      rcases ends former wasRecognizing with asked | said | clears
      · exact Or.inl (List.mem_append_left _ asked)
      · exact Or.inr (Or.inl said)
      · exact Or.inr (Or.inr (step_clears stepped clears recognizing))
    · exact Or.inl (List.mem_append_right _ new)
  | deliver payload rest client next stepped =>
    obtain ⟨say, later, rfl, -, free, handler, impl, flies⟩ := flight.deliver reads next stepped
    refine ⟨_, _, flies, fun sent recognizing => ?_⟩
    rcases ends (receive_last_sent stepped ▸ sent) (impl ▸ recognizing) with asked | said | clears
    · exact Or.inl asked
    · cases List.mem_cons.mp said with
      | inl now =>
        subst now
        exact Or.inr (Or.inr (handler ▸ by simp [Say.stmts]))
      | inr still => exact Or.inr (Or.inl still)
    · simp [free] at clears
  | serve payload rest server replies next handled =>
    obtain ⟨session, here, running⟩ := coupled.session
    obtain ⟨ask, later, counter, rfl, counts, -, flies⟩ :=
      flight.serve coupled.named here running next handled
    refine ⟨_, _, flies, fun sent recognizing => ?_⟩
    rcases ends sent recognizing with asked | said | clears
    · cases List.mem_cons.mp asked with
      | inl now =>
        subst now
        exact Or.inr (Or.inl (List.mem_append_right _ (result_said counts)))
      | inr still => exact Or.inl still
    · exact Or.inr (Or.inl (List.mem_append_left _ said))
    · exact Or.inr (Or.inr clears)
  | elsewhere event server replies other reacted =>
    exact ⟨asks, told, ⟨flight.asked, flight.said, flight.history, flight.waiting, flight.started⟩,
      ends⟩

/-- The last packet of a recognition is audio that was sent. -/
theorem last_sent_audio {log : List Event} (sent : lastSent log = true) :
    ∃ thread request earlier, .sent thread request :: earlier <:+ log ∧
      isRequest .sendAudio request = true := by
  induction log with
  | nil => cases sent
  | cons event log inductionHypothesis =>
    have later (former : lastSent log = true) : ∃ thread request earlier,
        .sent thread request :: earlier <:+ event :: log ∧ isRequest .sendAudio request = true := by
      obtain ⟨thread, request, earlier, suffix, isAudio⟩ := inductionHypothesis former
      exact ⟨thread, request, earlier, suffix.trans (List.suffix_cons ..), isAudio⟩
    cases event with
    | sent thread request =>
      rcases Bool.or_eq_true_iff.mp sent with last | former
      · exact ⟨thread, request, log, List.suffix_rfl, (Bool.and_eq_true_iff.mp last).1⟩
      · exact later former
    | accepted => cases sent
    | _ => exact later sent

/-- The background does not change that the last packet was sent. -/
theorem background_last_sent (background : Background before move)
    (moved : before.step parse hdl move = some after) (sent : lastSent before.client.log = true) :
    lastSent after.client.log = true := by
  cases Exchange.step_moves moved with
  | client label client other stepped carried =>
    obtain ⟨-, moves⟩ := step_moves parse before.client client label stepped
    cases moves with
    | ws outcome stmt rest list =>
      show lastSent (execWs outcome { before.client with ws := rest } stmt).log = true
      rcases ws_log outcome { before.client with ws := rest } stmt with
        same | ⟨event, logged, mayLog⟩
      · rw [same]
        exact sent
      · have isBackground := mayLog.background
        rw [logged]
        cases event with
        | sent thread request => exact Bool.or_eq_true_iff.mpr (Or.inr sent)
        | accepted => cases isBackground
        | _ => exact sent
    | event _ _ connection => cases connection <;> cases background
    | received => cases other
    | rejected => cases other
    | _ => cases background
  | deliver payload rest client next stepped => exact (receive_last_sent stepped).trans sent
  | serve payload rest server replies next handled => exact sent
  | elsewhere event server replies other reacted => exact sent

/-- Audio is sent only when the server has served a request for a session. -/
theorem Attuned.audio_opens (attuned : Attuned parse properties hdl before)
    (sent : lastSent before.client.log = true) :
    opensWithSession before.client.log = true := by
  obtain ⟨thread, request, earlier, suffix, isAudio⟩ := last_sent_audio sent
  obtain ⟨labels, execution⟩ := attuned.coupled.run
  have either := impl_invariant execution (fun _ _ allowed => allowed.1.1)
    (Ordered properties.recogConfig.isSome) (fun _ built => .built built)
    (fun _ _ _ same ordered allowed moved => ordered.step same allowed moved)
  rcases either with building | ⟨-, ordered⟩
  · simp [building.silent] at suffix
  · have started := (ordered.order thread request earlier suffix).audio isAudio
    have accepted := hasAccepted.mono started ((List.suffix_cons ..).trans suffix)
    obtain ⟨session, -, ⟨-, unserved⟩ | ⟨-, opens⟩⟩ := attuned.opened
    · rw [hasAccepted, unserved.received] at accepted
      cases accepted
    · exact opens

end Step

/-- A recognition whose last packet was sent is about to end wherever an exchange gets. -/
theorem completing_of_execution {parse : Bytes → Json} {properties : Properties}
    {hdl : ConnectionHdl} (reads : ReadsResult parse)
    (unbroken : ∀ config, properties.recogConfig = some config → config.Unbroken)
    {moves : List Move} {exchange : Exchange}
    (execution : Execution (Exchange.step parse hdl) Exchange.Lawful
      (Exchange.create properties hdl) moves exchange) :
    ∃ asks told, Completing exchange asks told := by
  have both := execution.invariant
    (fun exchange => Coupled parse properties hdl exchange ∧
      ∃ asks told, Completing exchange asks told)
    ⟨.create parse properties hdl, [], [], ⟨.nil, .nil, rfl, rfl, by simp⟩,
      fun sent => by cases sent⟩
    fun _ _ _ ⟨coupled, _, _, completing⟩ allowed moved =>
      ⟨coupled.step reads unbroken allowed moved,
        completing.step coupled reads unbroken allowed moved⟩
  exact both.2

end AsrClient
