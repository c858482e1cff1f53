import AsrClient.Exchange.Flight

/-!
# Conservation of the requests

Every request that the client sends for a session, for its parameters, for a recognition or
for a cancellation is on its way, or its answer is, or the answer has arrived; it is one of
these, whatever the order of the moves, and the answers keep the order of the requests. The
server's results come behind an answer that accepts a recognition.

So the mock server is one of the servers that the order of the protocol supposes, and what
the client does against it is a run against such a server.
-/

namespace AsrClient

open Transitions UtilityServer

/-- The two sides fit together: the client has run against a server that answers in order,
what it holds can be sent, and the server's counter of the connection stands before or
behind its end. -/
structure Coupled (parse : Bytes → Json) (properties : Properties) (hdl : ConnectionHdl)
    (exchange : Exchange) : Prop where
  run : ∃ labels,
    Execution (AsrClient.step parse) Served (System.create properties) labels exchange.client
  short : HoldsShort exchange.client
  named : exchange.server.NamesStatus
  session : ∃ session, exchange.server.sessionMap[hdl]? = some session ∧
    session.audioCounter ≠ some endRecognize
  flight : ∃ asks told, Flight exchange asks told

section Coupling

variable {parse : Bytes → Json} {properties : Properties} {hdl : ConnectionHdl}
  {before after : Exchange} {move : Move}

/-- The label of a step that the client makes of its own. -/
def Move.label : Move → Option Label
  | .client label => some label
  | _ => none

/-- The two sides fit together when nothing has been sent. -/
theorem Coupled.create (parse : Bytes → Json) (properties : Properties) (hdl : ConnectionHdl) :
    Coupled parse properties hdl (Exchange.create properties hdl) where
  run := ⟨[], .refl⟩
  short := ⟨by simp [Exchange.create, System.create],
    by simp [Exchange.create, System.create, SpeechRecognizer.resetImpl],
    by simp [Exchange.create, System.create]⟩
  named := List.mem_cons_self
  session := by
    refine ⟨{}, ?_, by simp⟩
    rw [Exchange.create, onOpen, Std.ExtTreeMap.getElem?_insertIfNew, if_pos]
    simp
  flight := ⟨[], [], .nil, .nil, rfl, rfl, by simp⟩

/-- A move is a step of the client against such a server, or leaves the client alone. A message
that the client receives is one that it takes as the server has sent it. -/
theorem Coupled.client_step (coupled : Coupled parse properties hdl before)
    (reads : ReadsResult parse) (allowed : before.Lawful move)
    (moved : before.step parse hdl move = some after) :
    (after.client = before.client ∧ move.label = none) ∨
      ∃ label, Served before.client label ∧ label.Short ∧
        AsrClient.step parse before.client label = some after.client ∧
        move.label = (if label.receives then none else some label) ∧
        ∀ payload, label = .receive payload → ∃ say response,
          ASRMessageResponse.consume payload = .ok response ∧ Takes parse say response := by
  obtain ⟨asks, told, flight⟩ := coupled.flight
  cases Exchange.step_moves moved with
  | client label client other stepped carried =>
    obtain ⟨one, short⟩ := allowed
    refine Or.inr ⟨label, ⟨one, ?_⟩, short, stepped, by simp [other, Move.label], ?_⟩
    · cases label <;> first | rfl | exact absurd other (by simp [Label.receives])
    · rintro payload rfl
      cases other
  | deliver payload rest client next stepped =>
    obtain ⟨-, -, -, serves, -⟩ := flight.deliver reads next stepped
    have keeps : OneConnection before.client (.receive payload) := ⟨rfl, rfl⟩
    refine Or.inr ⟨_, ⟨keeps, serves⟩, trivial, stepped, rfl, ?_⟩
    rintro _ ⟨rfl⟩
    have said := flight.said
    rw [next] at said
    cases said with
    | cons head _ => exact ⟨_, head.taken reads⟩
  | serve payload rest server replies next handled => exact Or.inl ⟨rfl, rfl⟩
  | elsewhere event server replies other reacted => exact Or.inl ⟨rfl, rfl⟩

/-- A step that the client makes of its own puts at most one request behind everything else. -/
theorem Coupled.flight_client (coupled : Coupled parse properties hdl before)
    (unbroken : ∀ config, properties.recogConfig = some config → config.Unbroken)
    {asks : List Ask} {told : List Say} (flight : Flight before asks told) {label : Label}
    {client : System} (other : label.receives = false)
    (allowed : OneConnection before.client label)
    (moved : AsrClient.step parse before.client label = some client) :
    ∃ more, Adds before.client.log client.log more ∧ Flight { before with
      client
      uplink := before.uplink ++ newFrames before.client client } (asks ++ more) told := by
  obtain ⟨labels, execution⟩ := coupled.run
  have served : Served before.client label :=
    ⟨allowed, by cases label <;> first | rfl | exact absurd other (by simp [Label.receives])⟩
  exact flight.client (step_continues moved other) fun thread request sent =>
    ⟨(sent_own moved sent).asked coupled.short fun config configured =>
        unbroken config (config_of_properties execution config configured),
      audio_started execution served moved sent⟩

/-- Every move keeps the two sides together. -/
theorem Coupled.step (coupled : Coupled parse properties hdl before) (reads : ReadsResult parse)
    (unbroken : ∀ config, properties.recogConfig = some config → config.Unbroken)
    (allowed : before.Lawful move) (moved : before.step parse hdl move = some after) :
    Coupled parse properties hdl after := by
  have stepped := coupled.client_step reads allowed moved
  obtain ⟨labels, execution⟩ := coupled.run
  have run : ∃ labels,
      Execution (AsrClient.step parse) Served (System.create properties) labels after.client := by
    rcases stepped with ⟨same, -⟩ | ⟨label, served, -, clientMoved, -⟩
    · exact ⟨labels, same ▸ execution⟩
    · exact ⟨_, .snoc labels _ _ label execution served clientMoved⟩
  have short : HoldsShort after.client := by
    rcases stepped with ⟨same, -⟩ | ⟨label, -, short, clientMoved, -⟩
    · exact same ▸ coupled.short
    · exact coupled.short.step short clientMoved
  obtain ⟨asks, told, flight⟩ := coupled.flight
  obtain ⟨session, here, running⟩ := coupled.session
  cases Exchange.step_moves moved with
  | client label client other clientMoved carried =>
    obtain ⟨more, -, further⟩ :=
      coupled.flight_client unbroken flight other allowed.1 clientMoved
    exact ⟨run, short, coupled.named, ⟨session, here, running⟩, asks ++ more, told, further⟩
  | deliver payload rest client next clientMoved =>
    obtain ⟨say, later, -, -, -, -, -, further⟩ := flight.deliver reads next clientMoved
    exact ⟨run, short, coupled.named, ⟨session, here, running⟩, asks, later, further⟩
  | serve payload rest server replies next handled =>
    obtain ⟨ask, later, counter, -, -, serves, further⟩ :=
      flight.serve coupled.named here running next handled
    refine ⟨run, short, serves.named, ⟨_, serves.session, ?_⟩, later, _, further⟩
    exact fun same => announce_past counter (Option.some.inj same)
  | elsewhere event server replies other reacted =>
    have others := react_others reacted hdl other.symm
    exact ⟨run, short, react_named coupled.named reacted,
      ⟨session, others.trans here, running⟩, asks, told,
      flight.asked, flight.said, flight.history, flight.waiting, flight.started⟩

/-- The two sides fit together wherever an exchange gets. -/
theorem coupled_of_execution (reads : ReadsResult parse)
    (unbroken : ∀ config, properties.recogConfig = some config → config.Unbroken)
    {moves : List Move} {exchange : Exchange}
    (execution : Execution (Exchange.step parse hdl) Exchange.Lawful
      (Exchange.create properties hdl) moves exchange) :
    Coupled parse properties hdl exchange :=
  execution.invariant (Coupled parse properties hdl) (.create parse properties hdl)
    fun _ _ _ coupled allowed moved => coupled.step reads unbroken allowed moved

end Coupling

section Payloads

/-- What a payload asks is found in it. -/
theorem Asks.method_eq {ask : Ask} {payload : Bytes} (asks : Asks ask payload) :
    askedMethod payload = ask.method := by
  have finds : ∀ c ∈ answered, answered.find? (getMethodString c = getMethodString ·) = some c := by
    decide
  cases asks with
  | request c _ parser known read command =>
    simp only [askedMethod, read, command]
    exact finds c known
  | audio last _ parser read command packet =>
    simp only [askedMethod, read, command]
    rfl

/-- What a payload answers is found in it. -/
theorem Says.method_eq {say : Say} {payload : Bytes} (said : Says say payload) :
    answeredMethod payload = say.method := by
  have reads : ReadsResult fun _ => resultJson := rfl
  obtain ⟨response, decoded, takes⟩ := said.taken reads
  simp only [answeredMethod, decoded]
  exact takes.answers

/-- What is found in payloads is what they mean. -/
theorem filter_map_meaning {Kind : Type} {Means : Kind → Bytes → Prop}
    {method : Kind → Option Method} {found : Bytes → Option Method} {kinds : List Kind}
    {payloads : List Bytes}
    (finds : ∀ (kind : Kind) (payload : Bytes), Means kind payload → found payload = method kind)
    (all : List.Forall₂ Means kinds payloads) :
    kinds.filterMap method = payloads.filterMap found := by
  induction all with
  | nil => rfl
  | @cons kind payload kinds payloads head _ inductionHypothesis =>
    rw [List.filterMap_cons, List.filterMap_cons, finds kind payload head, inductionHypothesis]

/-- What is in flight is found in the payloads. -/
theorem Flight.underway_eq {exchange : Exchange} {asks : List Ask} {told : List Say}
    (flight : Flight exchange asks told) :
    underway asks told = exchange.downlink.filterMap answeredMethod ++
      exchange.uplink.filterMap askedMethod := by
  have saying := filter_map_meaning (fun say payload said => Says.method_eq said) flight.said
  have asking := filter_map_meaning (fun ask payload asks => Asks.method_eq asks) flight.asked
  rw [underway, saying, asking]

end Payloads

/-- In any exchange with the mock server the answered requests that were sent are, in this
order, those whose answers have arrived, those whose answers are in flight, and those that
are in flight themselves. -/
theorem requests_conserved (parse : Bytes → Json) (reads : ReadsResult parse)
    (properties : Properties)
    (unbroken : ∀ config, properties.recogConfig = some config → config.Unbroken)
    (hdl : ConnectionHdl) (moves : List Move) (exchange : Exchange)
    (execution : Execution (Exchange.step parse hdl) Exchange.Lawful
      (Exchange.create properties hdl) moves exchange) :
    requested exchange.client.log = replied exchange.client.log ++
      exchange.downlink.filterMap answeredMethod ++ exchange.uplink.filterMap askedMethod := by
  obtain ⟨asks, told, flight⟩ := (coupled_of_execution reads unbroken execution).flight
  rw [flight.history, flight.underway_eq, List.append_assoc]

/-- It holds where the last packet is in flight. -/
theorem conserved_behind_last_packet :
    ∃ exchange, Execution (Exchange.step (fun _ => resultJson) 0) Exchange.Lawful
        (Exchange.create configured 0) lastPacketMoves exchange ∧
      requested exchange.client.log = replied exchange.client.log ++
        exchange.downlink.filterMap answeredMethod ++ exchange.uplink.filterMap askedMethod := by
  obtain ⟨exchange, execution, -⟩ := last_packet_in_flight
  exact ⟨exchange, execution, requests_conserved (fun _ => resultJson) rfl configured
    configured_unbroken 0 lastPacketMoves exchange execution⟩

/-- The mock server is a server as the order of the protocol supposes it: what the client does
in an exchange is a run against such a server, of the same steps, and its requests are in
order. -/
theorem mock_server_served (parse : Bytes → Json) (reads : ReadsResult parse)
    (properties : Properties)
    (unbroken : ∀ config, properties.recogConfig = some config → config.Unbroken)
    (hdl : ConnectionHdl) (moves : List Move) (exchange : Exchange)
    (execution : Execution (Exchange.step parse hdl) Exchange.Lawful
      (Exchange.create properties hdl) moves exchange) :
    ∃ labels,
      Execution (step parse) Served (System.create properties) labels exchange.client ∧
      labels.filter (!·.receives) = moves.filterMap Move.label ∧
      ProtocolOrder properties.recogConfig.isSome exchange.client.log := by
  have run : ∃ labels,
      Execution (step parse) Served (System.create properties) labels exchange.client ∧
      labels.filter (!·.receives) = moves.filterMap Move.label := by
    induction execution with
    | refl => exact ⟨[], .refl, rfl⟩
    | snoc moves before after move former allowed moved inductionHypothesis =>
      obtain ⟨labels, run, sameSteps⟩ := inductionHypothesis
      have coupled := coupled_of_execution reads unbroken former
      rcases coupled.client_step reads allowed moved with
        ⟨same, none⟩ | ⟨label, served, -, clientMoved, sameStep, -⟩
      · refine ⟨labels, same ▸ run, ?_⟩
        rw [List.filterMap_append, sameSteps]
        simp [none]
      · refine ⟨labels ++ [label], .snoc labels _ _ label run served clientMoved, ?_⟩
        rw [List.filter_append, List.filterMap_append, sameSteps, List.filterMap_cons, sameStep]
        by_cases receives : label.receives = true <;> simp [receives]
  obtain ⟨labels, execution, sameSteps⟩ := run
  refine ⟨labels, execution, sameSteps, ?_⟩
  have either := impl_invariant execution (fun _ _ allowed => allowed.1.1)
    (Ordered properties.recogConfig.isSome) (fun _ built => .built built)
    (fun _ _ _ same ordered allowed moved => ordered.step same allowed moved)
  rcases either with building | ⟨-, ordered⟩
  · intro thread request earlier suffix
    simp [building.silent] at suffix
  · exact ordered.order

/-- The client's part of the exchange up to the last packet is such a run. -/
theorem last_packet_served :
    ∃ (exchange : Exchange) (labels : List Label),
      Execution (step fun _ => resultJson) Served (System.create configured) labels
        exchange.client ∧
      labels.filter (!·.receives) = lastPacketMoves.filterMap Move.label ∧
      ProtocolOrder true exchange.client.log := by
  obtain ⟨exchange, execution, -⟩ := last_packet_in_flight
  exact ⟨exchange, mock_server_served (fun _ => resultJson) rfl configured configured_unbroken 0
    lastPacketMoves exchange execution⟩

end AsrClient
