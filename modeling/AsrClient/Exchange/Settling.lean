import AsrClient.Exchange.Conservation

/-!
# An exchange comes to rest

When the application and the audio sender do nothing, the server and the websocket thread
cannot go on for ever. A request is answered once, an answer leads to at most one request,
and the chain of requests from the session to the recognition is finite. Each of them has a
cost that pays for all that follows from it, so that every move of the background lowers the
cost of what is in flight.

Where none of these moves is possible any more nothing is in flight, unless the process of
the client is lost, or the client cancelled before it ever asked for a session: then the
server is about to read a counter that has no value.
-/

namespace AsrClient

open Transitions UtilityServer

/-- The server or the websocket thread moves. -/
def Move.isBackground : Move → Bool
  | .client (.ws _) => true
  | .deliver => true
  | .serve => true
  | _ => false

/-- A move of the background. -/
def Background (_ : Exchange) (move : Move) : Prop := move.isBackground = true

/-- Nothing is in flight, and the websocket thread has handled its last message. -/
structure Exchange.Quiet (exchange : Exchange) : Prop where
  uplink : exchange.uplink = []
  downlink : exchange.downlink = []
  ws : exchange.client.ws = []

/-- The first request of the client asks for a session. -/
def opensWithSession (log : List Event) : Bool :=
  (frames log).head?.bind askedMethod = some .createSession

/-- The statements that the messages of the mock server and the events of the connection lead
to: there is no error among them but that of the connection. -/
def WsStmt.Expected : WsStmt → Prop
  | .setEptr exception => exception = .library
  | .invoke callback => callback.isError = false
  | .notifyListener _ callback => callback.isError = false
  | .invokeResults => False
  | .notifyStored _ _ => False
  | .outOfRange => False
  | _ => True

section Cost

/-- The cost of a statement of a handler, by the number of listeners: it pays for itself, for
what it puts before the rest, and for the request that it sends. -/
def WsStmt.cost (listeners : Nat) : WsStmt → Nat
  | .invoke _ => listeners + 1
  | .configure => 4 * listeners + 22
  | .setParameters => 4 * listeners + 21
  | .startRecognition => 2 * listeners + 11
  | _ => 1

/-- The cost of a message of the server: it pays for its handler. -/
def Say.cost (listeners : Nat) (say : Say) : Nat :=
  1 + (say.stmts.map (WsStmt.cost listeners)).sum

/-- The cost of a message of the client: it pays for all that the server may say to it. -/
def Ask.cost (listeners : Nat) (ask : Ask) : Nat :=
  1 + Say.cost listeners .speech + Say.cost listeners .result +
    match ask with
    | .request c => Say.cost listeners (.answer c)
    | .audio _ => Say.cost listeners .speech

/-- The cost of what is asked, of what is said, and of what the websocket thread has still to
perform. -/
def totalCost (asks : List Ask) (told : List Say) (client : System) : Nat :=
  let listeners := client.impl.listener.length
  (asks.map (Ask.cost listeners)).sum + (told.map (Say.cost listeners)).sum +
    (client.ws.map (WsStmt.cost listeners)).sum

/-- What the server says to a message is paid for. -/
theorem saying_cost (listeners : Nat) (ask : Ask) (counter : Int) :
    ((ask.saying counter).map (Say.cost listeners)).sum < ask.cost listeners := by
  have announced : ((Say.ofCounter counter).map (Say.cost listeners)).sum ≤
      Say.cost listeners .speech + Say.cost listeners .result := by
    rw [Say.ofCounter]
    split_ifs <;> simp
  cases ask with
  | request c =>
    rw [Ask.saying, List.map_cons, List.sum_cons, Ask.cost]
    omega
  | audio last =>
    cases last with
    | true =>
      rw [Ask.saying, if_pos rfl, List.singleton_append, List.map_cons, List.sum_cons, Ask.cost]
      omega
    | false =>
      rw [Ask.saying, if_neg (by decide), List.nil_append, Ask.cost]
      omega

variable {outcome : Outcome} {system : System} {stmt : WsStmt}

/-- What a message of the server leads to is expected. -/
theorem say_stmts_expected (say : Say) : ∀ stmt ∈ say.stmts, stmt.Expected := by
  cases say with
  | answer c => cases c <;> simp [Say.stmts, WsStmt.Expected]
  | speech => simp [Say.stmts, WsStmt.Expected, Callback.isError]
  | result => simp [Say.stmts, WsStmt.Expected, Callback.isError]

/-- So is what an expected statement puts before the rest. -/
theorem ws_expected (expected : stmt.Expected) (rest : ∀ stmt ∈ system.ws, stmt.Expected) :
    ∀ next ∈ (execWs outcome system stmt).ws, next.Expected := by
  obtain ⟨new, list, pushed⟩ := ws_list outcome system stmt
  rw [list, List.forall_mem_append]
  refine ⟨fun other member => ?_, rest⟩
  have mayPush := pushed other member
  cases stmt with
  | invoke callback =>
    cases other with
    | notifyListener listener callback' =>
      obtain rfl : callback' = callback := mayPush
      exact expected
    | _ => exact mayPush.elim
  | configure => cases other <;> trivial
  | invokeResults | notifyStored => exact expected.elim
  | _ => cases other <;> exact mayPush.elim

/-- A statement pays for what it puts before the rest. -/
theorem ws_push_cost (outcome : Outcome) (system : System) (expected : stmt.Expected) :
    ((execWs outcome system stmt).ws.map (WsStmt.cost system.impl.listener.length)).sum <
      stmt.cost system.impl.listener.length +
        (system.ws.map (WsStmt.cost system.impl.listener.length)).sum := by
  have same {cost : Nat} (positive : 0 < cost) (after : System) (ws : after.ws = system.ws) :
      (after.ws.map (WsStmt.cost system.impl.listener.length)).sum <
        cost + (system.ws.map (WsStmt.cost system.impl.listener.length)).sum := by
    rw [ws]
    omega
  cases stmt with
  | invoke callback =>
    simp only [execWs, System.wsThen, List.map_append, List.map_map, List.sum_append, WsStmt.cost]
    have listeners : (system.impl.listener.map (WsStmt.cost system.impl.listener.length ∘
        (.notifyListener · callback))).sum = system.impl.listener.length := by
      simp [Function.comp_def, WsStmt.cost]
    omega
  | configure =>
    simp only [execWs]
    split
    · simp only [System.wsThen, List.singleton_append, List.map_cons, List.sum_cons, WsStmt.cost]
      omega
    · simp only [System.wsThen, List.singleton_append, List.map_cons, List.sum_cons, WsStmt.cost]
      omega
  | invokeResults | notifyStored => exact expected.elim
  | setParameters | startRecognition | startSender =>
    refine same (by simp [WsStmt.cost]) _ ?_
    simp only [execWs]
    (repeat' split) <;> rfl
  | _ => exact same Nat.one_pos _ rfl

/-- A statement pays for the request that it sends as well. -/
theorem ws_cost (outcome : Outcome) (system : System) (expected : stmt.Expected) {more : List Ask}
    (adds : Adds system.log (execWs outcome system stmt).log more) :
    (more.map (Ask.cost system.impl.listener.length)).sum +
        ((execWs outcome system stmt).ws.map (WsStmt.cost system.impl.listener.length)).sum <
      stmt.cost system.impl.listener.length +
        (system.ws.map (WsStmt.cost system.impl.listener.length)).sum := by
  cases adds with
  | nothing silent =>
    simpa using ws_push_cost outcome system expected
  | request thread request ask sent asked =>
    rcases ws_log outcome system stmt with unchanged | ⟨event, logged, mayLog⟩
    · exact absurd (unchanged.symm.trans sent) (List.cons_ne_self _ _).symm
    · obtain ⟨rfl, -⟩ := List.cons.inj (logged.symm.trans sent)
      obtain ⟨c, method, start⟩ := ws_sends mayLog
      have ws : (execWs outcome system stmt).ws = system.ws := by
        cases stmt <;> cases method <;> simp only [execWs] <;> (repeat' split) <;> rfl
      have isAsked : ask = .request c := by
        have known : c ∈ answered := by cases stmt <;> cases method <;> decide
        have named : ask.method = some c :=
          (asked.method.trans (awaits_of_start start)).trans (if_pos known)
        cases ask with
        | request d => exact congrArg Ask.request (Option.some.inj named)
        | audio last => cases named
      rw [ws, isAsked, List.map_singleton, List.sum_singleton, Nat.add_lt_add_iff_right]
      cases stmt with
      | setParameters =>
        cases method
        simp only [Ask.cost, Say.cost, Say.stmts, WsStmt.cost, List.map_cons, List.map_nil,
          List.sum_cons, List.sum_nil]
        omega
      | startRecognition =>
        cases method
        simp only [Ask.cost, Say.cost, Say.stmts, WsStmt.cost, List.map_cons, List.map_nil,
          List.sum_cons, List.sum_nil]
        omega
      | _ => cases method

end Cost

/-- The server has served nothing. -/
structure Unserved (exchange : Exchange) : Prop where
  uplink : exchange.uplink = frames exchange.client.log
  downlink : exchange.downlink = []
  received : received exchange.client.log = []

/-- The server's counter of the connection has a value once a request for a session has been
served, and nothing else is served before. -/
def Opened (hdl : ConnectionHdl) (exchange : Exchange) : Prop :=
  ∃ session, exchange.server.sessionMap[hdl]? = some session ∧
    ((session.audioCounter = none ∧ Unserved exchange) ∨
      (session.audioCounter.isSome = true ∧ opensWithSession exchange.client.log = true))

/-- The two sides fit together, and the client has met nothing that it does not expect. -/
structure Attuned (parse : Bytes → Json) (properties : Properties) (hdl : ConnectionHdl)
    (exchange : Exchange) : Prop where
  coupled : Coupled parse properties hdl exchange
  expected : ∀ stmt ∈ exchange.client.ws, stmt.Expected
  opened : Opened hdl exchange

section Step

variable {parse : Bytes → Json} {properties : Properties} {hdl : ConnectionHdl}
  {before after : Exchange} {move : Move}

/-- A step of the client that receives no message leads to what is expected. -/
theorem client_expected {client next : System} {label : Label}
    (moved : step parse client label = some next) (other : label.receives = false)
    (expected : ∀ stmt ∈ client.ws, stmt.Expected) : ∀ stmt ∈ next.ws, stmt.Expected := by
  obtain ⟨-, moves⟩ := step_moves parse client next label moved
  cases moves with
  | call call idle => exact expected
  | app outcome stmt rest _ _ performed =>
    have same : next.ws = client.ws := (app_ws performed :)
    exact same ▸ expected
  | gaveUp rest exception asleep free => exact expected
  | expired condition rest asleep free met => exact expected
  | rejected payload => exact absurd other (by simp [Label.receives])
  | received payload => exact absurd other (by simp [Label.receives])
  | event label stmts connection free => cases connection <;> simp [WsStmt.Expected]
  | ws outcome stmt rest list =>
    rw [list, List.forall_mem_cons] at expected
    exact ws_expected expected.1 expected.2
  | read ret chunk _ performed =>
    exact (read_frame ret chunk client next performed).1.ws ▸ expected
  | sender outcome _ performed => exact (sender_frame outcome client next performed).1.ws ▸ expected

/-- Requests that are sent go behind those that were. -/
theorem frames_grow {client next : System} (continued : Continues client.log next.log) :
    frames next.log = frames client.log ++ newFrames client next := by
  rcases continued with same | ⟨event, logged, -⟩
  · rw [new_frames_same same, same, List.append_nil]
  · rw [new_frames_logged logged, logged]
    simp [frames]

/-- The first request stays the first. -/
theorem opensWithSession.mono {client next : System} (continued : Continues client.log next.log)
    (opens : opensWithSession client.log = true) : opensWithSession next.log = true := by
  rw [opensWithSession, decide_eq_true_iff] at opens ⊢
  rw [frames_grow continued]
  cases first : (frames client.log).head? with
  | none =>
    rw [first] at opens
    cases opens
  | some payload => rwa [List.head?_append, first, Option.some_or, ← first]

/-- A message that the server handles while the counter has no value is the first one, and it
asks for a session. -/
theorem first_served {ask : Ask} {payload : Bytes} {counter : Int} (asks : Asks ask payload)
    (counts : ask.count none = some counter) : askedMethod payload = some .createSession := by
  rw [asks.method_eq]
  cases asks with
  | request c _ parser known =>
    have only : ∀ c ∈ answered, (counterBehind (getMethodString c) none).isSome = true →
        c = .createSession := by decide
    rw [only c known (Option.isSome_of_eq_some counts)]
    rfl
  | audio last => cases counts

/-- Every move keeps the server's counter so. -/
theorem Opened.step (opened : Opened hdl before) (coupled : Coupled parse properties hdl before)
    (moved : before.step parse hdl move = some after) : Opened hdl after := by
  obtain ⟨session, here, counted⟩ := opened
  cases Exchange.step_moves moved with
  | client label client other stepped carried =>
    have continued := step_continues stepped other
    refine ⟨session, here, counted.imp ?_ ?_⟩
    · rintro ⟨none, unserved⟩
      refine ⟨none, ?_, unserved.downlink, continued.received.trans unserved.received⟩
      rw [frames_grow continued, ← unserved.uplink]
    · exact fun ⟨value, opens⟩ => ⟨value, opensWithSession.mono continued opens⟩
  | deliver payload rest client next stepped =>
    have same : frames client.log = frames before.client.log := by
      obtain ⟨-, moves⟩ := step_moves parse before.client client _ stepped
      cases moves with
      | rejected => rfl
      | received _ response => simp [System.record, frames]
      | event _ _ connection => cases connection
    refine ⟨session, here, Or.inr ?_⟩
    rcases counted with ⟨-, unserved⟩ | ⟨value, opens⟩
    · rw [unserved.downlink] at next
      cases next
    · refine ⟨value, ?_⟩
      rw [opensWithSession, same]
      exact opens
  | serve payload rest server replies next handled =>
    obtain ⟨asks, told, flight⟩ := coupled.flight
    obtain ⟨found, isHere, running⟩ := coupled.session
    obtain rfl : session = found := Option.some.inj (here.symm.trans isHere)
    obtain ⟨ask, later, counter, rfl, counts, serves, -⟩ :=
      flight.serve coupled.named here running next handled
    refine ⟨_, serves.session, Or.inr ⟨rfl, ?_⟩⟩
    rcases counted with ⟨none, unserved⟩ | ⟨-, opens⟩
    · have asked := flight.asked
      rw [next] at asked
      cases asked with
      | cons head _ =>
        rw [none] at counts
        rw [opensWithSession, ← unserved.uplink, next, decide_eq_true_iff]
        exact first_served head counts
    · exact opens
  | elsewhere event server replies other reacted =>
    refine ⟨session, (react_others reacted hdl other.symm).trans here,
      counted.imp_left ?_⟩
    rintro ⟨none, unserved⟩
    exact ⟨none, unserved.uplink, unserved.downlink, unserved.received⟩

/-- The two sides are attuned when nothing has been sent. -/
theorem Attuned.create (parse : Bytes → Json) (properties : Properties) (hdl : ConnectionHdl) :
    Attuned parse properties hdl (Exchange.create properties hdl) where
  coupled := .create parse properties hdl
  expected := by simp [Exchange.create, System.create]
  opened := by
    refine ⟨{}, ?_, Or.inl ⟨rfl, rfl, rfl, rfl⟩⟩
    rw [Exchange.create, onOpen, Std.ExtTreeMap.getElem?_insertIfNew, if_pos]
    simp

/-- Every move keeps them attuned. -/
theorem Attuned.step (attuned : Attuned parse properties hdl before) (reads : ReadsResult parse)
    (unbroken : ∀ config, properties.recogConfig = some config → config.Unbroken)
    (allowed : before.Lawful move) (moved : before.step parse hdl move = some after) :
    Attuned parse properties hdl after := by
  refine ⟨attuned.coupled.step reads unbroken allowed moved, ?_,
    attuned.opened.step attuned.coupled moved⟩
  obtain ⟨asks, told, flight⟩ := attuned.coupled.flight
  cases Exchange.step_moves moved with
  | client label client other stepped carried =>
    exact client_expected stepped other attuned.expected
  | deliver payload rest client next stepped =>
    obtain ⟨say, later, -, -, -, handler, -⟩ := flight.deliver reads next stepped
    exact handler ▸ say_stmts_expected say
  | serve payload rest server replies next handled => exact attuned.expected
  | elsewhere event server replies other reacted => exact attuned.expected

/-- They are attuned wherever an exchange gets. -/
theorem attuned_of_execution (reads : ReadsResult parse)
    (unbroken : ∀ config, properties.recogConfig = some config → config.Unbroken)
    {moves : List Move} {exchange : Exchange}
    (execution : Execution (Exchange.step parse hdl) Exchange.Lawful
      (Exchange.create properties hdl) moves exchange) :
    Attuned parse properties hdl exchange :=
  execution.invariant (Attuned parse properties hdl) (.create parse properties hdl)
    fun _ _ _ attuned allowed moved => attuned.step reads unbroken allowed moved

/-- What is in flight, and what the websocket thread has still to do, can be paid for. -/
def Costs (parse : Bytes → Json) (properties : Properties) (hdl : ConnectionHdl)
    (exchange : Exchange) (cost : Nat) : Prop :=
  Attuned parse properties hdl exchange ∧
    ∃ asks told, Flight exchange asks told ∧ totalCost asks told exchange.client = cost

/-- A move of the background is lawful. -/
theorem background_lawful {exchange : Exchange} (background : Background exchange move) :
    exchange.Lawful move := by
  cases move with
  | client label => cases label <;> first | exact ⟨⟨rfl, rfl⟩, trivial⟩ | cases background
  | _ => trivial

/-- A move of the background lowers the cost. -/
theorem background_lowers {cost : Nat} (costs : Costs parse properties hdl before cost)
    (reads : ReadsResult parse)
    (unbroken : ∀ config, properties.recogConfig = some config → config.Unbroken)
    (background : Background before move) (moved : before.step parse hdl move = some after) :
    ∃ less, less < cost ∧ Costs parse properties hdl after less := by
  obtain ⟨attuned, asks, told, flight, rfl⟩ := costs
  have further := attuned.step reads unbroken (background_lawful background) moved
  cases Exchange.step_moves moved with
  | client label client other stepped carried =>
    obtain ⟨-, moves⟩ := step_moves parse before.client client label stepped
    obtain ⟨more, adds, flies⟩ := attuned.coupled.flight_client unbroken flight other
      (background_lawful background).1 stepped
    cases moves with
    | ws outcome stmt rest list =>
      have expected := attuned.expected
      rw [list, List.forall_mem_cons] at expected
      have paid := ws_cost outcome { before.client with ws := rest } expected.1 adds
      have listeners := (ws_keeps outcome { before.client with ws := rest } stmt).2
      refine ⟨_, ?_, further, _, _, flies, rfl⟩
      simp only [totalCost, listeners, list, List.map_append, List.sum_append, List.map_cons,
        List.sum_cons]
      dsimp only at paid
      omega
    | event _ _ connection => cases connection <;> cases background
    | received => cases other
    | rejected => cases other
    | _ => cases background
  | deliver payload rest client next stepped =>
    obtain ⟨say, later, rfl, -, free, handler, impl, flies⟩ := flight.deliver reads next stepped
    refine ⟨_, ?_, further, _, _, flies, rfl⟩
    simp only [totalCost, impl, free, handler, List.map_cons, List.sum_cons, List.map_nil,
      List.sum_nil, Say.cost]
    omega
  | serve payload rest server replies next handled =>
    obtain ⟨session, here, running⟩ := attuned.coupled.session
    obtain ⟨ask, later, counter, rfl, -, -, flies⟩ :=
      flight.serve attuned.coupled.named here running next handled
    have paid := saying_cost before.client.impl.listener.length ask counter
    refine ⟨_, ?_, further, _, _, flies, rfl⟩
    simp only [totalCost, List.map_append, List.sum_append, List.map_cons, List.sum_cons]
    omega
  | elsewhere event server replies other reacted => cases background

/-- The server survives its next message exactly when the first request was for a session. -/
theorem Attuned.survives_iff (attuned : Attuned parse properties hdl before) {payload : Bytes}
    {rest : List Bytes} (next : before.uplink = payload :: rest) :
    (before.step parse hdl .serve).isSome = true ↔ opensWithSession before.client.log = true := by
  obtain ⟨asks, told, flight⟩ := attuned.coupled.flight
  obtain ⟨session, here, counted⟩ := attuned.opened
  have asked := flight.asked
  rw [next] at asked
  cases asked with
  | @cons ask _ later _ head _ =>
    rw [Exchange.serve_enabled_iff next, echo_handler_defined_iff here head]
    rcases counted with ⟨none, unserved⟩ | ⟨value, opens⟩
    · rw [none, opensWithSession, ← unserved.uplink, next, decide_eq_true_iff]
      constructor
      · intro counts
        obtain ⟨counter, value⟩ := Option.isSome_iff_exists.mp counts
        exact first_served head value
      · intro session
        have method : ask.method = some .createSession := head.method_eq.symm.trans session
        cases ask with
        | request c =>
          cases method
          decide
        | audio last => cases method
    · refine iff_of_true ?_ opens
      cases ask with
      | request c =>
        rw [Ask.count, counterBehind]
        split_ifs
        · rfl
        · exact value
      | audio last => rwa [Ask.count, Option.isSome_map]

/-- While something is in flight or has to be handled, the background can move, unless the
client is lost or the server is about to be. -/
theorem Attuned.progress (attuned : Attuned parse properties hdl before)
    (reads : ReadsResult parse) (listening : before.client.impl.thread = true)
    (still : ∀ move, Background before move → before.step parse hdl move = none) :
    before.Quiet ∨ before.client.crashed.isSome = true ∨
      (before.uplink ≠ [] ∧ opensWithSession before.client.log = false) := by
  by_cases lost : before.client.crashed.isSome = true
  · exact Or.inr (Or.inl lost)
  have ws : before.client.ws = [] := by
    cases list : before.client.ws with
    | nil => rfl
    | cons stmt rest =>
      have blocked := still (.client (.ws .ok)) rfl
      simp [Exchange.step, Label.receives, AsrClient.step, lost, list, listening] at blocked
  have downlink : before.downlink = [] := by
    cases list : before.downlink with
    | nil => rfl
    | cons payload rest =>
      obtain ⟨asks, told, flight⟩ := attuned.coupled.flight
      have said := flight.said
      rw [list] at said
      cases said with
      | cons head _ =>
        obtain ⟨response, decoded, -⟩ := head.taken reads
        have blocked := still .deliver rfl
        simp [Exchange.step, list, AsrClient.step, lost, decoded, System.listen, listening, ws]
          at blocked
  cases list : before.uplink with
  | nil => exact Or.inl ⟨list, downlink, ws⟩
  | cons payload rest =>
    refine Or.inr (Or.inr ⟨List.cons_ne_nil _ _, ?_⟩)
    have blocked := still .serve rfl
    have survives : (before.step parse hdl .serve).isSome = true ↔ _ := attuned.survives_iff list
    rw [blocked] at survives
    simpa using survives

/-- The background leaves the websocket thread running. -/
theorem background_listening (listening : before.client.impl.thread = true)
    (background : Background before move) (moved : before.step parse hdl move = some after) :
    after.client.impl.thread = true := by
  cases Exchange.step_moves moved with
  | client label client other stepped carried =>
    obtain ⟨-, moves⟩ := step_moves parse before.client client label stepped
    cases moves with
    | ws outcome stmt rest list =>
      have same : (execWs outcome { before.client with ws := rest } stmt).impl.thread =
          before.client.impl.thread := by
        cases stmt <;> simp only [execWs] <;> (repeat' split) <;> rfl
      exact same.trans listening
    | event _ _ connection => cases connection <;> cases background
    | received => cases other
    | rejected => cases other
    | _ => cases background
  | deliver payload rest client next stepped =>
    obtain ⟨-, moves⟩ := step_moves parse before.client client _ stepped
    cases moves with
    | event _ _ connection => cases connection
    | _ => exact listening
  | serve payload rest server replies next handled => exact listening
  | elsewhere event server replies other reacted => cases background

/-- The background can make only so many moves, and keeps the two sides attuned. -/
theorem Attuned.settles (attuned : Attuned parse properties hdl before)
    (reads : ReadsResult parse)
    (unbroken : ∀ config, properties.recogConfig = some config → config.Unbroken)
    (listening : before.client.impl.thread = true) :
    ∃ bound, ∀ further rest,
      Execution (Exchange.step parse hdl) Background before further rest →
      further.length ≤ bound ∧ Attuned parse properties hdl rest ∧
        rest.client.impl.thread = true := by
  obtain ⟨asks, told, flight⟩ := attuned.coupled.flight
  refine ⟨totalCost asks told before.client, fun further rest background => ?_⟩
  obtain ⟨left, costs, within⟩ := background.bounded (Costs parse properties hdl) _
    ⟨attuned, asks, told, flight, rfl⟩
    fun _ _ _ _ costs allowed moved => background_lowers costs reads unbroken allowed moved
  have stillListening : rest.client.impl.thread = true :=
    background.invariant (·.client.impl.thread = true) listening
      fun _ _ _ listening allowed moved => background_listening listening allowed moved
  exact ⟨by omega, costs.1, stillListening⟩

end Step

/-- The mock server survives every message of the client, in any exchange, when the first
request of the client is for a session, and no message when it is not. -/
theorem server_survives_iff (parse : Bytes → Json) (reads : ReadsResult parse)
    (properties : Properties)
    (unbroken : ∀ config, properties.recogConfig = some config → config.Unbroken)
    (hdl : ConnectionHdl) (moves : List Move) (exchange : Exchange)
    (execution : Execution (Exchange.step parse hdl) Exchange.Lawful
      (Exchange.create properties hdl) moves exchange)
    (payload : Bytes) (rest : List Bytes) (next : exchange.uplink = payload :: rest) :
    (exchange.step parse hdl .serve).isSome = true ↔ opensWithSession exchange.client.log = true :=
  (attuned_of_execution reads unbroken execution).survives_iff next

/-- It survives the last packet of a recognition. -/
theorem last_packet_survived :
    ∃ exchange, Execution (Exchange.step (fun _ => resultJson) 0) Exchange.Lawful
        (Exchange.create configured 0) lastPacketMoves exchange ∧
      ((exchange.step (fun _ => resultJson) 0 .serve).isSome = true ↔
        opensWithSession exchange.client.log = true) := by
  obtain ⟨exchange, execution, -, -, next⟩ := last_packet_in_flight
  exact ⟨exchange, execution, server_survives_iff (fun _ => resultJson) rfl configured
    configured_unbroken 0 lastPacketMoves exchange execution _ _ next⟩

end AsrClient
