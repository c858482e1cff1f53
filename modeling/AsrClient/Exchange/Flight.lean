import AsrClient.Exchange.Execution

/-!
# What is in flight

The payloads between the client and the mock server are read by the one that receives them.
Each payload of the client asks something, each payload of the server says something, and
together they continue what the client has received already: the answered requests that the
client has sent are those whose answers have arrived, those whose answers are in flight, and
those that are in flight themselves, in this order.

Three lemmas say what a move does to the payloads: a step of the client may add a request,
the server puts what it says in the place of a request, and the client takes up the message
that has been in flight longest.
-/

namespace AsrClient

open Transitions UtilityServer

/-- The methods of the answered requests that were sent, oldest first. -/
def requested (log : List Event) : List Method :=
  log.reverse.filterMap fun
    | .sent _ request => awaits request
    | _ => none

/-- The methods of the answers that have arrived, oldest first. -/
def replied (log : List Event) : List Method := (received log).reverse.filterMap answers

/-- The method that a payload of the client asks to be answered. -/
def askedMethod (payload : Bytes) : Option Method :=
  match WsParser.ofString payload with
  | .ok parser => answered.find? (parser.command = getMethodString ·)
  | .error _ => none

/-- The method that a payload of the server answers. -/
def answeredMethod (payload : Bytes) : Option Method :=
  match ASRMessageResponse.consume payload with
  | .ok response => answers response
  | .error _ => none

/-- What is asked by a request that was sent. -/
structure Asked (request : ASRMessageRequest) (ask : Ask) : Prop where
  payload : Asks ask request.raw
  method : ask.method = awaits request
  audio : (∃ last, ask = .audio last) ↔ isRequest .sendAudio request = true
  last : ask = .audio true ↔ isLastPacket request = true

/-- The method of an answered request is found by its start line. -/
theorem awaits_of_start {c : Method} {request : ASRMessageRequest}
    (start : request.startLine = firstLine c) :
    awaits request = if c ∈ answered then some c else none := by
  have same : (isRequest · request) = fun d => decide (c = d) := by
    funext d
    rw [Bool.eq_iff_iff, is_request_iff start, decide_eq_true_iff]
  rw [awaits, same]
  cases c <;> decide

/-- Every request of the client asks for what its start line says, and for audio what its
header told. -/
theorem OwnRequest.asked {system : System} {request : ASRMessageRequest}
    (own : OwnRequest system.impl request) (short : HoldsShort system)
    (unbroken : ∀ config, system.impl.config = some config → config.Unbroken) :
    ∃ ask, Asked request ask := by
  obtain ⟨c, parser, start, isSent, isRead, command, headers⟩ := own.legible short unbroken
  have noAudio {d : Method} (other : request.startLine = firstLine d) (apart : d ≠ .sendAudio) :
      c ∈ answered ∧ isRequest .sendAudio request = false := by
    obtain rfl : c = d := first_line_injective (start.symm.trans other)
    refine ⟨List.mem_of_ne_of_mem apart isSent, ?_⟩
    rw [← Bool.not_eq_true, is_request_iff start]
    exact apart
  -- A request that is no audio is one for its method.
  have plain {d : Method} (other : request.startLine = firstLine d) (apart : d ≠ .sendAudio) :
      ∃ ask, Asked request ask := by
    obtain ⟨known, silent⟩ := noAudio other apart
    refine ⟨.request c, .request c _ parser known isRead command, ?_, ?_, ?_⟩
    · rw [awaits_of_start start, if_pos known]
      rfl
    · simp [silent]
    · simp [isLastPacket, silent]
  cases own with
  | session => exact plain (d := .createSession) rfl (by decide)
  | cancellation => exact plain (d := .cancelRecognition) rfl (by decide)
  | start lm _ model made => exact plain (start_recognition_start_line made) (by decide)
  | parameters config configured =>
    exact plain (ASRSendMessage.set_parameters_start_line config) (by decide)
  | audio ret buffer position =>
    have isAudio : (ASRSendMessage.sendAudio ret buffer).startLine = firstLine .sendAudio := rfl
    obtain rfl : c = .sendAudio := first_line_injective (start.symm.trans isAudio)
    have packet : (ASRSendMessage.sendAudio ret buffer).headers[bytes "LastPacket"]? =
        some (bytes (if ret = -1 then "true" else "false")) := by
      rw [ASRSendMessage.sendAudio, ASRMessageRequest.setHeader]
      refine Std.ExtTreeMap.getElem?_insert_self.trans ?_
      split_ifs <;> rfl
    have one : isRequest .sendAudio (ASRSendMessage.sendAudio ret buffer) = true :=
      (is_request_iff isAudio).mpr rfl
    refine ⟨.audio (ret = -1), .audio _ _ parser isRead command ?_, ?_, ?_, ?_⟩
    · rw [headers rfl, packet]
      simp
    · rw [awaits_of_start isAudio]
      rfl
    · simp [one]
    · have distinct : bytes "false" ≠ bytes "true" := by decide
      rw [isLastPacket, one, Bool.true_and, ASRMessageParser.getHeader, packet]
      by_cases last : ret = -1 <;> simp [last, distinct]

/-- What a step of the client adds to what is asked. -/
inductive Adds (log after : List Event) : List Ask → Prop where
  | nothing (silent : ∀ thread request, after ≠ .sent thread request :: log) : Adds log after []
  | request (thread : Thread) (request : ASRMessageRequest) (ask : Ask)
      (sent : after = .sent thread request :: log) (asked : Asked request ask) :
      Adds log after [ask]

/-- The methods whose requests or answers are in flight, in the order of the requests. -/
def underway (asks : List Ask) (told : List Say) : List Method :=
  told.filterMap Say.method ++ asks.filterMap Ask.method

/-- What is in flight continues what has arrived, and no audio and no result is ahead of the
recognition that it belongs to. -/
structure Flight (exchange : Exchange) (asks : List Ask) (told : List Say) : Prop where
  asked : List.Forall₂ Asks asks exchange.uplink
  said : List.Forall₂ Says told exchange.downlink
  history : requested exchange.client.log = replied exchange.client.log ++ underway asks told
  waiting : awaiting exchange.client.log = underway asks told
  started : (∃ last, .audio last ∈ asks) ∨ .result ∈ told →
    hasAccepted .startRecognition exchange.client.log = true

section Log

variable {log : List Event} {event : Event}

/-- A step that neither sends nor receives leaves the record of requests and answers. -/
theorem ledger_same (log : List Event) (noRequest : ∀ thread request, event ≠ .sent thread request)
    (noMessage : ∀ response, event ≠ .received response) :
    requested (event :: log) = requested log ∧ replied (event :: log) = replied log ∧
      awaiting (event :: log) = awaiting log := by
  cases event with
  | sent thread request => exact absurd rfl (noRequest thread request)
  | received response => exact absurd rfl (noMessage response)
  | _ => simp [requested, replied, received, awaiting]

/-- A request is the latest. -/
theorem requested_sent (thread : Thread) (request : ASRMessageRequest) :
    requested (.sent thread request :: log) = requested log ++ (awaits request).toList := by
  rw [requested, requested, List.reverse_cons, List.filterMap_append]
  rfl

/-- A message is no request. -/
theorem requested_received (response : ASRMessageResponse) :
    requested (.received response :: log) = requested log := by
  simp [requested]

/-- An answer is the latest. -/
theorem replied_received (response : ASRMessageResponse) :
    replied (.received response :: log) = replied log ++ (answers response).toList := by
  rw [replied, replied,
    show received (.received response :: log) = response :: received log from rfl,
    List.reverse_cons, List.filterMap_append]
  rfl

end Log

section Underway

/-- One more thing asked is underway behind everything else. -/
theorem underway_ask (asks : List Ask) (told : List Say) (ask : Ask) :
    underway (asks ++ [ask]) told = underway asks told ++ ask.method.toList := by
  cases ask <;> simp [underway, Ask.method]

/-- What the server says to a request is underway in its place. -/
theorem underway_serve (ask : Ask) (asks : List Ask) (told : List Say) (counter : Int) :
    underway asks (told ++ ask.saying counter) = underway (ask :: asks) told := by
  have silent : (Say.ofCounter counter).filterMap Say.method = [] := by
    rw [Say.ofCounter]
    split_ifs <;> rfl
  have saying : (ask.saying counter).filterMap Say.method = ask.method.toList := by
    cases ask with
    | request c => rw [Ask.saying, List.filterMap_cons, silent]; rfl
    | audio last => cases last <;> exact silent
  rw [underway, underway, List.filterMap_append, saying, List.append_assoc]
  congr 1
  cases ask <;> rfl

/-- What has arrived is no longer underway. -/
theorem underway_say (asks : List Ask) (say : Say) (told : List Say) :
    underway asks (say :: told) = say.method.toList ++ underway asks told := by
  cases say <;> rfl

end Underway

section Step

variable {parse : Bytes → Json} {properties : Properties} {hdl : ConnectionHdl}

/-- A client at work goes on by steps that receive no message. -/
theorem step_continues {before after : System} {label : Label}
    (moved : step parse before label = some after) (other : label.receives = false) :
    Continues before.log after.log := by
  obtain ⟨-, moves⟩ := step_moves parse before after label moved
  cases moves with
  | call call idle => exact Or.inr ⟨_, rfl, by simp⟩
  | app outcome stmt rest _ next performed => exact (app_continues performed :)
  | gaveUp rest exception asleep free => exact Or.inr ⟨_, rfl, by simp⟩
  | expired condition rest asleep free met => exact Or.inl rfl
  | rejected payload => exact absurd other (by simp [Label.receives])
  | received payload => exact absurd other (by simp [Label.receives])
  | event label stmts connection free => exact Or.inl rfl
  | ws outcome stmt rest next => exact ws_continues outcome { before with ws := rest } stmt
  | read ret chunk _ performed => exact Or.inl (read_frame ret chunk before after performed).2
  | sender outcome _ performed => exact sender_continues performed

/-- A client that takes up a message it can decode starts its handler. -/
theorem receive_decoded {before after : System} {payload : Bytes} {response : ASRMessageResponse}
    (decoded : ASRMessageResponse.consume payload = .ok response)
    (moved : step parse before (.receive payload) = some after) :
    before.crashed = none ∧ before.ws = [] ∧ before.impl.thread = true ∧
      after = ({ before with ws := ASRProcessMsg.handle parse response } : System).record
        (.received response) := by
  simp only [step, decoded] at moved
  split_ifs at moved with lost
  obtain ⟨listening, listened, rfl⟩ := Option.map_eq_some_iff.mp moved
  obtain ⟨free, thread, rfl⟩ := listen_free before listening _ listened
  exact ⟨by simpa using lost, free, thread, rfl⟩

/-- A request for audio is sent only behind an accepted recognition. -/
theorem audio_started {labels : List Label} {before after : System} {label : Label}
    {thread : Thread} {request : ASRMessageRequest}
    (execution : Execution (step parse) Served (System.create properties) labels before)
    (allowed : Served before label) (moved : step parse before label = some after)
    (sent : after.log = .sent thread request :: before.log)
    (isAudio : isRequest .sendAudio request = true) :
    hasAccepted .startRecognition before.log = true := by
  have further := Execution.snoc labels before after label execution allowed moved
  have either := impl_invariant further (fun _ _ allowed => allowed.1.1)
    (Ordered properties.recogConfig.isSome) (fun _ built => .built built)
    (fun _ _ _ same ordered allowed moved => ordered.step same allowed moved)
  rcases either with building | ⟨-, ordered⟩
  · simp [building.silent] at sent
  · exact (ordered.order thread request before.log (sent ▸ List.suffix_rfl)).audio isAudio

/-- The configuration of the object is that of the properties, once it has one. -/
theorem config_of_properties {labels : List Label} {system : System}
    (execution : Execution (step parse) Served (System.create properties) labels system)
    (config : RecognitionConfig) (configured : system.impl.config = some config) :
    properties.recogConfig = some config := by
  have either := impl_invariant execution (fun _ _ allowed => allowed.1.1) (fun _ => True)
    (fun _ _ => trivial) (fun _ _ _ _ _ _ _ => trivial)
  rcases either with building | ⟨same, -⟩
  · cases building <;> first | exact configured | cases configured
  · exact same.keepsConfig ▸ configured

end Step

section Flight

variable {parse : Bytes → Json} {hdl : ConnectionHdl} {exchange : Exchange} {asks : List Ask}
  {told : List Say}

/-- A step of the client that receives no message puts its request behind everything else. -/
theorem Flight.client {client : System} (flight : Flight exchange asks told)
    (continued : Continues exchange.client.log client.log)
    (sends : ∀ thread request, client.log = .sent thread request :: exchange.client.log →
      (∃ ask, Asked request ask) ∧ (isRequest .sendAudio request = true →
        hasAccepted .startRecognition exchange.client.log = true)) :
    ∃ more, Adds exchange.client.log client.log more ∧ Flight { exchange with
      client
      uplink := exchange.uplink ++ newFrames exchange.client client } (asks ++ more) told := by
  rcases continued with same | ⟨event, logged, other⟩
  · refine ⟨[], .nothing fun _ _ sent =>
      absurd (same.symm.trans sent) (List.cons_ne_self _ _).symm, ?_⟩
    rw [List.append_nil]
    refine ⟨?_, flight.said, same ▸ flight.history, same ▸ flight.waiting, same ▸ flight.started⟩
    rw [new_frames_same same, List.append_nil]
    exact flight.asked
  · have earlier : exchange.client.log <:+ client.log := logged ▸ List.suffix_cons ..
    by_cases isRequest : ∃ thread request, event = .sent thread request
    · obtain ⟨thread, request, rfl⟩ := isRequest
      obtain ⟨⟨ask, asked⟩, started⟩ := sends thread request logged
      refine ⟨[ask], .request thread request ask logged asked, ?_, flight.said, ?_, ?_, ?_⟩
      · rw [new_frames_logged logged]
        exact List.rel_append flight.asked (.cons asked.payload .nil)
      · rw [underway_ask, asked.method, logged, requested_sent, flight.history, List.append_assoc]
        rfl
      · rw [underway_ask, asked.method, logged, awaiting, flight.waiting]
      · intro needs
        refine hasAccepted.mono ?_ earlier
        rcases needs with ⟨last, member⟩ | result
        · rcases List.mem_append.mp member with former | new
          · exact flight.started (Or.inl ⟨last, former⟩)
          · exact started (asked.audio.mp ⟨last, (List.mem_singleton.mp new).symm⟩)
        · exact flight.started (Or.inr result)
    · have noRequest : ∀ thread request, event ≠ .sent thread request :=
        fun thread request same => isRequest ⟨thread, request, same⟩
      obtain ⟨sameRequested, sameReplied, sameAwaiting⟩ :=
        ledger_same exchange.client.log noRequest other
      refine ⟨[], .nothing fun thread request sent => ?_, ?_⟩
      · exact noRequest thread request (List.cons.inj (logged.symm.trans sent)).1
      rw [List.append_nil]
      refine ⟨?_, flight.said, ?_, ?_, fun needs => hasAccepted.mono (flight.started needs) earlier⟩
      · have silent : frames [event] = [] := by
          cases event <;> first | rfl | exact (noRequest _ _ rfl).elim
        rw [new_frames_logged logged, silent, List.append_nil]
        exact flight.asked
      · rw [logged, sameRequested, sameReplied]
        exact flight.history
      · rw [logged, sameAwaiting]
        exact flight.waiting

/-- A message that arrives is the one that has been in flight longest, and it is one that the
order of the protocol lets a server send. -/
theorem Flight.deliver {client : System} {payload : Bytes} {rest : List Bytes}
    (flight : Flight exchange asks told) (reads : ReadsResult parse)
    (next : exchange.downlink = payload :: rest)
    (moved : step parse exchange.client (.receive payload) = some client) :
    ∃ say later, told = say :: later ∧ serves exchange.client (.receive payload) = true ∧
      exchange.client.ws = [] ∧ client.ws = say.stmts ∧ client.impl = exchange.client.impl ∧
      Flight { exchange with client, downlink := rest } asks later := by
  have said := flight.said
  rw [next] at said
  cases said with
  | @cons say _ later _ head tail =>
    obtain ⟨response, decoded, takes⟩ := head.taken reads
    obtain ⟨-, free, -, rfl⟩ := receive_decoded decoded moved
    refine ⟨say, later, rfl, ?_, free, takes.handler, rfl, flight.asked, tail, ?_, ?_, ?_⟩
    · have started :
          (!isResult response || hasAccepted .startRecognition exchange.client.log) = true := by
        by_cases isOne : isResult response = true
        · obtain rfl := takes.isResult.mp isOne
          rw [flight.started (Or.inr List.mem_cons_self), Bool.or_true]
        · simp [isOne]
      simp only [serves, decoded, served, takes.answers, flight.waiting, underway_say, started]
      cases say <;> simp [Say.method]
    · show requested (.received response :: exchange.client.log) =
        replied (.received response :: exchange.client.log) ++ underway asks later
      rw [requested_received, replied_received, takes.answers, flight.history, underway_say,
        List.append_assoc]
    · show awaiting (.received response :: exchange.client.log) = underway asks later
      rw [awaiting, takes.answers, flight.waiting, underway_say]
      cases say <;> rfl
    · intro needs
      refine hasAccepted.mono (flight.started ?_) (List.suffix_cons ..)
      exact needs.imp_right (List.mem_cons_of_mem _)

/-- What the server says to a message takes the place of the message. -/
theorem Flight.serve {server : UtilityServer} {payload : Bytes} {rest : List Bytes}
    {replies : List Reply} {session : Session} (flight : Flight exchange asks told)
    (named : exchange.server.NamesStatus)
    (here : exchange.server.sessionMap[hdl]? = some session)
    (running : session.audioCounter ≠ some endRecognize)
    (next : exchange.uplink = payload :: rest)
    (handled : exchange.server.echoHandler hdl payload = .ok (server, replies)) :
    ∃ ask later counter, asks = ask :: later ∧ ask.count session.audioCounter = some counter ∧
      Serves exchange.server server hdl ask counter replies ∧
      Flight { exchange with
        server
        uplink := rest
        downlink := exchange.downlink ++ replies.map Reply.wire } later
        (told ++ ask.saying counter) := by
  have asked := flight.asked
  rw [next] at asked
  cases asked with
  | @cons ask _ later _ head tail =>
    obtain ⟨counter, counts, serves⟩ := echo_handler_serves named here head handled
    refine ⟨ask, later, counter, rfl, counts, serves, tail,
      List.rel_append flight.said serves.said, ?_, ?_, ?_⟩
    · rw [underway_serve]
      exact flight.history
    · rw [underway_serve]
      exact flight.waiting
    · rintro (⟨last, member⟩ | result)
      · exact flight.started (Or.inl ⟨last, List.mem_cons_of_mem _ member⟩)
      · rcases List.mem_append.mp result with former | new
        · exact flight.started (Or.inr former)
        · cases ask with
          | audio last => exact flight.started (Or.inl ⟨last, List.mem_cons_self⟩)
          | request c =>
            -- The counter is not at its end behind a message that is no audio.
            have ends : counter = endRecognize := by
              simpa [Ask.saying, Say.ofCounter, ite_eq_iff] using new
            rw [Ask.count, counterBehind, ends] at counts
            split_ifs at counts
            · cases counts
            · exact absurd counts running

end Flight

end AsrClient
