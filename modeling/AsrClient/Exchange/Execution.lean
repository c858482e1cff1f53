import AsrClient.Exchange.Sent
import AsrClient.Server.Conversation

/-!
# The client and the mock server

The client and the server of the repository are put together on one connection. The
connection carries the payloads of each side in the order in which they were sent, and it
loses none. A move is a step of the client, a payload that reaches the client, a payload
that reaches the server, or something that happens on another connection of the server. Any
of them may come next, so the payloads of both sides are in flight at the same time.

Nothing is sent before the websocket thread runs. A message that the server does not survive
is a move that it cannot make.

The results about exchanges take it that the server can read what the application hands over:
no text of the configuration has a line feed, which would begin a line of its own, and no
language model and no chunk of audio has a length that an `int` does not hold.
-/

namespace AsrClient

open Transitions

/-- The client, its server, and the payloads in flight, oldest first. -/
structure Exchange where
  client : System
  server : UtilityServer
  uplink : List Bytes := []
  downlink : List Bytes := []

/-- A move of the exchange. -/
inductive Move where
  | client (label : Label)
  | deliver
  | serve
  | elsewhere (event : UtilityServer.ServerEvent)
deriving DecidableEq

/-- The step receives a message. -/
def Label.receives : Label → Bool
  | .receive _ => true
  | _ => false

/-- The payloads of the requests that were sent, oldest first. -/
def frames (log : List Event) : List Bytes :=
  log.reverse.filterMap fun
    | .sent _ request => some request.raw
    | _ => none

/-- The payloads that a step has sent. -/
def newFrames (before after : System) : List Bytes :=
  (frames after.log).drop (frames before.log).length

namespace Exchange

/-- A client that is about to be constructed, and a server that has just accepted its
connection. -/
def create (properties : Properties) (hdl : ConnectionHdl) : Exchange where
  client := System.create properties
  server := ({} : UtilityServer).onOpen hdl

/-- One move. -/
def step (parse : Bytes → Json) (hdl : ConnectionHdl) (exchange : Exchange) : Move → Option Exchange
  | .client label =>
      if label.receives then none
      else match AsrClient.step parse exchange.client label with
        | none => none
        | some client =>
            if newFrames exchange.client client = [] ∨ exchange.client.impl.thread then
              some { exchange with
                client
                uplink := exchange.uplink ++ newFrames exchange.client client }
            else none
  | .deliver =>
      match exchange.downlink with
      | [] => none
      | payload :: rest =>
          (AsrClient.step parse exchange.client (.receive payload)).map fun client =>
            { exchange with client, downlink := rest }
  | .serve =>
      match exchange.uplink with
      | [] => none
      | payload :: rest =>
          match exchange.server.echoHandler hdl payload with
          | .error _ => none
          | .ok (server, replies) =>
              some { exchange with
                server
                uplink := rest
                downlink := exchange.downlink ++ replies.map Reply.wire }
  | .elsewhere event =>
      if event.hdl = hdl then none
      else match exchange.server.react event with
        | .error _ => none
        | .ok (server, _) => some { exchange with server }

/-- The client keeps its object and its connection, and is handed nothing that is too long. A
call that closes may join the thread of the connection, but goes no further. -/
def Lawful (exchange : Exchange) : Move → Prop
  | .client label => OneConnection exchange.client label ∧ label.Short
  | _ => True

instance (exchange : Exchange) (move : Move) : Decidable (exchange.Lawful move) := by
  unfold Lawful
  split <;> infer_instance

/-- The moves, with what enables them. -/
inductive Moves (parse : Bytes → Json) (hdl : ConnectionHdl) (exchange : Exchange) :
    Move → Exchange → Prop where
  | client (label : Label) (client : System) (other : label.receives = false)
      (moved : AsrClient.step parse exchange.client label = some client)
      (carried : newFrames exchange.client client = [] ∨ exchange.client.impl.thread = true) :
      Moves parse hdl exchange (.client label)
        { exchange with client, uplink := exchange.uplink ++ newFrames exchange.client client }
  | deliver (payload : Bytes) (rest : List Bytes) (client : System)
      (next : exchange.downlink = payload :: rest)
      (moved : AsrClient.step parse exchange.client (.receive payload) = some client) :
      Moves parse hdl exchange .deliver { exchange with client, downlink := rest }
  | serve (payload : Bytes) (rest : List Bytes) (server : UtilityServer) (replies : List Reply)
      (next : exchange.uplink = payload :: rest)
      (handled : exchange.server.echoHandler hdl payload = .ok (server, replies)) :
      Moves parse hdl exchange .serve
        { exchange with
          server
          uplink := rest
          downlink := exchange.downlink ++ replies.map Reply.wire }
  | elsewhere (event : UtilityServer.ServerEvent) (server : UtilityServer) (replies : List Reply)
      (other : event.hdl ≠ hdl) (reacted : exchange.server.react event = .ok (server, replies)) :
      Moves parse hdl exchange (.elsewhere event) { exchange with server }

/-- Every move is one of these. -/
theorem step_moves {parse : Bytes → Json} {hdl : ConnectionHdl} {exchange after : Exchange}
    {move : Move} (moved : exchange.step parse hdl move = some after) :
    Moves parse hdl exchange move after := by
  cases move with
  | client label =>
    simp only [step] at moved
    split_ifs at moved with receives
    split at moved
    · exact absurd moved (by simp)
    · rename_i client stepped
      split_ifs at moved with carried
      cases moved
      exact .client label client (by simpa using receives) stepped carried
  | deliver =>
    simp only [step] at moved
    split at moved
    · exact absurd moved (by simp)
    · rename_i payload rest next
      obtain ⟨client, stepped, rfl⟩ := Option.map_eq_some_iff.mp moved
      exact .deliver payload rest client next stepped
  | serve =>
    simp only [step] at moved
    split at moved
    · exact absurd moved (by simp)
    · rename_i payload rest next
      split at moved
      · exact absurd moved (by simp)
      · rename_i server replies handled
        cases moved
        exact .serve payload rest server replies next handled
  | elsewhere event =>
    simp only [step] at moved
    split_ifs at moved with own
    split at moved
    · exact absurd moved (by simp)
    · rename_i server replies reacted
      cases moved
      exact .elsewhere event server replies own reacted

/-- A payload that the server survives is one that it handles. -/
theorem serve_enabled_iff {parse : Bytes → Json} {hdl : ConnectionHdl} {exchange : Exchange}
    {payload : Bytes} {rest : List Bytes} (next : exchange.uplink = payload :: rest) :
    (exchange.step parse hdl .serve).isSome = true ↔
      ∃ server replies, exchange.server.echoHandler hdl payload = .ok (server, replies) := by
  simp only [step, next]
  split
  · rename_i thrown failed
    simp [failed]
  · rename_i server replies handled
    simp [handled]

end Exchange

section Frames

variable {before after : System}

/-- A step that logs nothing sends nothing. -/
theorem new_frames_same (same : after.log = before.log) : newFrames before after = [] := by
  rw [newFrames, same]
  simp

/-- A step that logs one entry sends what the entry records. -/
theorem new_frames_logged {event : Event} (logged : after.log = event :: before.log) :
    newFrames before after = frames [event] := by
  have grown : frames after.log = frames before.log ++ frames [event] := by
    simp [logged, frames]
  rw [newFrames, grown]
  exact List.drop_left' rfl

end Frames

/-- A recognizer that connects late, with a parameter. -/
def configured : Properties where
  recogConfig := some { mediaType := bytes "audio/raw" }
  connectOnRecognize := true

/-- No text of the parameters has a line feed. -/
theorem configured_unbroken (config : RecognitionConfig)
    (isConfig : configured.recogConfig = some config) : config.Unbroken := by
  cases isConfig
  decide

/-- A recognition up to its last packet: the server accepts the session, the parameters and
the recognition, and the audio sender reads all of the audio at once. -/
def lastPacketMoves : List Move :=
  (firstRecognition 0 { uri := bytes "builtin:slm/general" }).map .client ++
    [.serve, .deliver, .client (.ws .ok), .client (.ws .ok), .serve, .deliver, .client (.ws .ok),
      .serve, .deliver, .client (.ws .ok), .client (.read (-1) (bytes "ab"))] ++
    List.replicate 4 (.client (.sender .ok))

/-- The last packet is in flight behind these moves. -/
theorem last_packet_in_flight :
    ∃ exchange, Execution (Exchange.step (fun _ => resultJson) 0) Exchange.Lawful
        (Exchange.create configured 0) lastPacketMoves exchange ∧
      exchange.client.impl.thread = true ∧ lastSent exchange.client.log = true ∧
      exchange.uplink = [ASRMessageParser.raw (ASRSendMessage.sendAudio (-1) (bytes "ab"))] := by
  obtain ⟨exchange, execution, check⟩ := exists_execution_of_run
    (Exchange.step (fun _ => resultJson) 0) Exchange.Lawful (Exchange.create configured 0)
    lastPacketMoves
    (fun exchange => exchange.client.impl.thread = true ∧ lastSent exchange.client.log = true ∧
      exchange.uplink = [ASRMessageParser.raw (ASRSendMessage.sendAudio (-1) (bytes "ab"))])
    (by decide +kernel)
  exact ⟨exchange, execution, of_decide_eq_true check⟩

end AsrClient
