import AsrClient.Recognizer.CancelledResults

/-!
# Late replies to a cancellation

On a connection the server answers the requests in order, one reply for each. The n-th reply
to a cancellation belongs to the n-th cancellation that was sent, which may be older than the
recognition that was accepted last. The handler does not ask: it clears the stored results
and the flag.

A late reply is harmless when it arrives behind the end of that recognition and the taking of
its results. An older reply is so too, unless the recognition is accepted while its handler is
at work.
-/

namespace AsrClient

open Transitions SpeechRecognizer

/-- A reply to a cancellation, whatever its result. -/
def cancelReply (response : ASRMessageResponse) : Bool :=
  match methodWord response with
  | none => false
  | some method => contains method (getMethodString .response) &&
      response.getHeader ResponseHeader.method.getString = getMethodString .cancelRecognition

/-- A reply that the handler takes for the end of the recognition. -/
def cancelConfirmed (response : ASRMessageResponse) : Bool :=
  cancelReply response &&
    (ASRProcessResponse.succeeded response || ASRProcessResponse.invalidAction response)

/-- The request of a cancellation was sent. -/
def cancelSent : Event → Bool
  | .sent _ request => isRequest .cancelRecognition request
  | _ => false

/-- The number of replies to cancellations received so far. -/
def cancelReplies (log : List Event) : Nat :=
  log.countP fun
    | .received response => cancelReply response
    | _ => false

/-- The number of cancellations sent before the last accepted recognition. -/
def cancelsBefore : List Event → Nat
  | [] => 0
  | .accepted :: log => log.countP cancelSent
  | _ :: log => cancelsBefore log

/-- The last accepted recognition has emptied the list of results. -/
def emptiedSince : List Event → Bool
  | [] => false
  | .accepted :: _ => false
  | .emptied :: _ => true
  | _ :: log => emptiedSince log

/-- The last accepted recognition was ended by a message whose handler clears the flag. -/
def endedSince (parse : Bytes → Json) : List Event → Bool
  | [] => false
  | .accepted :: _ => false
  | .received response :: log =>
      (ending parse response).any (· ≠ .error) || endedSince parse log
  | _ :: log => endedSince parse log

/-- What happened since the connection was closed last. -/
def sinceClosed : List Event → List Event
  | [] => []
  | .closed :: _ => []
  | event :: log => event :: sinceClosed log

/-- The message received last on the connection confirms a cancellation that is older than the
recognition accepted last. -/
def lateReply (log : List Event) : Bool :=
  match lastReceived (sinceClosed log) with
  | none => false
  | some response => cancelConfirmed response &&
      cancelReplies (sinceClosed log) ≤ cancelsBefore (sinceClosed log)

/-- A step leaves the flag alone, and the results of the recognition accepted last. -/
def Untouched (before after : System) : Prop :=
  after.impl.recognizing = before.impl.recognizing ∧
    (emptiedSince before.log = true → after.impl.result = before.impl.result)

/-- The recognition accepted last has ended, and none of its results is left. -/
def settledSince (parse : Bytes → Json) (log : List Event) : Bool :=
  endedSince parse log && !(emptiedSince log && leftOver parse [] log)

/-- A reply to a cancellation that is older than the recognition accepted last has still to
arrive. -/
def awaitsLate (log : List Event) : Bool :=
  cancelReplies (sinceClosed log) < cancelsBefore (sinceClosed log)

/-- A step with which a reply overtakes a recognition, or is overtaken by one: a late reply
arrives before the end of the recognition accepted last or the taking of its results; or a
recognition is accepted while the reply to an older cancellation is handled; or the
application, while such a reply has still to arrive, empties the list just before a result is
stored. -/
def overtakes (parse : Bytes → Json) (system : System) : Label → Bool
  | .receive payload =>
      match ASRMessageResponse.consume payload with
      | .ok response => lateReply (.received response :: system.log) &&
          !settledSince parse system.log
      | .error _ => false
  | .app _ =>
      match system.app.head? with
      | some .setRecognizing => lateReply (.accepted :: system.log) &&
          system.ws.contains .clearRecognizing
      | some .clearResult => awaitsLate system.log && stores system.ws ≠ []
      | _ => false
  | _ => false

/-- The step is none of these. -/
def RepliesInTime (parse : Bytes → Json) (system : System) (label : Label) : Prop :=
  overtakes parse system label = false

instance (parse : Bytes → Json) (system : System) (label : Label) :
    Decidable (RepliesInTime parse system label) :=
  inferInstanceAs (Decidable (_ = _))

/-- The statements behind the receipt of a confirmed cancellation: those of its handler,
and those of the events of the connection. -/
def WsStmt.isClearing : WsStmt → Bool
  | .clearResult => true
  | .clearRecognizing => true
  | .setStatus _ => true
  | .setEptr _ => true
  | _ => false

/-- Behind a confirmed cancellation the websocket thread has only to clear. -/
def Clearing (system : System) : Prop :=
  ∀ response, lastReceived system.log = some response → cancelConfirmed response = true →
    ∀ stmt ∈ system.ws, stmt.isClearing = true

/-- The handler of a confirmed cancellation clears, and does nothing else. -/
theorem confirmed_handler (parse : Bytes → Json) (response : ASRMessageResponse)
    (confirmed : cancelConfirmed response = true) :
    ASRProcessMsg.handle parse response = [.clearResult, .clearRecognizing] := by
  simp only [cancelConfirmed, cancelReply, Bool.and_eq_true] at confirmed
  obtain ⟨reply, accepted⟩ := confirmed
  split at reply
  · exact absurd reply (by simp)
  · rename_i method word
    simp only [Bool.and_eq_true, decide_eq_true_eq] at reply
    rw [ASRProcessMsg.handle, word]
    simp only [if_pos reply.1]
    rw [ASRProcessResponse.handle, ASRProcessResponse.session_status_nil, List.nil_append,
      dispatch_cancel response reply.2, ASRProcessResponse.cancelRecog, if_pos accepted]

/-- The statements of that handler. -/
theorem clears_only :
    ∀ stmt ∈ [WsStmt.clearResult, WsStmt.clearRecognizing], stmt.isClearing = true := by
  decide

/-- The statements of the handlers of the connection. -/
theorem connection_clearing {label : Label} {stmts : List WsStmt}
    (connection : ConnectionEvent label stmts) : ∀ stmt ∈ stmts, stmt.isClearing = true := by
  cases connection <;> decide

/-- Every step leaves only clearing to do behind a confirmed cancellation. -/
theorem clearing_step (parse : Bytes → Json) (before after : System) (label : Label)
    (clearing : Clearing before) (moved : step parse before label = some after) :
    Clearing after := by
  obtain ⟨-, moves⟩ := step_moves parse before after label moved
  intro response last confirmed stmt member
  cases moves with
  | call call idle => exact clearing response last confirmed stmt member
  | app outcome first rest _ next performed =>
    rw [app_ws performed] at member
    exact clearing response ((app_continues performed).last ▸ last) confirmed stmt member
  | gaveUp rest exception asleep free => exact clearing response last confirmed stmt member
  | expired condition rest asleep free met => exact clearing response last confirmed stmt member
  | rejected payload cause other free => exact clearing response last confirmed stmt member
  | received payload message decoded free =>
    obtain rfl : message = response := Option.some.inj last
    have handler : stmt ∈ ASRProcessMsg.handle parse message := member
    rw [confirmed_handler parse message confirmed] at handler
    exact clears_only stmt handler
  | event label stmts connection free =>
    exact connection_clearing connection stmt member
  | ws outcome first rest next =>
    rw [(ws_continues outcome { before with ws := rest } first).last] at last
    obtain ⟨new, list, pushed⟩ := ws_list outcome { before with ws := rest } first
    have isClearing := clearing response last confirmed first (by simp [next])
    rw [list, List.mem_append] at member
    cases member with
    | inl put =>
      have may := pushed stmt put
      cases first <;> first | exact absurd may id | exact absurd isClearing Bool.false_ne_true
    | inr left =>
      exact clearing response last confirmed stmt (by simp [next, left])
  | read ret chunk _ performed =>
    obtain ⟨frame, log⟩ := read_frame ret chunk before after performed
    exact clearing response (log ▸ last) confirmed stmt (frame.ws ▸ member)
  | sender outcome _ performed =>
    have frame := (sender_frame outcome before after performed).1
    exact clearing response ((sender_continues performed).last ▸ last) confirmed stmt
      (frame.ws ▸ member)

section Log

variable {log after : List Event}

/-- Without the entries of former connections the message received last is the same, if there
is one. -/
theorem last_since_closed {response : ASRMessageResponse}
    (last : lastReceived (sinceClosed log) = some response) : lastReceived log = some response := by
  induction log with
  | nil => exact last
  | cons event log inductionHypothesis =>
    cases event with
    | received => exact last
    | closed => exact absurd last (by simp [sinceClosed, lastReceived])
    | _ => exact inductionHypothesis last

/-- A late reply was received last, and is confirmed. -/
theorem late_confirmed (late : lateReply log = true) :
    ∃ response, lastReceived log = some response ∧ cancelConfirmed response = true := by
  simp only [lateReply] at late
  split at late
  · exact absurd late (by simp)
  · rename_i response last
    exact ⟨response, last_since_closed last, (Bool.and_eq_true_iff.mp late).1⟩

/-- A reply is late behind a plain entry only if it was late before. -/
theorem PlainStep.late (plain : PlainStep log after) (late : lateReply after = true) :
    lateReply log = true := by
  rcases plain with rfl | ⟨event, rfl, isPlain⟩
  · exact late
  · cases event with
    | accepted | emptied | received => exact absurd isPlain Bool.false_ne_true
    | closed => exact absurd late (by simp [lateReply, sinceClosed, lastReceived])
    | _ => exact late

/-- Behind a plain entry no other late reply has still to arrive. -/
theorem PlainStep.awaits (plain : PlainStep log after) (awaits : awaitsLate after = true) :
    awaitsLate log = true := by
  rcases plain with rfl | ⟨event, rfl, isPlain⟩
  · exact awaits
  · cases event with
    | accepted | emptied | received => exact absurd isPlain Bool.false_ne_true
    | closed => exact absurd awaits (by simp [awaitsLate, sinceClosed, cancelsBefore])
    | _ => exact awaits

/-- With a receipt no other late reply has still to arrive; and a late reply had to. -/
theorem awaits_received {response : ASRMessageResponse} :
    (awaitsLate (.received response :: log) = true → awaitsLate log = true) ∧
      (lateReply (.received response :: log) = true → awaitsLate log = true) := by
  have replies : cancelReplies (.received response :: sinceClosed log) =
      cancelReplies (sinceClosed log) + if cancelReply response then 1 else 0 := List.countP_cons
  have awaits (log : List Event) : awaitsLate log = true ↔
      cancelReplies (sinceClosed log) < cancelsBefore (sinceClosed log) := decide_eq_true_iff
  rw [awaits, awaits]
  constructor
  · intro fewer
    have former : cancelReplies (.received response :: sinceClosed log) <
        cancelsBefore (sinceClosed log) := fewer
    omega
  · intro late
    obtain ⟨confirmed, older⟩ := Bool.and_eq_true_iff.mp late
    have reply : cancelReply response = true := (Bool.and_eq_true_iff.mp confirmed).1
    have counted : cancelReplies (.received response :: sinceClosed log) ≤
        cancelsBefore (sinceClosed log) := of_decide_eq_true older
    rw [replies, if_pos reply] at counted
    exact counted

/-- A plain entry ends no recognition, and empties no list. -/
theorem PlainStep.since (plain : PlainStep log after) (parse : Bytes → Json) :
    endedSince parse after = endedSince parse log ∧ emptiedSince after = emptiedSince log := by
  rcases plain with rfl | ⟨event, rfl, isPlain⟩
  · exact ⟨rfl, rfl⟩
  · cases event <;> first | exact ⟨rfl, rfl⟩ | exact absurd isPlain Bool.false_ne_true

end Log

/-- The invariant of a run whose replies arrive in time. Behind the end of a recognition the
flag is clear, or its handler is about to clear it; as long as a late reply has still to
arrive, the list holds only results that are left; and its handler finds nothing to clear. -/
structure NothingLate (parse : Bytes → Json) (system : System) : Prop where
  clearing : Clearing system
  single : (stores system.ws).length ≤ 1
  holding : awaitsLate system.log = true → emptiedSince system.log = true → Holding parse system
  ended : endedSince parse system.log = true →
    system.impl.recognizing = false ∨ .clearRecognizing ∈ system.ws
  flag : lateReply system.log = true → .clearRecognizing ∈ system.ws →
    system.impl.recognizing = false
  results : lateReply system.log = true → .clearResult ∈ system.ws →
    emptiedSince system.log = true → system.impl.result = []

section Step

variable {parse : Bytes → Json} {before after : System}

/-- A plain step that leaves the handlers alone, and may only clear the flag and empty the list,
keeps the invariant. -/
theorem NothingLate.continue (nothingLate : NothingLate parse before) (clearing : Clearing after)
    (plain : PlainStep before.log after.log)
    (recognizing : after.impl.recognizing = before.impl.recognizing ∨
      after.impl.recognizing = false)
    (result : after.impl.result = before.impl.result ∨ after.impl.result = [])
    (ws : after.ws = before.ws) : NothingLate parse after := by
  obtain ⟨sameEnded, sameEmptied⟩ := plain.since parse
  have still (clear : before.impl.recognizing = false) : after.impl.recognizing = false :=
    recognizing.elim (·.trans clear) id
  constructor
  · exact clearing
  · rw [ws]
    exact nothingLate.single
  · rw [sameEmptied]
    intro awaits emptied
    exact (nothingLate.holding (plain.awaits awaits) emptied).continue plain.left_over result
      (by rw [ws]) (by rw [ws])
  · rw [sameEnded, ws]
    exact fun ended => (nothingLate.ended ended).imp_left still
  · rw [ws]
    exact fun late pending => still (nothingLate.flag (plain.late late) pending)
  · rw [ws, sameEmptied]
    intro late pending emptied
    exact result.elim (·.trans (nothingLate.results (plain.late late) pending emptied)) id

/-- The receipt of a message in time keeps the invariant: behind its end the recognition has
left nothing to clear. -/
theorem NothingLate.received (nothingLate : NothingLate parse before) (free : before.ws = [])
    (response : ASRMessageResponse)
    (inTime : lateReply (.received response :: before.log) = true →
      settledSince parse before.log = true) (clearing : Clearing after)
    (receipt : after = ({ before with ws := ASRProcessMsg.handle parse response } : System).record
      (.received response)) : NothingLate parse after := by
  subst receipt
  -- The former handler is done, so what has ended is cleared.
  have clear (ended : endedSince parse before.log = true) : before.impl.recognizing = false :=
    (nothingLate.ended ended).resolve_right (by simp [free])
  constructor
  · exact clearing
  · show (stores (ASRProcessMsg.handle parse response)).length ≤ 1
    rw [(handler_stores parse response).1]
    exact Option.length_toList_le
  · intro awaits emptied
    exact (nothingLate.holding (awaits_received.1 awaits) emptied).received free response
  · intro ended
    rcases Bool.or_eq_true_iff.mp ended with ends | former
    · obtain ⟨kind, finished, sound⟩ := (Option.any_eq_true _ _).mp ends
      exact Or.inr (ending_clears parse response kind (of_decide_eq_true sound) finished)
    · exact Or.inl (clear former)
  · intro late pending
    exact clear (Bool.and_eq_true_iff.mp (inTime late)).1
  · intro late pending emptied
    have settled := (Bool.and_eq_true_iff.mp (inTime late)).2
    have none : leftOver parse [] before.log = false := by
      simpa [show emptiedSince before.log = true from emptied] using settled
    by_contra filled
    have left := (nothingLate.holding (awaits_received.2 late) emptied).stored filled
    rw [free] at left
    exact absurd (none.symm.trans left) (by decide)

/-- A statement of a handler keeps the invariant. -/
theorem NothingLate.ws (nothingLate : NothingLate parse before) (outcome : Outcome)
    (stmt : WsStmt) (rest : List WsStmt) (next : before.ws = stmt :: rest)
    (clearing : Clearing (execWs outcome { before with ws := rest } stmt)) :
    NothingLate parse (execWs outcome { before with ws := rest } stmt) := by
  obtain ⟨formerClearing, single, holding, formerEnded, formerFlag, formerResults⟩ := nothingLate
  have recognizing := ws_recognizing outcome { before with ws := rest } stmt
  have plain : PlainStep before.log (execWs outcome { before with ws := rest } stmt).log := by
    apply ws_logs
    intro event background
    cases event <;> first | rfl | exact absurd background Bool.false_ne_true
  obtain ⟨new, list, pushed⟩ := ws_list outcome { before with ws := rest } stmt
  obtain ⟨inert, same⟩ := pushed_inert pushed
  -- A statement that clears is among the rest, since no statement puts one before it.
  have left {clears : WsStmt} (isClear : clears.clears = true)
      (member : clears ∈ (execWs outcome { before with ws := rest } stmt).ws) :
      clears ∈ before.ws := by
    rw [list, List.mem_append] at member
    rw [next]
    refine member.elim (fun put => ?_) (List.mem_cons_of_mem _)
    exact absurd (isClear.symm.trans (inert _ put)) (by decide)
  obtain ⟨sameEnded, sameEmptied⟩ := plain.since parse
  constructor
  · exact clearing
  · rw [list, (same rest).1]
    rw [next] at single
    exact (((List.sublist_cons_self stmt rest).filterMap _).length_le).trans single
  · rw [sameEmptied]
    exact fun awaits emptied => (holding (plain.awaits awaits) emptied).ws outcome stmt rest next
  · rw [sameEnded, recognizing]
    intro ended
    by_cases clears : stmt = .clearRecognizing
    · simp [clears]
    · refine (formerEnded ended).imp (fun clear => by simp [clear]) fun pending => ?_
      rw [next, List.mem_cons] at pending
      rw [list]
      exact List.mem_append_right _ (pending.resolve_left (Ne.symm clears))
  · rw [recognizing]
    intro late pending
    simp [formerFlag (plain.late late) (left rfl pending)]
  · rw [sameEmptied]
    intro late pending emptied
    have none := formerResults (plain.late late) (left rfl pending) emptied
    obtain ⟨response, last, confirmed⟩ := late_confirmed (plain.late late)
    have isClearing := formerClearing response last confirmed stmt (by simp [next])
    cases stmt <;> first | exact none | rfl | exact absurd isClearing Bool.false_ne_true

/-- A statement of the application thread keeps the invariant, unless a reply is overtaken. -/
theorem NothingLate.app (nothingLate : NothingLate parse before) (outcome : Outcome)
    (stmt : AppStmt) (rest : List AppStmt) (next : before.app = stmt :: rest)
    (allowed : RepliesInTime parse before (.app outcome))
    (performed : execApp outcome { before with app := rest } stmt = some after)
    (clearing : Clearing after) : NothingLate parse after := by
  by_cases other : stmt ≠ .setRecognizing ∧ stmt ≠ .clearResult ∧ stmt ≠ .freshImpl
  · obtain ⟨accept, empty, rebuild⟩ := other
    obtain ⟨plain, recognizing, result⟩ := app_plain performed accept empty rebuild
    exact nothingLate.continue clearing plain (Or.inl recognizing) (Or.inl result)
      (app_ws performed :)
  · have general := nothingLate
    obtain ⟨-, single, -, ended, flag, -⟩ := nothingLate
    cases stmt with
    | setRecognizing =>
      -- The recognition has just begun: nothing has ended it yet, nor emptied the list.
      cases performed
      constructor
      · exact clearing
      · exact single
      · intro _ emptied
        exact absurd emptied Bool.false_ne_true
      · intro ended
        exact absurd ended Bool.false_ne_true
      · intro late pending
        have overtaken : overtakes parse before (.app outcome) = true := by
          simp only [overtakes, next, List.head?_cons]
          exact Bool.and_eq_true_iff.mpr ⟨late, List.contains_iff_mem.mpr pending⟩
        exact absurd (overtaken.symm.trans allowed) (by decide)
      · intro _ _ emptied
        exact absurd emptied Bool.false_ne_true
    | clearResult =>
      cases performed
      refine ⟨clearing, single, fun awaits _ => ?_, ended, flag, fun _ _ _ => rfl⟩
      have none : stores before.ws = [] := by
        simpa [RepliesInTime, overtakes, next, show awaitsLate before.log = true from awaits]
          using allowed
      exact ⟨fun filled => absurd rfl filled, single, fun pending => absurd none pending⟩
    | freshImpl =>
      simp only [execApp] at performed
      split_ifs at performed <;> cases performed
      · exact general.continue clearing (Or.inl rfl) (Or.inl rfl) (Or.inl rfl) rfl
      · exact general.continue clearing (Or.inl rfl) (Or.inr rfl) (Or.inr rfl) rfl
    | _ => exact absurd (by simp) other

/-- Every step in time keeps the invariant. -/
theorem NothingLate.step {label : Label} (nothingLate : NothingLate parse before)
    (allowed : RepliesInTime parse before label) (moved : step parse before label = some after) :
    NothingLate parse after := by
  have clearing := clearing_step parse before after label nothingLate.clearing moved
  obtain ⟨-, moves⟩ := step_moves parse before after label moved
  cases moves with
  | call call idle =>
    exact nothingLate.continue clearing (Or.inr ⟨_, rfl, rfl⟩) (Or.inl rfl) (Or.inl rfl) rfl
  | app outcome stmt rest _ next performed =>
    exact nothingLate.app outcome stmt rest next allowed performed clearing
  | gaveUp rest exception asleep free =>
    exact nothingLate.continue clearing (Or.inr ⟨_, rfl, rfl⟩) (Or.inl rfl) (Or.inl rfl) rfl
  | expired condition rest asleep free met =>
    exact nothingLate.continue clearing (Or.inl rfl) (Or.inl rfl) (Or.inl rfl) rfl
  | rejected payload cause other free =>
    exact nothingLate.continue clearing (Or.inl rfl) (Or.inl rfl) (Or.inl rfl) rfl
  | received payload response decoded free =>
    refine nothingLate.received free response (fun late => ?_) clearing rfl
    simpa [RepliesInTime, overtakes, decoded, late] using allowed
  | event label stmts connection free =>
    obtain ⟨storing, inert⟩ := connection_inert connection
    have absent {clears : WsStmt} (isClear : clears.clears = true) : clears ∉ stmts := by
      intro member
      exact absurd (isClear.symm.trans (inert _ member)) (by decide)
    constructor
    · exact clearing
    · simp [storing]
    · intro awaits emptied
      refine (nothingLate.holding awaits emptied).continue (fun _ => rfl) (Or.inl rfl) ?_ ?_
      · rw [free]
        exact storing
      · rw [free]
        have discards : WsStmt.clearResult ∉ stmts := absent rfl
        simp [discards]
    · intro ended
      exact Or.inl ((nothingLate.ended ended).resolve_right (by simp [free]))
    · intro _ pending
      exact absurd pending (absent rfl)
    · intro _ pending
      exact absurd pending (absent rfl)
  | ws outcome stmt rest next => exact nothingLate.ws outcome stmt rest next clearing
  | read ret chunk _ performed =>
    obtain ⟨frame, log⟩ := read_frame ret chunk before after performed
    exact nothingLate.continue clearing (Or.inl log) (Or.inl (frame.keeps (·.recognizing)))
      (Or.inl (frame.keeps (·.result))) frame.ws
  | sender outcome _ performed =>
    have frame := (sender_frame outcome before after performed).1
    exact nothingLate.continue clearing (sender_plain performed)
      (Or.inl (frame.keeps (·.recognizing))) (Or.inl (frame.keeps (·.result))) frame.ws

end Step

/-- A run in which late replies arrive only behind the end of the recognition accepted last and
the taking of its results: no step of their handlers touches that recognition, or removes one
of its results. -/
theorem late_reply_untouched (parse : Bytes → Json) (properties : Properties)
    (labels : List Label) (before after : System) (outcome : Outcome)
    (execution : Execution (step parse) (RepliesInTime parse) (System.create properties) labels
      before)
    (moved : step parse before (.ws outcome) = some after)
    (late : lateReply before.log = true) : Untouched before after := by
  have created : NothingLate parse (System.create properties) := by
    constructor <;> simp [System.create, Clearing, stores, emptiedSince, endedSince]
  have nothingLate : NothingLate parse before :=
    execution.invariant (NothingLate parse) created
      fun before label after nothingLate allowed moved => nothingLate.step allowed moved
  obtain ⟨-, moves⟩ := step_moves parse before after _ moved
  cases moves with
  | event label stmts connection free => cases connection
  | ws _ stmt rest next =>
    obtain ⟨response, last, confirmed⟩ := late_confirmed late
    have isClearing := nothingLate.clearing response last confirmed stmt (by simp [next])
    cases stmt with
    | clearResult =>
      have none := nothingLate.results late (by simp [next])
      exact ⟨rfl, fun emptied => (none emptied).symm⟩
    | clearRecognizing =>
      have clear := nothingLate.flag late (by simp [next])
      exact ⟨clear.symm, fun _ => rfl⟩
    | setStatus status => exact ⟨rfl, fun _ => rfl⟩
    | setEptr exception => exact ⟨rfl, fun _ => rfl⟩
    | _ => exact absurd isClearing Bool.false_ne_true

/-- A recognition is cancelled just after its last result, and the next one accepted
before the reply to the cancellation. -/
def cancelAndRecognize : List Label :=
  firstRecognition 0 { uri := bytes "builtin:slm/general" } ++ handshake ++ lastResult ++
    cancelAndJoin ++ [.call (.recognize (some 1) (some { uri := bytes "builtin:slm/general" }))] ++
    application 10

/-- Behind a cancelled result the reply has nothing left to clear. -/
theorem late_reply_after_canceled_result :
    ∃ before after, Execution (step fun _ => .object []) (RepliesInTime fun _ => .object [])
        (System.create { connectOnRecognize := true })
        (cancelAndRecognize ++
          [.receive (bytes "ASR 2.4 RECOGNITION_RESULT\r\nResult-Status:CANCELED\r\n\r\n")] ++
          websocket 1 ++ [reply .cancelRecognition "SUCCESS"]) before ∧
      step (fun _ => .object []) before (.ws .ok) = some after ∧
      lateReply before.log = true ∧ Untouched before after := by
  obtain ⟨before, execution, check⟩ := exists_execution_of_run
    (step fun _ => .object []) (RepliesInTime fun _ => .object [])
    (System.create { connectOnRecognize := true })
    (cancelAndRecognize ++
      [.receive (bytes "ASR 2.4 RECOGNITION_RESULT\r\nResult-Status:CANCELED\r\n\r\n")] ++
      websocket 1 ++ [reply .cancelRecognition "SUCCESS"])
    (fun before => before.crashed = none ∧ before.ws = [.clearResult, .clearRecognizing] ∧
      lateReply before.log = true) (by decide +kernel)
  obtain ⟨running, next, late⟩ := of_decide_eq_true check
  have moved : step (fun _ => .object []) before (.ws .ok) =
      some (execWs .ok { before with ws := [.clearRecognizing] } .clearResult) := by
    simp [step, running, next]
  exact ⟨before, _, execution, moved, late,
    late_reply_untouched _ _ _ before _ .ok execution moved late⟩

/-- The reply is late, and clears the flag of the recognition that runs. -/
theorem late_reply_ends_recognition :
    ¬ ∀ (parse : Bytes → Json) (properties : Properties) (labels : List Label)
      (before after : System) (outcome : Outcome),
      Execution (step parse) (fun _ _ => True) (System.create properties) labels before →
        step parse before (.ws outcome) = some after → lateReply before.log = true →
          Untouched before after := by
  intro always
  obtain ⟨before, execution, check⟩ := exists_execution_of_run
    (step fun _ => .object []) (fun _ _ => True) (System.create { connectOnRecognize := true })
    (cancelAndRecognize ++ [reply .cancelRecognition "INVALID_ACTION"] ++ websocket 1)
    (fun before => before.crashed = none ∧ before.ws = [.clearRecognizing] ∧
      lateReply before.log = true ∧ before.impl.recognizing = true) (by decide +kernel)
  obtain ⟨running, next, late, recognizing⟩ := of_decide_eq_true check
  have moved : step (fun _ => .object []) before (.ws .ok) =
      some (execWs .ok { before with ws := [] } .clearRecognizing) := by
    simp [step, running, next]
  have untouched := always _ _ _ before _ .ok execution moved late
  exact absurd (untouched.1.trans recognizing) Bool.false_ne_true

end AsrClient
