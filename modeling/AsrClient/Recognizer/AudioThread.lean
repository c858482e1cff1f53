import AsrClient.Recognizer.Frames

/-!
# The audio sender thread

The websocket thread starts the sender when the server accepts a recognition; the
application thread joins it, in a wait, in a cancellation or when the connection is
closed. Nothing else connects the two. A start assigns the thread object, and assigning
one that still holds a thread ends the process: the starts are safe exactly as long as
each sender has been joined before the next one is started.

A wait joins the sender while it holds the mutex. The sender takes the same mutex for a
log entry, between its test of the terminate flag and its next read. A sender that has
passed the test when the flag is set waits for the mutex, and the join waits for the
sender.
-/

namespace AsrClient

open Transitions SpeechRecognizer

/-- The number of senders started so far. -/
def started (log : List Event) : Nat := log.countP (· matches .senderStarted)

/-- The number of senders joined so far. -/
def joined (log : List Event) : Nat := log.countP (· matches .senderJoined)

/-- The step starts an audio sender. -/
def startsSender (system : System) : Label → Bool
  | .ws _ => system.ws.head? = some .startSender && system.impl.audioSrc.isSome
  | _ => false

/-- A sender is started only when every former one has been joined. -/
def JoinedBefore (system : System) (label : Label) : Prop :=
  startsSender system label = true → started system.log = joined system.log

instance (system : System) (label : Label) : Decidable (JoinedBefore system label) :=
  inferInstanceAs (Decidable (_ → _))

/-- No thread object was overwritten, and at most one sender has not been joined yet. -/
def SingleSender (system : System) : Prop :=
  system.crashed ≠ some .senderOverwritten ∧ started system.log ≤ joined system.log + 1

/-- The thread object holds a thread exactly when one more was started than joined. -/
structure SendersCounted (system : System) : Prop where
  sound : system.crashed ≠ some .senderOverwritten
  count : started system.log =
    joined system.log + system.impl.sendAudioMessageThread.isSome.toNat

/-- An entry that is neither a start nor a join is not counted. -/
theorem count_other (event : Event) (log : List Event) (start : event ≠ .senderStarted)
    (join : event ≠ .senderJoined) :
    started (event :: log) = started log ∧ joined (event :: log) = joined log := by
  cases event <;> simp_all [started, joined]

/-- The application thread keeps the count: only a join that succeeds takes the thread
from the object. A fresh object is built only when the former one holds none. -/
theorem app_counted {outcome : Outcome} {system after : System} {stmt : AppStmt}
    (performed : execApp outcome system stmt = some after) (counted : SendersCounted system) :
    SendersCounted after := by
  obtain ⟨sound, count⟩ := counted
  cases stmt with
  | join =>
    simp only [execApp] at performed
    split_ifs at performed with ended
    cases performed
    refine ⟨sound, ?_⟩
    rw [ended] at count
    simp only [System.record, System.withImpl, started, joined, List.countP_cons] at count ⊢
    simpa using count
  | freshImpl =>
    simp only [execApp] at performed
    split_ifs at performed with held
    · cases performed
      exact ⟨by simp [System.crash], count⟩
    · cases performed
      refine ⟨sound, ?_⟩
      simp only [Bool.or_eq_true, not_or, Bool.not_eq_true] at held
      rw [held.1] at count
      exact count
  | _ =>
    cases outcome <;> simp only [execApp, Option.some.injEq] at performed <;>
      (repeat' split at performed) <;> cases performed <;>
      first
      | exact ⟨sound, count⟩
      | exact ⟨by simp [System.crash], count⟩

/-- The websocket thread keeps the count when it starts a sender only after every former
one has been joined. -/
theorem ws_counted (outcome : Outcome) (system : System) (stmt : WsStmt)
    (counted : SendersCounted system)
    (allowed : stmt = .startSender → system.impl.audioSrc.isSome = true →
      started system.log = joined system.log) :
    SendersCounted (execWs outcome system stmt) := by
  obtain ⟨sound, count⟩ := counted
  cases stmt with
  | startSender =>
    simp only [execWs]
    split_ifs with silent held
    · exact ⟨sound, count⟩
    · rw [allowed rfl (by simpa [Option.isSome_iff_ne_none] using silent), held] at count
      exact absurd count (by simp)
    · refine ⟨sound, ?_⟩
      simp only [Bool.not_eq_true] at held
      rw [held] at count
      simp only [System.record, System.withImpl, started, joined, List.countP_cons] at count ⊢
      simpa using count
  | _ =>
    cases outcome <;> simp only [execWs] <;> (repeat' split) <;>
      first
      | exact ⟨sound, count⟩
      | exact ⟨by simp [System.crash], count⟩

/-- The audio sender itself keeps the count: it moves, but stays in its thread object. -/
theorem SenderFrame.counted {system after : System} (frame : SenderFrame system after)
    (log : started after.log = started system.log ∧ joined after.log = joined system.log)
    (counted : SendersCounted system) : SendersCounted after := by
  constructor
  · cases frame.crashed with
    | inl same =>
      rw [same]
      exact counted.sound
    | inr undefined =>
      simp [undefined]
  · rw [log.1, log.2, frame.held]
    exact counted.count

/-- Every step that starts a sender only after all former ones have been joined keeps the
count. -/
theorem counted_step (parse : Bytes → Json) (before after : System) (label : Label)
    (counted : SendersCounted before) (allowed : JoinedBefore before label)
    (moved : step parse before label = some after) : SendersCounted after := by
  obtain ⟨-, moves⟩ := step_moves parse before after label moved
  cases moves with
  | call call idle => exact ⟨counted.sound, counted.count⟩
  | app outcome stmt rest _ next performed =>
    exact app_counted performed ⟨counted.sound, counted.count⟩
  | gaveUp rest exception asleep free => exact ⟨counted.sound, counted.count⟩
  | expired condition rest asleep free met => exact ⟨counted.sound, counted.count⟩
  | rejected payload cause other free => exact ⟨by simpa [System.crash] using other, counted.count⟩
  | received payload response decoded free => exact ⟨counted.sound, counted.count⟩
  | event label stmts connection free => exact ⟨counted.sound, counted.count⟩
  | ws outcome stmt rest next =>
    refine ws_counted outcome { before with ws := rest } stmt ⟨counted.sound, counted.count⟩ ?_
    rintro rfl audible
    exact allowed (by simp [startsSender, next, audible])
  | read ret chunk _ performed =>
    obtain ⟨frame, log⟩ := read_frame ret chunk before after performed
    exact frame.counted (by rw [log]; exact ⟨rfl, rfl⟩) counted
  | sender outcome _ performed =>
    obtain ⟨frame, log⟩ := sender_frame outcome before after performed
    refine frame.counted ?_ counted
    rcases log with same | ⟨ret, buffer, -, ⟨-, logged⟩ | ⟨-, logged⟩⟩
    · rw [same]
      exact ⟨rfl, rfl⟩
    · rw [logged]
      exact count_other _ _ (by simp) (by simp)
    · rw [logged]
      exact count_other _ _ (by simp) (by simp)

/-- A run in which every sender is joined before the next one is started: no thread
object is overwritten, and there is at most one sender at any time. -/
theorem single_sender_when_joined (parse : Bytes → Json) (properties : Properties)
    (labels : List Label) (system : System)
    (execution : Execution (step parse) JoinedBefore (System.create properties) labels system) :
    SingleSender system := by
  have counted : SendersCounted system :=
    execution.invariant SendersCounted ⟨by simp [System.create], rfl⟩
      (fun before label after => counted_step parse before after label)
  refine ⟨counted.sound, ?_⟩
  have held := Bool.toNat_le system.impl.sendAudioMessageThread.isSome
  have count := counted.count
  omega

/-- The condition is exact: after such a run, a start with a sender left to join ends the
process. -/
theorem unjoined_start_overwrites (parse : Bytes → Json) (properties : Properties)
    (labels : List Label) (before after : System) (label : Label)
    (execution : Execution (step parse) JoinedBefore (System.create properties) labels before)
    (starts : startsSender before label = true) (unjoined : started before.log ≠ joined before.log)
    (moved : step parse before label = some after) : after.crashed = some .senderOverwritten := by
  have counted : SendersCounted before :=
    execution.invariant SendersCounted ⟨by simp [System.create], rfl⟩
      (fun before label after => counted_step parse before after label)
  have held : before.impl.sendAudioMessageThread.isSome = true := by
    by_contra free
    have count := counted.count
    rw [Bool.not_eq_true] at free
    rw [free] at count
    exact unjoined (by simpa using count)
  obtain ⟨-, moves⟩ := step_moves parse before after label moved
  cases moves with
  | ws outcome stmt rest next =>
    simp only [startsSender, next, List.head?_cons, Option.some.injEq, Bool.and_eq_true,
      decide_eq_true_eq] at starts
    obtain ⟨rfl, audible⟩ := starts
    obtain ⟨source, same⟩ := Option.isSome_iff_exists.mp audible
    simp [execWs, same, held, System.crash]
  | event label stmts connection free => cases connection <;> simp [startsSender] at starts
  | _ => simp [startsSender] at starts

/-- The application waits for the result, the sender sees the flag, and the wait joins it
and returns. -/
def waitAndJoin : List Label :=
  [.call .waitRecognitionResult] ++ application 5 ++ [.read 1 [], .sender .ok] ++ application 8

/-- The server sends a final result of the last segment. -/
def lastResult : List Label := [resultMessage (bytes "{}")] ++ websocket 3

/-- Two recognitions with a wait between them are such a run; the second sender runs at
its end. -/
theorem waited_recognitions_single_sender :
    ∃ system, Execution (step fun _ => .object []) JoinedBefore
        (System.create { connectOnRecognize := true })
        (firstRecognition 0 { uri := bytes "builtin:slm/general" } ++ handshake ++ lastResult ++
          waitAndJoin ++
          [.call (.recognize (some 1) (some { uri := bytes "builtin:slm/general" }))] ++
          application 10 ++ handshake) system ∧
      started system.log = 2 ∧ SingleSender system := by
  obtain ⟨system, execution, check⟩ := exists_execution_of_run
    (step fun _ => .object []) (JoinedBefore)
    (System.create { connectOnRecognize := true })
    (firstRecognition 0 { uri := bytes "builtin:slm/general" } ++ handshake ++ lastResult ++
      waitAndJoin ++
      [.call (.recognize (some 1) (some { uri := bytes "builtin:slm/general" }))] ++
      application 10 ++ handshake)
    (fun system => started system.log = 2) (by decide +kernel)
  exact ⟨system, execution, by simpa using check,
    single_sender_when_joined _ _ _ system execution⟩

/-- An application that takes its results through listeners and recognizes again without
a wait loses the process when the server accepts the second recognition. -/
theorem listener_only_application_overwrites :
    ¬ ∀ (parse : Bytes → Json) (properties : Properties) (labels : List Label) (system : System),
      Execution (step parse) (fun _ _ => True) (System.create properties) labels system →
        SingleSender system := by
  intro always
  obtain ⟨system, execution, check⟩ := exists_execution_of_run
    (step fun _ => .object []) (fun _ _ => True)
    (System.create { connectOnRecognize := true, listener := [0] })
    (firstRecognition 0 { uri := bytes "builtin:slm/general" } ++ handshake ++
      [resultMessage (bytes "{}")] ++ websocket 4 ++
      [.call (.recognize (some 1) (some { uri := bytes "builtin:slm/general" }))] ++
      application 10 ++ handshake)
    (fun system => system.crashed = some .senderOverwritten) (by decide +kernel)
  exact (always _ _ _ system execution).1 (by simpa using check)

/-- The sender has passed its test of the flag and waits for the mutex. -/
def atLock (system : System) : Bool :=
  match system.impl.sendAudioMessageThread with
  | some (.wantLock _ _) => true
  | _ => false

/-- The application thread holds the mutex and waits for the sender, which waits for the
mutex. -/
def Deadlocked (system : System) : Prop :=
  system.impl.lock = some .application ∧ system.app.head? = some .join ∧ atLock system = true

instance (system : System) : Decidable (Deadlocked system) :=
  inferInstanceAs (Decidable (_ ∧ _))

/-- The step sets the terminate flag under the mutex, as a wait does. -/
def terminatesLocked (system : System) : Label → Bool
  | .app _ => system.app.head? = some .setTerminate && system.impl.lock = some .application
  | _ => false

/-- The flag is set under the mutex only while the sender is not between its test of the
flag and the mutex. -/
def SetOutsideWindow (system : System) (label : Label) : Prop :=
  terminatesLocked system label = true → atLock system = false

instance (system : System) (label : Label) : Decidable (SetOutsideWindow system label) :=
  inferInstanceAs (Decidable (_ → _))

/-- A join is the next statement, or comes right behind the setting of the flag. -/
def JoinReady : List AppStmt → Prop
  | [] => True
  | .setTerminate :: rest => .join ∉ rest ∨ ∃ tail, rest = .join :: tail ∧ .join ∉ tail
  | _ :: rest => .join ∉ rest

/-- Before a join the flag is set, and the sender does not wait for a mutex that the
application thread holds. -/
structure JoinSafe (system : System) : Prop where
  ready : JoinReady system.app
  raised : system.app.head? = some .join →
    system.impl.sendAudioMessageTerminate = true ∧
      (system.impl.lock = some .application → atLock system = false)

/-- Without a join there is nothing to get ready. -/
theorem JoinReady.of_absent {stmts : List AppStmt} (absent : .join ∉ stmts) : JoinReady stmts := by
  cases stmts with
  | nil => trivial
  | cons stmt rest =>
    have tail : .join ∉ rest := fun member => absent (List.mem_cons_of_mem _ member)
    cases stmt <;> first | exact tail | exact Or.inl tail

/-- Behind any statement but the setting of the flag there is no join. -/
theorem JoinReady.tail {stmt : AppStmt} {rest : List AppStmt} (ready : JoinReady (stmt :: rest))
    (other : stmt ≠ .setTerminate) : .join ∉ rest := by
  cases stmt <;> first | exact ready | exact absurd rfl other

/-- Only the test of the thread object leads to a join. -/
theorem expands_join {stmt : AppStmt} {new : List AppStmt} (expands : stmt.Expands new)
    (other : stmt ≠ .testJoinable) : .join ∉ new := by
  have none : ∀ pushed ∈ new, pushed ≠ .join := by
    refine expands_all expands (by simp) (by simp) ?_
    cases stmt with
    | testJoinable => exact absurd rfl other
    | await | sleep => simp [AppStmt.pushes]
    | _ => first | exact List.forall_mem_nil _ | decide
  exact fun member => none _ member rfl

/-- A statement of the application thread keeps the joins ready. -/
theorem app_ready {outcome : Outcome} {system after : System} {stmt : AppStmt}
    (performed : execApp outcome system stmt = some after) (ready : JoinReady (stmt :: system.app)) :
    JoinReady after.app ∧ (after.app.head? = some .join → stmt = .setTerminate) := by
  rcases app_list performed with empty | ⟨new, list, expands⟩
  · rw [empty]
    exact ⟨trivial, by simp⟩
  rw [list]
  by_cases sets : stmt = .setTerminate
  · subst sets
    obtain rfl : new = [] := expands
    rcases ready with absent | ⟨tail, shape, absent⟩
    · exact ⟨.of_absent absent, fun _ => rfl⟩
    · rw [List.nil_append, shape]
      exact ⟨absent, fun _ => rfl⟩
  · have absent : .join ∉ system.app := ready.tail sets
    by_cases tests : stmt = .testJoinable
    · subst tests
      rcases expands with rfl | rfl
      · constructor
        · exact .of_absent absent
        · intro joins
          exact absurd (List.mem_of_mem_head? joins) absent
      · exact ⟨Or.inr ⟨_, rfl, absent⟩, by simp⟩
    · have none : .join ∉ new ++ system.app := by
        rw [List.mem_append, not_or]
        exact ⟨expands_join expands tests, absent⟩
      exact ⟨.of_absent none, fun joins => absurd (List.mem_of_mem_head? joins) none⟩

/-- The websocket thread touches neither the flag nor the mutex, and starts a sender far
from the mutex. -/
theorem ws_window (outcome : Outcome) (system : System) (stmt : WsStmt) :
    (execWs outcome system stmt).impl.sendAudioMessageTerminate =
        system.impl.sendAudioMessageTerminate ∧
      (execWs outcome system stmt).impl.lock = system.impl.lock ∧
      (atLock (execWs outcome system stmt) = true → atLock system = true) := by
  cases stmt <;> simp only [execWs] <;> (repeat' split) <;>
    first
    | exact ⟨rfl, rfl, id⟩
    | exact ⟨rfl, rfl, fun waiting => absurd waiting Bool.false_ne_true⟩

/-- Once the flag is set, the sender does not come to wait for a mutex that the
application thread holds. -/
theorem sender_window (outcome : Outcome) (system after : System)
    (raised : system.impl.sendAudioMessageTerminate = true)
    (performed : execSender outcome system = some after)
    (locked : after.impl.lock = some .application) :
    system.impl.lock = some .application ∧ atLock after = false := by
  rw [execSender] at performed
  split at performed
  · rw [if_pos raised] at performed
    cases performed
    exact ⟨locked, rfl⟩
  · split_ifs at performed
    cases performed
    exact absurd locked (by simp [System.senderAt, System.withImpl])
  · cases performed
    exact absurd locked (by simp [System.senderAt, System.withImpl])
  · cases performed
    refine ⟨locked, ?_⟩
    simp only [System.senderAt, System.withImpl, atLock]
    split_ifs <;> rfl
  · exact absurd performed (by simp)
  · exact absurd performed (by simp)
  · exact absurd performed (by simp)

/-- A read ends before the test of the flag. -/
theorem read_window (ret : Int) (chunk : Bytes) (system after : System)
    (performed : execRead ret chunk system = some after) :
    after.impl.sendAudioMessageTerminate = system.impl.sendAudioMessageTerminate ∧
      after.impl.lock = system.impl.lock ∧ atLock after = false := by
  rw [execRead] at performed
  split_ifs at performed with reading
  · cases performed
    exact ⟨rfl, rfl, by simp [atLock, System.crash, reading]⟩
  · cases performed
    exact ⟨rfl, rfl, rfl⟩

/-- No call of the public interface begins with a join or contains one itself. -/
theorem program_no_join (call : Call) : .join ∉ program call := by
  cases call <;> simp [program, recognize, waitRecognitionResult, cancelRecognition, close]

/-- Every step that sets the flag outside the window keeps the joins safe. Between the
setting of the flag and the join only the other two threads move. -/
theorem join_safe_step (parse : Bytes → Json) (before after : System) (label : Label)
    (safe : JoinSafe before) (allowed : SetOutsideWindow before label)
    (moved : step parse before label = some after) : JoinSafe after := by
  obtain ⟨-, moves⟩ := step_moves parse before after label moved
  have absent {stmts : List AppStmt} (none : .join ∉ stmts) {goal : Prop} :
      stmts.head? = some .join → goal :=
    fun joins => absurd (List.mem_of_mem_head? joins) none
  cases moves with
  | call call idle => exact ⟨.of_absent (program_no_join call), absent (program_no_join call)⟩
  | app outcome stmt rest _ next performed =>
    have former : JoinReady (stmt :: rest) := next ▸ safe.ready
    obtain ⟨ready, sets⟩ := app_ready performed former
    constructor
    · exact ready
    · intro joins
      obtain rfl := sets joins
      cases performed
      constructor
      · rfl
      · intro locked
        have held : before.impl.lock = some .application := locked
        exact allowed (by simp [terminatesLocked, next, held])
  | gaveUp rest exception asleep free => exact ⟨trivial, by simp [System.raise]⟩
  | expired condition rest asleep free met =>
    have none : .join ∉ rest := JoinReady.tail (asleep ▸ safe.ready) (by simp)
    exact ⟨.of_absent none, absent none⟩
  | rejected payload cause other free => exact ⟨safe.ready, safe.raised⟩
  | received payload response decoded free => exact ⟨safe.ready, safe.raised⟩
  | event label stmts connection free => exact ⟨safe.ready, safe.raised⟩
  | ws outcome stmt rest next =>
    obtain ⟨terminate, lock, waiting⟩ := ws_window outcome { before with ws := rest } stmt
    have list : (execWs outcome { before with ws := rest } stmt).app = before.app := ws_app ..
    constructor
    · rw [list]
      exact safe.ready
    · intro joins
      rw [list] at joins
      obtain ⟨raised, outside⟩ := safe.raised joins
      constructor
      · exact terminate.trans raised
      · intro locked
        have former := outside (lock.symm.trans locked)
        by_contra window
        rw [Bool.not_eq_false] at window
        exact absurd ((waiting window).symm.trans former) (by decide)
  | read ret chunk _ performed =>
    obtain ⟨frame, -⟩ := read_frame ret chunk before after performed
    obtain ⟨terminate, -, outside⟩ := read_window ret chunk before after performed
    constructor
    · exact frame.app ▸ safe.ready
    · intro joins
      exact ⟨terminate.trans (safe.raised (frame.app ▸ joins)).1, fun _ => outside⟩
  | sender outcome _ performed =>
    obtain ⟨frame, -⟩ := sender_frame outcome before after performed
    constructor
    · exact frame.app ▸ safe.ready
    · intro joins
      obtain ⟨raised, -⟩ := safe.raised (frame.app ▸ joins)
      constructor
      · exact (frame.keeps (·.sendAudioMessageTerminate)).trans raised
      · intro locked
        exact (sender_window outcome before after raised performed locked).2

/-- A run in which no wait sets the flag while the sender is between its test of the flag
and the mutex: it is never stuck with the application thread in a join under the mutex
and the sender waiting for the mutex. -/
theorem not_deadlocked_outside_window (parse : Bytes → Json) (properties : Properties)
    (labels : List Label) (system : System)
    (execution : Execution (step parse) SetOutsideWindow (System.create properties) labels
      system) : ¬ Deadlocked system := by
  have constructor : .join ∉ (System.create properties).app := by
    simp [System.create, resetImpl]
  have safe : JoinSafe system :=
    execution.invariant JoinSafe
      ⟨.of_absent constructor, fun joins => absurd (List.mem_of_mem_head? joins) constructor⟩
      (fun before label after => join_safe_step parse before after label)
  rintro ⟨locked, joins, waiting⟩
  exact absurd (waiting.symm.trans ((safe.raised joins).2 locked)) (by decide)

/-- The condition is exact: a wait that sets the flag inside the window, and has a sender to
join, is stuck with its next statement. -/
theorem deadlocked_inside_window (parse : Bytes → Json) (before after : System) (label : Label)
    (rest : List AppStmt) (joins : before.app = .setTerminate :: .join :: rest)
    (sets : terminatesLocked before label = true) (window : atLock before = true)
    (moved : step parse before label = some after) : Deadlocked after := by
  obtain ⟨-, moves⟩ := step_moves parse before after label moved
  cases moves with
  | app outcome stmt others _ next performed =>
    obtain ⟨rfl, rfl⟩ := List.cons.inj (joins.symm.trans next)
    cases performed
    simp only [terminatesLocked, Bool.and_eq_true, decide_eq_true_eq] at sets
    exact ⟨sets.2, rfl, window⟩
  | event label stmts connection free => cases connection <;> simp [terminatesLocked] at sets
  | _ => simp [terminatesLocked] at sets

/-- A wait that joins a sender outside the window is such a run. -/
theorem wait_joins_outside_window :
    ∃ system, Execution (step fun _ => .object []) SetOutsideWindow
        (System.create { connectOnRecognize := true })
        (firstRecognition 0 { uri := bytes "builtin:slm/general" } ++ handshake ++ lastResult ++
          waitAndJoin) system ∧
      joined system.log = 1 ∧ ¬ Deadlocked system := by
  obtain ⟨system, execution, check⟩ := exists_execution_of_run
    (step fun _ => .object []) (SetOutsideWindow)
    (System.create { connectOnRecognize := true })
    (firstRecognition 0 { uri := bytes "builtin:slm/general" } ++ handshake ++ lastResult ++
      waitAndJoin)
    (fun system => joined system.log = 1) (by decide +kernel)
  exact ⟨system, execution, by simpa using check,
    not_deadlocked_outside_window _ _ _ system execution⟩

/-- A wait that finds the result just when the sender has passed its test is stuck: the
sender waits for the mutex of the wait, and the wait for the end of the sender. -/
theorem wait_deadlocks_inside_window :
    ¬ ∀ (parse : Bytes → Json) (properties : Properties) (labels : List Label) (system : System),
      Execution (step parse) (fun _ _ => True) (System.create properties) labels system →
        ¬ Deadlocked system := by
  intro always
  obtain ⟨system, execution, check⟩ := exists_execution_of_run
    (step fun _ => .object []) (fun _ _ => True)
    (System.create { connectOnRecognize := true })
    (firstRecognition 0 { uri := bytes "builtin:slm/general" } ++ handshake ++
      [.read 1 [0, 1]] ++ lastResult ++ [.call .waitRecognitionResult] ++ application 4 ++
      [.sender .ok] ++ application 1)
    (fun system => Deadlocked system) (by decide +kernel)
  exact always _ _ _ system execution (of_decide_eq_true check)

end AsrClient
