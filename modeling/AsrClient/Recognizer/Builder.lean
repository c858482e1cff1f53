import Mathlib.Data.List.Induction
import AsrClient.Library.Interference
import AsrClient.Recognizer.Execution

/-!
# The builder of a recognizer

The builder collects the properties of a recognizer behind a pointer, and `build` moves the
pointer into the recognizer. So a builder builds one recognizer, from the properties that were
accepted last and all listeners that were added. Behind it the only calls that have a defined
behavior are those that refuse an address before they use the pointer.
-/

namespace AsrClient

open Interference

namespace SpeechRecognizer.Builder

/-- How a call fails: with an exception of the standard library, or by the use of a pointer that
has been moved. -/
inductive BuilderError where
  | logicError (what : Bytes)
  | invalidArgument (what : Bytes)
  | undefined
deriving DecidableEq

/-- A call of the builder. The last six store what is not part of the properties here. -/
inductive Call where
  | serverUrl (url : Bytes)
  | recogConfig (config : Option RecognitionConfig)
  | addListener (listener : Listener)
  | connectOnRecognize (value : Bool)
  | autoClose (value : Bool)
  | credentials
  | userAgent
  | audioSampleRate
  | audioEncoding
  | maxWaitSeconds
  | logPath
deriving DecidableEq

/-- `serverUrl` refuses these addresses. -/
def refuses (url : Bytes) : Option BuilderError :=
  if url = [] then some (.logicError (bytes "Empty url"))
  else if !((bytes "ws://").isPrefixOf url || (bytes "wss://").isPrefixOf url) then
    some (.invalidArgument (bytes "invalid url"))
  else none

/-- What a call stores. -/
def store (properties : Properties) : Call → Properties
  | .serverUrl url => { properties with url }
  | .recogConfig config => { properties with recogConfig := config }
  | .addListener listener => { properties with listener := properties.listener ++ [listener] }
  | .connectOnRecognize value => { properties with connectOnRecognize := value }
  | .autoClose value => { properties with autoClose := value }
  | _ => properties

/-- Perform a call. An address is checked before the pointer is used. -/
def perform (properties : Option Properties) (call : Call) :
    Except BuilderError (Option Properties) :=
  let use : Except BuilderError (Option Properties) :=
    match properties with
    | none => .error .undefined
    | some properties => .ok (some (store properties call))
  match call with
  | .serverUrl url =>
      match refuses url with
      | some error => .error error
      | none => use
  | _ => use

/-- `build`: the pointer is moved into the recognizer, whose constructor uses it. -/
def build (properties : Option Properties) : Except BuilderError (Option Properties × System) :=
  match properties with
  | none => .error .undefined
  | some properties => .ok (none, System.create properties)

/-- What the application does with a builder. -/
inductive Action where
  | set (call : Call)
  | build
deriving DecidableEq

/-- A builder in use: its pointer, and the recognizers that were built. -/
structure Use where
  properties : Option Properties := some {}
  built : List System := []

/-- One action of an application that catches exceptions. Nothing is known behind an undefined
behavior. -/
def act (state : Use) : Action → Option Use
  | .set call =>
      match perform state.properties call with
      | .ok properties => some { state with properties }
      | .error .undefined => none
      | .error _ => some state
  | .build =>
      match build state.properties with
      | .ok (properties, system) => some { properties, built := state.built ++ [system] }
      | .error _ => none

/-- A call that is refused for its address. -/
def Call.isRefused : Call → Bool
  | .serverUrl url => (refuses url).isSome
  | _ => false

/-- An action with a defined behavior behind `build`. -/
def Action.isRefused : Action → Bool
  | .set call => call.isRefused
  | .build => false

/-- The properties behind calls on a new builder, each of them by its last call that was not
refused. -/
def collected (calls : List Call) : Properties where
  url := (calls.filterMap fun
    | .serverUrl url => if (refuses url).isNone then some url else none
    | _ => none).getLast?.getD []
  recogConfig := (calls.filterMap fun
    | .recogConfig config => some config
    | _ => none).getLast?.getD none
  listener := calls.filterMap fun
    | .addListener listener => some listener
    | _ => none
  connectOnRecognize := (calls.filterMap fun
    | .connectOnRecognize value => some value
    | _ => none).getLast?.getD false
  autoClose := (calls.filterMap fun
    | .autoClose value => some value
    | _ => none).getLast?.getD false

/-- A call that is refused leaves everything as it is. -/
theorem act_refused (state : Use) (call : Call) (refused : call.isRefused = true) :
    act state (.set call) = some state := by
  cases call with
  | serverUrl url =>
    obtain ⟨error, isError⟩ := Option.isSome_iff_exists.mp refused
    have defined : error ≠ .undefined := by
      rw [refuses] at isError
      split_ifs at isError <;> cases isError <;> exact nofun
    cases error with
    | undefined => exact absurd rfl defined
    | logicError _ | invalidArgument _ => simp only [act, perform, isError]
  | _ => cases refused

/-- Another call uses the pointer. -/
theorem act_accepted (state : Use) (call : Call) (accepted : call.isRefused = false) :
    act state (.set call) =
      state.properties.map fun properties =>
        { state with properties := some (store properties call) } := by
  cases call with
  | serverUrl url =>
    have valid : refuses url = none :=
      Option.isNone_iff_eq_none.mp (Option.isSome_eq_false_iff.mp accepted)
    simp only [act, perform, valid]
    cases state.properties <;> rfl
  | _ => cases properties : state.properties <;> simp only [act, perform, properties, Option.map]

/-- One more call is stored, unless it is refused. -/
theorem collected_concat (calls : List Call) (call : Call) :
    collected (calls ++ [call]) =
      if call.isRefused then collected calls else store (collected calls) call := by
  cases call with
  | serverUrl url =>
    cases refused : refuses url <;>
      simp [collected, store, Call.isRefused, refused]
  | _ => simp [collected, store, Call.isRefused]

/-- A new builder collects the properties. -/
theorem calls_collected (calls : List Call) :
    (calls.map Action.set).foldlM act {} = some { properties := some (collected calls) } := by
  induction calls using List.reverseRecOn with
  | nil => rfl
  | append_singleton calls call inductionHypothesis =>
    rw [List.map_append, List.foldlM_append, inductionHypothesis, collected_concat]
    show act _ (.set call) >>= pure = _
    cases refused : call.isRefused with
    | true =>
      rw [act_refused _ call refused]
      rfl
    | false =>
      rw [act_accepted _ call refused]
      rfl

/-- Behind `build`, the actions without an undefined behavior are calls that are refused. -/
theorem behind_build (actions : List Action) (built : List System) :
    actions.foldlM act { properties := none, built } =
      if actions.all Action.isRefused then some { properties := none, built } else none := by
  induction actions with
  | nil => rfl
  | cons action actions inductionHypothesis =>
    rw [List.foldlM_cons, List.all_cons]
    cases action with
    | build => rfl
    | set call =>
      cases refused : call.isRefused with
      | true =>
        rw [act_refused _ call refused]
        simpa [Action.isRefused, refused] using inductionHypothesis
      | false =>
        rw [act_accepted _ call refused]
        simp [Action.isRefused, refused]

/-- A builder builds one recognizer, whatever is called on it: from the properties that were
accepted last and from all listeners in their order, with an address that is empty or one of a
websocket. Behind it every further action is undefined but the refusal of an address. -/
theorem builds_once (calls : List Call) :
    (calls.map Action.set).foldlM act {} = some { properties := some (collected calls) } ∧
      (∀ behind, (calls.map Action.set ++ Action.build :: behind).foldlM act {} =
        if behind.all Action.isRefused then
          some { properties := none, built := [System.create (collected calls)] }
        else none) ∧
      ((collected calls).url = [] ∨ bytes "ws://" <+: (collected calls).url ∨
        bytes "wss://" <+: (collected calls).url) := by
  refine ⟨calls_collected calls, fun behind => ?_, ?_⟩
  · rw [List.foldlM_append, calls_collected]
    exact behind_build behind [System.create (collected calls)]
  · simp only [collected]
    cases last : (calls.filterMap fun
        | .serverUrl url => if (refuses url).isNone then some url else none
        | _ => none).getLast? with
    | none => exact Or.inl rfl
    | some url =>
      obtain ⟨call, -, accepted⟩ := List.mem_filterMap.mp (List.mem_of_getLast? last)
      split at accepted
      · split_ifs at accepted with valid
        cases accepted
        rw [refuses] at valid
        split_ifs at valid with empty scheme
        · cases valid
        · cases valid
        · rw [Bool.not_eq_true, Bool.not_eq_false', Bool.or_eq_true, List.isPrefixOf_iff_prefix,
            List.isPrefixOf_iff_prefix] at scheme
          exact Or.inr scheme
      · cases accepted

end SpeechRecognizer.Builder

end AsrClient
