import AsrClient.Environment
import AsrClient.Library.Interference

/-!
# The builders

An application makes a configuration by calls of setters, in any order and any number, and may
let the environment override it afterwards. Each parameter has in the end what was written to it
last. A read of the environment writes to a parameter when its variable is defined, or when what
is undefined is to be replaced.

A list of language models takes one of them. A second one is refused with an exception, and the
builder can be used as before.
-/

namespace AsrClient

open Interference

namespace RecognitionConfig

namespace Builder

section Setters

variable (properties : RecognitionConfig)

/-- `confidenceThreshold`. -/
def confidenceThreshold (value : UInt32) : RecognitionConfig :=
  { properties with confidenceThreshold := value }

/-- `maxSentences`. -/
def maxSentences (value : UInt32) : RecognitionConfig :=
  { properties with maxSentences := value }

/-- `noInputTimeoutMilliseconds`. -/
def noInputTimeoutMilliseconds (value : UInt32) : RecognitionConfig :=
  { properties with noInputTimeoutMilliseconds := value }

/-- `recognitionTimeoutSeconds`. -/
def recognitionTimeoutSeconds (value : UInt32) : RecognitionConfig :=
  { properties with recognitionTimeoutSeconds := value }

/-- `noInputTimeoutEnabled`. -/
def noInputTimeoutEnabled (value : Bool) : RecognitionConfig :=
  { properties with noInputTimeoutEnabled := value }

/-- `recognitionTimeoutEnabled`. -/
def recognitionTimeoutEnabled (value : Bool) : RecognitionConfig :=
  { properties with recognitionTimeoutEnabled := value }

/-- `inferAgeEnabled`. -/
def inferAgeEnabled (value : Bool) : RecognitionConfig :=
  { properties with inferAgeEnabled := value }

/-- `inferEmotionEnabled`. -/
def inferEmotionEnabled (value : Bool) : RecognitionConfig :=
  { properties with inferEmotionEnabled := value }

/-- `inferGenderEnabled`. -/
def inferGenderEnabled (value : Bool) : RecognitionConfig :=
  { properties with inferGenderEnabled := value }

/-- `headMarginMilliseconds`. -/
def headMarginMilliseconds (value : UInt32) : RecognitionConfig :=
  { properties with headMarginMilliseconds := value }

/-- `tailMarginMilliseconds`. -/
def tailMarginMilliseconds (value : UInt32) : RecognitionConfig :=
  { properties with tailMarginMilliseconds := value }

/-- `waitEndMilliseconds`. -/
def waitEndMilliseconds (value : UInt32) : RecognitionConfig :=
  { properties with waitEndMilliseconds := value }

/-- `continuousMode`. -/
def continuousMode (value : Bool) : RecognitionConfig :=
  { properties with continuousMode := value }

/-- `maxSegmentDuration`. -/
def maxSegmentDuration (value : UInt32) : RecognitionConfig :=
  { properties with maxSegmentDuration := value }

/-- `startInputTimers`. -/
def startInputTimers (value : Bool) : RecognitionConfig :=
  { properties with startInputTimers := value }

/-- `endpointerAutoLevelLen`. -/
def endpointerAutoLevelLen (value : UInt32) : RecognitionConfig :=
  { properties with endpointerAutoLevelLen := value }

/-- `endpointerLevelMode`. -/
def endpointerLevelMode (value : UInt32) : RecognitionConfig :=
  { properties with endpointerLevelMode := value }

/-- `endpointerLevelThreshold`. -/
def endpointerLevelThreshold (value : UInt32) : RecognitionConfig :=
  { properties with endpointerLevelThreshold := value }

/-- `verifyBufferUtterance`. -/
def verifyBufferUtterance (value : Bool) : RecognitionConfig :=
  { properties with verifyBufferUtterance := value }

/-- `accountTag`. -/
def accountTag (value : Bytes) : RecognitionConfig :=
  { properties with accountTag := value }

/-- `channelIdentifier`. -/
def channelIdentifier (value : Bytes) : RecognitionConfig :=
  { properties with channelIdentifier := value }

/-- `mediaType`. -/
def mediaType (value : Bytes) : RecognitionConfig :=
  { properties with mediaType := value }

end Setters

/-- A call of a setter. -/
inductive Call where
  | confidenceThreshold (value : UInt32)
  | maxSentences (value : UInt32)
  | noInputTimeoutMilliseconds (value : UInt32)
  | recognitionTimeoutSeconds (value : UInt32)
  | noInputTimeoutEnabled (value : Bool)
  | recognitionTimeoutEnabled (value : Bool)
  | inferAgeEnabled (value : Bool)
  | inferEmotionEnabled (value : Bool)
  | inferGenderEnabled (value : Bool)
  | headMarginMilliseconds (value : UInt32)
  | tailMarginMilliseconds (value : UInt32)
  | waitEndMilliseconds (value : UInt32)
  | continuousMode (value : Bool)
  | maxSegmentDuration (value : UInt32)
  | startInputTimers (value : Bool)
  | endpointerAutoLevelLen (value : UInt32)
  | endpointerLevelMode (value : UInt32)
  | endpointerLevelThreshold (value : UInt32)
  | verifyBufferUtterance (value : Bool)
  | accountTag (value : Bytes)
  | channelIdentifier (value : Bytes)
  | mediaType (value : Bytes)
deriving DecidableEq

/-- Perform a call. -/
def perform (properties : RecognitionConfig) : Call → RecognitionConfig
  | .confidenceThreshold value => confidenceThreshold properties value
  | .maxSentences value => maxSentences properties value
  | .noInputTimeoutMilliseconds value => noInputTimeoutMilliseconds properties value
  | .recognitionTimeoutSeconds value => recognitionTimeoutSeconds properties value
  | .noInputTimeoutEnabled value => noInputTimeoutEnabled properties value
  | .recognitionTimeoutEnabled value => recognitionTimeoutEnabled properties value
  | .inferAgeEnabled value => inferAgeEnabled properties value
  | .inferEmotionEnabled value => inferEmotionEnabled properties value
  | .inferGenderEnabled value => inferGenderEnabled properties value
  | .headMarginMilliseconds value => headMarginMilliseconds properties value
  | .tailMarginMilliseconds value => tailMarginMilliseconds properties value
  | .waitEndMilliseconds value => waitEndMilliseconds properties value
  | .continuousMode value => continuousMode properties value
  | .maxSegmentDuration value => maxSegmentDuration properties value
  | .startInputTimers value => startInputTimers properties value
  | .endpointerAutoLevelLen value => endpointerAutoLevelLen properties value
  | .endpointerLevelMode value => endpointerLevelMode properties value
  | .endpointerLevelThreshold value => endpointerLevelThreshold properties value
  | .verifyBufferUtterance value => verifyBufferUtterance properties value
  | .accountTag value => accountTag properties value
  | .channelIdentifier value => channelIdentifier properties value
  | .mediaType value => mediaType properties value

/-- The parameter that a call is for, and its value. -/
def Call.writes : Call → Parameter × Value
  | .confidenceThreshold value => (.confidenceThreshold, .integer value)
  | .maxSentences value => (.maxSentences, .integer value)
  | .noInputTimeoutMilliseconds value => (.noInputTimeoutMilliseconds, .integer value)
  | .recognitionTimeoutSeconds value => (.recognitionTimeoutSeconds, .integer value)
  | .noInputTimeoutEnabled value => (.noInputTimeoutEnabled, .bool value)
  | .recognitionTimeoutEnabled value => (.recognitionTimeoutEnabled, .bool value)
  | .inferAgeEnabled value => (.inferAgeEnabled, .bool value)
  | .inferEmotionEnabled value => (.inferEmotionEnabled, .bool value)
  | .inferGenderEnabled value => (.inferGenderEnabled, .bool value)
  | .headMarginMilliseconds value => (.headMarginMilliseconds, .integer value)
  | .tailMarginMilliseconds value => (.tailMarginMilliseconds, .integer value)
  | .waitEndMilliseconds value => (.waitEndMilliseconds, .integer value)
  | .continuousMode value => (.continuousMode, .bool value)
  | .maxSegmentDuration value => (.maxSegmentDuration, .integer value)
  | .startInputTimers value => (.startInputTimers, .bool value)
  | .endpointerAutoLevelLen value => (.endpointerAutoLevelLen, .integer value)
  | .endpointerLevelMode value => (.endpointerLevelMode, .integer value)
  | .endpointerLevelThreshold value => (.endpointerLevelThreshold, .integer value)
  | .verifyBufferUtterance value => (.verifyBufferUtterance, .bool value)
  | .accountTag value => (.accountTag, .string value)
  | .channelIdentifier value => (.channelIdentifier, .string value)
  | .mediaType value => (.mediaType, .string value)

/-- What a call writes to a parameter. -/
def Call.writesTo (row : Parameter) (call : Call) : Option Value :=
  if call.writes.1 = row then some call.writes.2 else none

/-- `build`: the configuration has the properties of the builder. -/
def build (calls : List Call) : RecognitionConfig := calls.foldl perform {}

/-- A call writes to its parameter, and leaves the others. -/
theorem perform_field (properties : RecognitionConfig) (call : Call) (row : Parameter) :
    (perform properties call).field row = (call.writesTo row).getD (properties.field row) := by
  cases call <;> cases row <;> rfl

end Builder

/-- A read of the environment, with the flag that it is called with. -/
structure EnvironmentRead where
  env : Environment
  replaceEmpty : Bool

/-- What a read of the environment writes to a parameter. -/
def EnvironmentRead.writesTo (row : Parameter) (read : EnvironmentRead) : Option Value :=
  if (read.env (bytes row.reads)).isSome ∨ read.replaceEmpty = true then
    some ((field {} row).fromEnv read.env row.reads true)
  else none

/-- A configuration that is built by calls, and overridden from the environment. -/
def configure (calls : List Builder.Call) (reads : List EnvironmentRead) : RecognitionConfig :=
  reads.foldl (fun config read => getConfigFromEvironment read.env read.replaceEmpty config)
    (Builder.build calls)

/-- All that is written to a parameter, in order. -/
def written (calls : List Builder.Call) (reads : List EnvironmentRead) (row : Parameter) :
    List Value :=
  calls.filterMap (Builder.Call.writesTo row) ++ reads.filterMap (EnvironmentRead.writesTo row)

/-- Values of one type. -/
inductive SameType : Value → Value → Prop where
  | integer (number number' : UInt32) : SameType (.integer number) (.integer number')
  | bool (enabled enabled' : Bool) : SameType (.bool enabled) (.bool enabled')
  | string (text text' : Bytes) : SameType (.string text) (.string text')

/-- A parameter has values of one type. -/
theorem field_type (config config' : RecognitionConfig) (row : Parameter) :
    SameType (config.field row) (config'.field row) := by
  cases row <;> constructor

/-- A reader keeps a value only when its variable is undefined and the flag is not set. What it
writes otherwise does not depend on the value. -/
theorem SameType.from_env {value other : Value} (same : SameType value other) (env : Environment)
    (parName : String) (replaceEmpty : Bool) :
    value.fromEnv env parName replaceEmpty =
      if (env (bytes parName)).isSome ∨ replaceEmpty = true then other.fromEnv env parName true
      else value := by
  cases same <;>
    cases replaceEmpty <;>
      cases defined : env (bytes parName) <;>
        simp [Value.fromEnv, setInteger, setBool, setString, defined]

/-- A read of the environment writes to a parameter, or leaves it. -/
theorem read_field (config : RecognitionConfig) (read : EnvironmentRead) (row : Parameter) :
    (getConfigFromEvironment read.env read.replaceEmpty config).field row =
      (read.writesTo row).getD (config.field row) := by
  rw [get_config_field, (field_type config {} row).from_env, EnvironmentRead.writesTo]
  split_ifs <;> rfl

/-- Every parameter of a configuration that is changed step by step has what was written last. -/
theorem foldl_field {Step : Type} (change : RecognitionConfig → Step → RecognitionConfig)
    (writes : Parameter → Step → Option Value)
    (changes : ∀ config step row,
      (change config step).field row = (writes row step).getD (config.field row))
    (steps : List Step) (config : RecognitionConfig) (row : Parameter) :
    (steps.foldl change config).field row =
      (steps.filterMap (writes row)).getLast?.getD (config.field row) := by
  rw [← foldl_latest]
  induction steps generalizing config with
  | nil => rfl
  | cons step steps inductionHypothesis =>
    rw [List.foldl_cons, List.foldl_cons, inductionHypothesis, changes]

/-- A configuration is known by its parameters. -/
theorem field_injective {config config' : RecognitionConfig}
    (same : ∀ row, config.field row = config'.field row) : config = config' := by
  cases config
  cases config'
  simp only [RecognitionConfig.mk.injEq]
  exact ⟨Value.integer.inj (same .confidenceThreshold), Value.integer.inj (same .maxSentences),
    Value.integer.inj (same .noInputTimeoutMilliseconds),
    Value.integer.inj (same .recognitionTimeoutSeconds),
    Value.bool.inj (same .noInputTimeoutEnabled), Value.bool.inj (same .recognitionTimeoutEnabled),
    Value.bool.inj (same .inferAgeEnabled), Value.bool.inj (same .inferGenderEnabled),
    Value.bool.inj (same .inferEmotionEnabled), Value.integer.inj (same .headMarginMilliseconds),
    Value.integer.inj (same .tailMarginMilliseconds),
    Value.integer.inj (same .waitEndMilliseconds), Value.bool.inj (same .continuousMode),
    Value.integer.inj (same .maxSegmentDuration), Value.bool.inj (same .startInputTimers),
    Value.integer.inj (same .endpointerAutoLevelLen),
    Value.integer.inj (same .endpointerLevelMode),
    Value.integer.inj (same .endpointerLevelThreshold),
    Value.bool.inj (same .verifyBufferUtterance), Value.string.inj (same .accountTag),
    Value.string.inj (same .channelIdentifier), Value.string.inj (same .mediaType)⟩

/-- Whatever setters are called in whatever order, and however often the environment is read
behind them: every parameter has what was written to it last, or its default. So what the server
is sent is decided by these, and by nothing else that was called. -/
theorem settings_latest (calls : List Builder.Call) (reads : List EnvironmentRead) :
    (∀ row, (configure calls reads).field row =
      (written calls reads row).getLast?.getD (field {} row)) ∧
      ∀ (calls' : List Builder.Call) (reads' : List EnvironmentRead),
        (∀ row, (written calls reads row).getLast?.getD (field {} row) =
          (written calls' reads' row).getLast?.getD (field {} row)) →
        ASRSendMessage.setParameters (configure calls reads) =
          ASRSendMessage.setParameters (configure calls' reads') := by
  have latest (calls : List Builder.Call) (reads : List EnvironmentRead) (row : Parameter) :
      (configure calls reads).field row =
        (written calls reads row).getLast?.getD (field {} row) := by
    rw [configure, foldl_field _ EnvironmentRead.writesTo read_field, Builder.build,
      foldl_field _ Builder.Call.writesTo Builder.perform_field, written, List.getLast?_append]
    cases (reads.filterMap (EnvironmentRead.writesTo row)).getLast? <;> rfl
  refine ⟨latest calls reads, fun calls' reads' same => ?_⟩
  rw [field_injective fun row => ((latest calls reads row).trans (same row)).trans
    (latest calls' reads' row).symm]

end RecognitionConfig

namespace LanguageModelList

namespace Builder

/-- What a second language model is refused with. -/
def onlyOne : RecognitionError :=
  { code := .failure, message := bytes "Only one lm is supported at the moment" }

/-- `addFromURI`. -/
def addFromURI (properties : LanguageModelList) (uri : Bytes) :
    Except RecognitionError LanguageModelList :=
  if properties.uri ≠ [] ∨ properties.grammarBody ≠ [] then .error onlyOne
  else .ok { properties with uri }

/-- `addInlineGrammar`. -/
def addInlineGrammar (properties : LanguageModelList) (grammarBody : Bytes) :
    Except RecognitionError LanguageModelList :=
  if properties.uri ≠ [] ∨ properties.grammarBody ≠ [] then .error onlyOne
  else .ok { properties with grammarBody }

/-- A call of the builder. -/
inductive Call where
  | addFromURI (uri : Bytes)
  | addInlineGrammar (grammarBody : Bytes)
deriving DecidableEq

/-- Perform a call. -/
def perform (properties : LanguageModelList) : Call → Except RecognitionError LanguageModelList
  | .addFromURI uri => addFromURI properties uri
  | .addInlineGrammar grammarBody => addInlineGrammar properties grammarBody

/-- The language model of a call. -/
def Call.text : Call → Bytes
  | .addFromURI uri => uri
  | .addInlineGrammar grammarBody => grammarBody

/-- The type of its content in the request. -/
def Call.contentType : Call → Bytes
  | .addFromURI _ => bytes "text/uri-list"
  | .addInlineGrammar _ => bytes "application/srgs"

/-- The list that a call makes of a new builder. -/
def Call.alone : Call → LanguageModelList
  | .addFromURI uri => { uri }
  | .addInlineGrammar grammarBody => { grammarBody }

/-- The builder behind a call, where the application catches what it throws. -/
def attempt (properties : LanguageModelList) (call : Call) : LanguageModelList :=
  match perform properties call with
  | .ok after => after
  | .error _ => properties

/-- `build`: the list has the properties of the builder. -/
def build (calls : List Call) : LanguageModelList := calls.foldl attempt {}

/-- A builder that has a language model refuses another one. -/
theorem perform_refused {properties : LanguageModelList}
    (taken : properties.uri ≠ [] ∨ properties.grammarBody ≠ []) (call : Call) :
    perform properties call = .error onlyOne := by
  cases call <;> exact if_pos taken

/-- A new builder takes what it is given. -/
theorem perform_taken (call : Call) : perform {} call = .ok call.alone := by
  cases call <;> rfl

/-- The list of a call has a language model unless the call's text is empty, and then it is the
empty list. -/
theorem Call.alone_taken (call : Call) :
    (call.text ≠ [] → call.alone.uri ≠ [] ∨ call.alone.grammarBody ≠ []) ∧
      (call.text = [] → call.alone = {}) := by
  cases call with
  | addFromURI uri => exact ⟨Or.inl, fun empty => congrArg (LanguageModelList.mk · []) empty⟩
  | addInlineGrammar grammarBody =>
    exact ⟨Or.inr, fun empty => congrArg (LanguageModelList.mk []) empty⟩

/-- A builder that has a language model keeps it. -/
theorem attempts_kept {properties : LanguageModelList}
    (taken : properties.uri ≠ [] ∨ properties.grammarBody ≠ []) (calls : List Call) :
    calls.foldl attempt properties = properties := by
  induction calls with
  | nil => rfl
  | cons call calls inductionHypothesis =>
    rw [List.foldl_cons, attempt, perform_refused taken]
    exact inductionHypothesis

/-- The list that is built is that of the first call with a text. -/
theorem build_first (calls : List Call) :
    build calls = ((calls.find? (·.text ≠ [])).map Call.alone).getD {} := by
  rw [build]
  induction calls with
  | nil => rfl
  | cons call calls inductionHypothesis =>
    rw [List.foldl_cons, attempt, perform_taken]
    obtain ⟨taken, empty⟩ := call.alone_taken
    by_cases given : call.text = []
    · rw [List.find?_cons_of_neg (by simp [given])]
      simpa only [empty given] using inductionHypothesis
    · rw [List.find?_cons_of_pos (by simp [given])]
      exact attempts_kept (taken given) calls

/-- The request for the list of a call carries its text. -/
theorem Call.alone_started (call : Call) (given : call.text ≠ []) :
    ∃ request, ASRSendMessage.startRecognition call.alone = some request ∧
      request.extra = call.text ∧
      request.getHeader (bytes "Content-Type") = call.contentType ∧
      request.getHeader (bytes "Content-Length") = decimal call.text.length := by
  have apart : bytes "Content-Length" ≠ bytes "Content-Type" := by decide
  have content (request : ASRMessageRequest) (extra key : Bytes) :
      (request.setExtra extra).getHeader key = request.getHeader key := rfl
  cases call with
  | addFromURI uri =>
    have nonempty : uri ≠ [] := given
    refine ⟨_, if_pos nonempty, rfl, ?_, ?_⟩
    · simp [ASRMessageRequest.get_set_header, content, apart, contentType]
    · simp [ASRMessageRequest.get_set_header, alone, text]
  | addInlineGrammar grammarBody =>
    have nonempty : grammarBody ≠ [] := given
    have unset : ¬ (addInlineGrammar grammarBody).alone.uri ≠ [] := not_not_intro rfl
    simp only [ASRSendMessage.startRecognition, if_neg unset]
    refine ⟨_, if_pos nonempty, rfl, ?_, ?_⟩
    · simp [ASRMessageRequest.get_set_header, content, apart, contentType]
    · simp [ASRMessageRequest.get_set_header, alone, text]

/-- Whatever is added to a list of language models, and whichever exceptions the application
catches: the next call is refused exactly when one before it had a text. A recognition with the
list is started by a request that carries the first text, for the type of its call; without any
text, none is sent. -/
theorem first_model_started (calls : List Call) :
    (∀ next, perform (build calls) next = .error onlyOne ↔ ∃ call ∈ calls, call.text ≠ []) ∧
      match calls.find? (·.text ≠ []) with
      | none => ASRSendMessage.startRecognition (build calls) = none
      | some call => ∃ request, ASRSendMessage.startRecognition (build calls) = some request ∧
          request.extra = call.text ∧
          request.getHeader (bytes "Content-Type") = call.contentType ∧
          request.getHeader (bytes "Content-Length") = decimal call.text.length := by
  rw [build_first]
  cases first : calls.find? (·.text ≠ []) with
  | none =>
    have texts : ∀ call ∈ calls, ¬ call.text ≠ [] := by simpa using first
    refine ⟨fun next => ?_, rfl⟩
    rw [Option.map_none, Option.getD_none, perform_taken]
    exact iff_of_false nofun fun ⟨call, member, given⟩ => texts call member given
  | some call =>
    have given : call.text ≠ [] := by simpa using List.find?_some first
    rw [Option.map_some, Option.getD_some]
    refine ⟨fun next => ?_, call.alone_started given⟩
    rw [perform_refused (call.alone_taken.1 given)]
    exact iff_of_true rfl ⟨call, List.mem_of_find?_eq_some first, given⟩

end Builder

end LanguageModelList

end AsrClient
