import Mathlib.Logic.Function.Basic
import AsrClient.SendMessage

/-!
# Parameters from the environment

Every recognition parameter can be set by an environment variable. The names of the
variables are constants, and one function for each parameter passes its constant to the
reader for the type of the parameter. The table of the documentation is written down
here as well, as the variable that is meant to control each parameter.

A parameter is set from one variable and from nothing else. That it is the variable of
the table is true of all parameters but three: the constants of emotion and gender hold
each other's name, and the continuous mode is read from the variable of the age, while
the constant for it is used nowhere.
-/

namespace AsrClient

/-- The environment of the process: the value of each variable that is defined. -/
abbrev Environment := Bytes → Option Bytes

/-- `toupper`. -/
def toUpper (c : Byte) : Byte := if 97 ≤ c && c ≤ 122 then c - 32 else c

/-- `std::stoul`: as `std::stoi`, but a sign is applied in the unsigned arithmetic. -/
def stoul (text : Bytes) : Except StoiError UInt64 :=
  let (negative, rest) := sign (text.dropWhile isSpace)
  let digits := rest.takeWhile isDigit
  if digits = [] then .error .invalidArgument
  else if numeral digits < 2 ^ 64 then
    .ok (if negative then -UInt64.ofNat (numeral digits) else UInt64.ofNat (numeral digits))
  else .error .outOfRange

/-- `setInteger`: what is no number counts as zero, and a long one is cut off. -/
def setInteger (env : Environment) (parName : String) (replaceEmpty : Bool) (par : UInt32) :
    UInt32 :=
  match env (bytes parName) with
  | some value =>
      match stoul value with
      | .ok number => number.toUInt32
      | .error _ => 0
  | none => if replaceEmpty then 0 else par

/-- `setBool`. -/
def setBool (env : Environment) (parName : String) (replaceEmpty : Bool) (par : Bool) : Bool :=
  match env (bytes parName) with
  | some value => value.map toUpper = bytes "TRUE"
  | none => if replaceEmpty then false else par

/-- `setString`. -/
def setString (env : Environment) (parName : String) (replaceEmpty : Bool) (par : Bytes) : Bytes :=
  match env (bytes parName) with
  | some value => value
  | none => if replaceEmpty then [] else par

namespace VariableName

/-- `CONFIDENCE_THRESHOLD`. -/
def confidenceThreshold : String := "CONFIDENCE_THRESHOLD"

/-- `MAX_SENTENCES`. -/
def maxSentences : String := "MAX_SENTENCES"

/-- `NO_INPUT_TIMEOUT_MILLISECONDS`. -/
def noInputTimeoutMilliseconds : String := "NO_INPUT_TIMEOUT_MILLISECONDS"

/-- `RECOG_TIMEOUT_SECONDS`. -/
def recogTimeoutSeconds : String := "RECOG_TIMEOUT_SECONDS"

/-- `NO_INPUT_TIMEOUT_ENABLED`. -/
def noInputTimeoutEnabled : String := "NO_INPUT_TIMEOUT_ENABLED"

/-- `RECOG_TIMEOUT_ENABLED`. -/
def recogTimeoutEnabled : String := "RECOG_TIMEOUT_ENABLED"

/-- `INFER_AGE_ENABLED`. -/
def inferAgeEnabled : String := "INFER_AGE_ENABLED"

/-- `INFER_EMOTION_ENABLED`, which holds the name of the variable for the gender. -/
def inferEmotionEnabled : String := "INFER_GENDER_ENABLED"

/-- `INFER_GENDER_ENABLED`, which holds the name of the variable for the emotion. -/
def inferGenderEnabled : String := "INFER_EMOTION_ENABLED"

/-- `HEAD_MARGIN_MILLISECONDS`. -/
def headMarginMilliseconds : String := "HEAD_MARGIN_MILLISECONDS"

/-- `TAIL_MARGIN_MILLISECONDS`. -/
def tailMarginMilliseconds : String := "TAIL_MARGIN_MILLISECONDS"

/-- `WAIT_END_MILLISECONDS`. -/
def waitEndMilliseconds : String := "WAIT_END_MILLISECONDS"

/-- `MAX_SEGMENT_DURATION`. -/
def maxSegmentDuration : String := "MAX_SEGMENT_DURATION"

/-- `START_INPUT_TIMERS`. -/
def startInputTimers : String := "START_INPUT_TIMERS"

/-- `ENDPOINTER_AUTO_LEVEL_LEN`. -/
def endpointerAutoLevelLen : String := "ENDPOINTER_AUTO_LEVEL_LEN"

/-- `ENDPOINTER_LEVEL_MODE`. -/
def endpointerLevelMode : String := "ENDPOINTER_LEVEL_MODE"

/-- `ENDPOINTER_LEVEL_THRESHOLD`. -/
def endpointerLevelThreshold : String := "ENDPOINTER_LEVEL_THRESHOLD"

/-- `VERIFY_BUFFER_UTTERANCE`. -/
def verifyBufferUtterance : String := "VERIFY_BUFFER_UTTERANCE"

/-- `ACCOUNT_TAG`. -/
def accountTag : String := "ACCOUNT_TAG"

/-- `CHANNEL_IDENTIFIER`. -/
def channelIdentifier : String := "CHANNEL_IDENTIFIER"

/-- `MEDIA_TYPE`. -/
def mediaType : String := "MEDIA_TYPE"

end VariableName

namespace RecognitionConfig

section Setters

variable (env : Environment) (replaceEmpty : Bool) (config : RecognitionConfig)

/-- `setConfidenceThresholdFromEnv`. -/
def setConfidenceThresholdFromEnv : RecognitionConfig :=
  { config with
    confidenceThreshold :=
      setInteger env VariableName.confidenceThreshold replaceEmpty config.confidenceThreshold }

/-- `setMaxSentencesFromEnv`. -/
def setMaxSentencesFromEnv : RecognitionConfig :=
  { config with
    maxSentences := setInteger env VariableName.maxSentences replaceEmpty config.maxSentences }

/-- `setNoInputTimeoutMillisecondsFromEnv`. -/
def setNoInputTimeoutMillisecondsFromEnv : RecognitionConfig :=
  { config with
    noInputTimeoutMilliseconds :=
      setInteger env VariableName.noInputTimeoutMilliseconds replaceEmpty
        config.noInputTimeoutMilliseconds }

/-- `setRecognitionTimeoutSecondsFromEnv`. -/
def setRecognitionTimeoutSecondsFromEnv : RecognitionConfig :=
  { config with
    recognitionTimeoutSeconds :=
      setInteger env VariableName.recogTimeoutSeconds replaceEmpty
        config.recognitionTimeoutSeconds }

/-- `setNoInputTimeoutEnabledFromEnv`. -/
def setNoInputTimeoutEnabledFromEnv : RecognitionConfig :=
  { config with
    noInputTimeoutEnabled :=
      setBool env VariableName.noInputTimeoutEnabled replaceEmpty config.noInputTimeoutEnabled }

/-- `setRecognitionTimeoutEnabledFromEnv`. -/
def setRecognitionTimeoutEnabledFromEnv : RecognitionConfig :=
  { config with
    recognitionTimeoutEnabled :=
      setBool env VariableName.recogTimeoutEnabled replaceEmpty config.recognitionTimeoutEnabled }

/-- `setInferAgeEnabledFromEnv`. -/
def setInferAgeEnabledFromEnv : RecognitionConfig :=
  { config with
    inferAgeEnabled :=
      setBool env VariableName.inferAgeEnabled replaceEmpty config.inferAgeEnabled }

/-- `setInferEmotionEnabledFromEnv`. -/
def setInferEmotionEnabledFromEnv : RecognitionConfig :=
  { config with
    inferEmotionEnabled :=
      setBool env VariableName.inferEmotionEnabled replaceEmpty config.inferEmotionEnabled }

/-- `setInferGenderEnabledFromEnv`. -/
def setInferGenderEnabledFromEnv : RecognitionConfig :=
  { config with
    inferGenderEnabled :=
      setBool env VariableName.inferGenderEnabled replaceEmpty config.inferGenderEnabled }

/-- `setHeadMarginMillisecondsFromEnv`. -/
def setHeadMarginMillisecondsFromEnv : RecognitionConfig :=
  { config with
    headMarginMilliseconds :=
      setInteger env VariableName.headMarginMilliseconds replaceEmpty
        config.headMarginMilliseconds }

/-- `setTailMarginMillisecondsFromEnv`. -/
def setTailMarginMillisecondsFromEnv : RecognitionConfig :=
  { config with
    tailMarginMilliseconds :=
      setInteger env VariableName.tailMarginMilliseconds replaceEmpty
        config.tailMarginMilliseconds }

/-- `setWaitEndMillisecondsFromEnv`. -/
def setWaitEndMillisecondsFromEnv : RecognitionConfig :=
  { config with
    waitEndMilliseconds :=
      setInteger env VariableName.waitEndMilliseconds replaceEmpty config.waitEndMilliseconds }

/-- `setContinuousModeFromEnv`: the constant is the one of the age. -/
def setContinuousModeFromEnv : RecognitionConfig :=
  { config with
    continuousMode := setBool env VariableName.inferAgeEnabled replaceEmpty
        config.continuousMode }

/-- `setMaxSegmentDurationFromEnv`. -/
def setMaxSegmentDurationFromEnv : RecognitionConfig :=
  { config with
    maxSegmentDuration :=
      setInteger env VariableName.maxSegmentDuration replaceEmpty config.maxSegmentDuration }

/-- `setStartInputTimersFromEnv`. -/
def setStartInputTimersFromEnv : RecognitionConfig :=
  { config with
    startInputTimers :=
      setBool env VariableName.startInputTimers replaceEmpty config.startInputTimers }

/-- `setEndpointerAutoLevelLenFromEnv`. -/
def setEndpointerAutoLevelLenFromEnv : RecognitionConfig :=
  { config with
    endpointerAutoLevelLen :=
      setInteger env VariableName.endpointerAutoLevelLen replaceEmpty
        config.endpointerAutoLevelLen }

/-- `setEndpointerLevelModeFromEnv`. -/
def setEndpointerLevelModeFromEnv : RecognitionConfig :=
  { config with
    endpointerLevelMode :=
      setInteger env VariableName.endpointerLevelMode replaceEmpty config.endpointerLevelMode }

/-- `setEndpointerLevelThresholdFromEnv`. -/
def setEndpointerLevelThresholdFromEnv : RecognitionConfig :=
  { config with
    endpointerLevelThreshold :=
      setInteger env VariableName.endpointerLevelThreshold replaceEmpty
        config.endpointerLevelThreshold }

/-- `setVerifyBufferUtteranceFromEnv`. -/
def setVerifyBufferUtteranceFromEnv : RecognitionConfig :=
  { config with
    verifyBufferUtterance :=
      setBool env VariableName.verifyBufferUtterance replaceEmpty config.verifyBufferUtterance }

/-- `setAccountTagFromEnv`. -/
def setAccountTagFromEnv : RecognitionConfig :=
  { config with
    accountTag := setString env VariableName.accountTag replaceEmpty config.accountTag }

/-- `setChannelIdentifierFromEnv`. -/
def setChannelIdentifierFromEnv : RecognitionConfig :=
  { config with
    channelIdentifier :=
      setString env VariableName.channelIdentifier replaceEmpty config.channelIdentifier }

/-- `setMediaTypeFromEnv`. -/
def setMediaTypeFromEnv : RecognitionConfig :=
  { config with
    mediaType := setString env VariableName.mediaType replaceEmpty config.mediaType }

/-- `getConfigFromEvironment`. -/
def getConfigFromEvironment : RecognitionConfig :=
  config
  |> setConfidenceThresholdFromEnv env replaceEmpty
  |> setMaxSentencesFromEnv env replaceEmpty
  |> setNoInputTimeoutMillisecondsFromEnv env replaceEmpty
  |> setRecognitionTimeoutSecondsFromEnv env replaceEmpty
  |> setNoInputTimeoutEnabledFromEnv env replaceEmpty
  |> setRecognitionTimeoutEnabledFromEnv env replaceEmpty
  |> setInferAgeEnabledFromEnv env replaceEmpty
  |> setInferEmotionEnabledFromEnv env replaceEmpty
  |> setInferGenderEnabledFromEnv env replaceEmpty
  |> setHeadMarginMillisecondsFromEnv env replaceEmpty
  |> setTailMarginMillisecondsFromEnv env replaceEmpty
  |> setWaitEndMillisecondsFromEnv env replaceEmpty
  |> setContinuousModeFromEnv env replaceEmpty
  |> setMaxSegmentDurationFromEnv env replaceEmpty
  |> setStartInputTimersFromEnv env replaceEmpty
  |> setEndpointerAutoLevelLenFromEnv env replaceEmpty
  |> setEndpointerLevelModeFromEnv env replaceEmpty
  |> setEndpointerLevelThresholdFromEnv env replaceEmpty
  |> setVerifyBufferUtteranceFromEnv env replaceEmpty
  |> setAccountTagFromEnv env replaceEmpty
  |> setChannelIdentifierFromEnv env replaceEmpty
  |> setMediaTypeFromEnv env replaceEmpty

end Setters

/-- The parameters of the documentation, in the order of its table. -/
inductive Parameter where
  | confidenceThreshold
  | maxSentences
  | noInputTimeoutMilliseconds
  | recognitionTimeoutSeconds
  | noInputTimeoutEnabled
  | recognitionTimeoutEnabled
  | inferAgeEnabled
  | inferEmotionEnabled
  | inferGenderEnabled
  | headMarginMilliseconds
  | tailMarginMilliseconds
  | waitEndMilliseconds
  | continuousMode
  | maxSegmentDuration
  | startInputTimers
  | endpointerAutoLevelLen
  | endpointerLevelMode
  | endpointerLevelThreshold
  | verifyBufferUtterance
  | accountTag
  | channelIdentifier
  | mediaType
deriving DecidableEq

/-- The value of a parameter, of one of three types. -/
inductive Value where
  | integer (number : UInt32)
  | bool (enabled : Bool)
  | string (text : Bytes)
deriving DecidableEq

/-- The value is of the type Bool. -/
def Value.isBool : Value → Bool
  | .bool _ => true
  | _ => false

/-- The variable that the documentation names for a parameter. -/
def Parameter.variable : Parameter → String
  | .confidenceThreshold => "CONFIDENCE_THRESHOLD"
  | .maxSentences => "MAX_SENTENCES"
  | .noInputTimeoutMilliseconds => "NO_INPUT_TIMEOUT_MILLISECONDS"
  | .recognitionTimeoutSeconds => "RECOG_TIMEOUT_SECONDS"
  | .noInputTimeoutEnabled => "NO_INPUT_TIMEOUT_ENABLED"
  | .recognitionTimeoutEnabled => "RECOG_TIMEOUT_ENABLED"
  | .inferAgeEnabled => "INFER_AGE_ENABLED"
  | .inferEmotionEnabled => "INFER_EMOTION_ENABLED"
  | .inferGenderEnabled => "INFER_GENDER_ENABLED"
  | .headMarginMilliseconds => "HEAD_MARGIN_MILLISECONDS"
  | .tailMarginMilliseconds => "TAIL_MARGIN_MILLISECONDS"
  | .waitEndMilliseconds => "WAIT_END_MILLISECONDS"
  | .continuousMode => "CONTINUOUS_MODE"
  | .maxSegmentDuration => "MAX_SEGMENT_DURATION"
  | .startInputTimers => "START_INPUT_TIMERS"
  | .endpointerAutoLevelLen => "ENDPOINTER_AUTO_LEVEL_LEN"
  | .endpointerLevelMode => "ENDPOINTER_LEVEL_MODE"
  | .endpointerLevelThreshold => "ENDPOINTER_LEVEL_THRESHOLD"
  | .verifyBufferUtterance => "VERIFY_BUFFER_UTTERANCE"
  | .accountTag => "ACCOUNT_TAG"
  | .channelIdentifier => "CHANNEL_IDENTIFIER"
  | .mediaType => "MEDIA_TYPE"

/-- The variable that the program reads for a parameter: the one of the documentation,
except for three. -/
def Parameter.reads : Parameter → String
  | .inferEmotionEnabled => "INFER_GENDER_ENABLED"
  | .inferGenderEnabled => "INFER_EMOTION_ENABLED"
  | .continuousMode => "INFER_AGE_ENABLED"
  | row => row.variable

/-- The field of a parameter. -/
def field (config : RecognitionConfig) : Parameter → Value
  | .confidenceThreshold => .integer config.confidenceThreshold
  | .maxSentences => .integer config.maxSentences
  | .noInputTimeoutMilliseconds => .integer config.noInputTimeoutMilliseconds
  | .recognitionTimeoutSeconds => .integer config.recognitionTimeoutSeconds
  | .noInputTimeoutEnabled => .bool config.noInputTimeoutEnabled
  | .recognitionTimeoutEnabled => .bool config.recognitionTimeoutEnabled
  | .inferAgeEnabled => .bool config.inferAgeEnabled
  | .inferEmotionEnabled => .bool config.inferEmotionEnabled
  | .inferGenderEnabled => .bool config.inferGenderEnabled
  | .headMarginMilliseconds => .integer config.headMarginMilliseconds
  | .tailMarginMilliseconds => .integer config.tailMarginMilliseconds
  | .waitEndMilliseconds => .integer config.waitEndMilliseconds
  | .continuousMode => .bool config.continuousMode
  | .maxSegmentDuration => .integer config.maxSegmentDuration
  | .startInputTimers => .bool config.startInputTimers
  | .endpointerAutoLevelLen => .integer config.endpointerAutoLevelLen
  | .endpointerLevelMode => .integer config.endpointerLevelMode
  | .endpointerLevelThreshold => .integer config.endpointerLevelThreshold
  | .verifyBufferUtterance => .bool config.verifyBufferUtterance
  | .accountTag => .string config.accountTag
  | .channelIdentifier => .string config.channelIdentifier
  | .mediaType => .string config.mediaType

/-- A value read from a variable, by the reader for its type. -/
def Value.fromEnv (env : Environment) (parName : String) (replaceEmpty : Bool) : Value → Value
  | .integer par => .integer (setInteger env parName replaceEmpty par)
  | .bool par => .bool (setBool env parName replaceEmpty par)
  | .string par => .string (setString env parName replaceEmpty par)

/-- A parameter is controlled by the variable of the documentation in an environment: no
other environment with the same value of it gives the parameter another value, and a
switch is on when the variable says true. -/
structure Controlled (config : RecognitionConfig) (replaceEmpty : Bool) (env : Environment)
    (row : Parameter) : Prop where
  alone (env' : Environment) (agree : env' (bytes row.variable) = env (bytes row.variable)) :
    (getConfigFromEvironment env' replaceEmpty config).field row =
      (getConfigFromEvironment env replaceEmpty config).field row
  enabled (value : Bytes) (isBool : (config.field row).isBool = true)
    (isTrue : value.map toUpper = bytes "TRUE") :
    (getConfigFromEvironment (Function.update env (bytes row.variable) (some value)) replaceEmpty
      config).field row = .bool true

/-- Every parameter is set from the one variable that the program reads for it. -/
theorem get_config_field (env : Environment) (replaceEmpty : Bool) (config : RecognitionConfig)
    (row : Parameter) : (getConfigFromEvironment env replaceEmpty config).field row =
      (config.field row).fromEnv env row.reads replaceEmpty := by
  cases row <;> rfl

/-- The reader of a value depends on the value of its variable only. -/
theorem Value.from_env_congr {env env' : Environment} {parName : String} (replaceEmpty : Bool)
    (agree : env' (bytes parName) = env (bytes parName)) (value : Value) :
    value.fromEnv env' parName replaceEmpty = value.fromEnv env parName replaceEmpty := by
  cases value <;> simp only [Value.fromEnv, setInteger, setBool, setString, agree]

/-- A switch is on when its variable says true in some casing, and off when it says
anything else. -/
theorem Value.from_env_bool (env : Environment) (parName : String) (replaceEmpty : Bool)
    (value : Value) (isBool : value.isBool = true) (text : Bytes) :
    value.fromEnv (Function.update env (bytes parName) (some text)) parName replaceEmpty =
      .bool (text.map toUpper = bytes "TRUE") := by
  cases value with
  | bool par => simp [Value.fromEnv, setBool]
  | integer _ => exact absurd isBool Bool.false_ne_true
  | string _ => exact absurd isBool Bool.false_ne_true

/-- The parameters whose variable is not the one of the documentation. -/
def miswired : List Parameter := [.inferEmotionEnabled, .inferGenderEnabled, .continuousMode]

/-- All other parameters are read from the variable of the documentation. -/
theorem reads_variable {row : Parameter} (wired : row ∉ miswired) : row.reads = row.variable := by
  cases row <;> first | rfl | exact absurd (by decide) wired

/-- A miswired parameter is a switch, and is read from the variable of another one. -/
theorem miswired_reads {row : Parameter} (wrong : row ∈ miswired) (config : RecognitionConfig) :
    (config.field row).isBool = true ∧ bytes row.variable ≠ bytes row.reads := by
  cases row <;> first | exact absurd wrong (by decide) | exact ⟨rfl, by decide⟩

/-- In every environment, from every configuration and for both values of the flag, a
parameter is controlled by its own variable exactly when it is not one of the three.

For one of the three the environment is changed in the variable that the program reads:
set to true if the parameter is off, and to nothing if it is on. -/
theorem controlled_iff_wired (config : RecognitionConfig) (replaceEmpty : Bool)
    (env : Environment) (row : Parameter) :
    Controlled config replaceEmpty env row ↔ row ∉ miswired := by
  constructor
  · intro controlled wrong
    obtain ⟨isBool, other⟩ := miswired_reads wrong config
    have follows (text : Bytes) : (getConfigFromEvironment env replaceEmpty config).field row =
        .bool (text.map toUpper = bytes "TRUE") := by
      have same := controlled.alone (Function.update env (bytes row.reads) (some text))
        (Function.update_of_ne other ..)
      rw [get_config_field, Value.from_env_bool env row.reads replaceEmpty _ isBool text] at same
      exact same.symm
    have both := (follows (bytes "TRUE")).symm.trans (follows [])
    exact absurd both (by decide)
  · intro wired
    have reads := reads_variable wired
    constructor
    · intro env' agree
      rw [get_config_field, get_config_field]
      apply Value.from_env_congr
      rwa [reads]
    · intro value isBool isTrue
      rw [get_config_field, reads, Value.from_env_bool env row.variable replaceEmpty _ isBool value]
      rw [decide_eq_true isTrue]

/-- The continuous mode follows the variable of the age: with the variable of the
continuous mode undefined in both, two environments give it different values. -/
theorem continuous_mode_follows_age :
    ¬ ∀ (config : RecognitionConfig) (replaceEmpty : Bool) (env : Environment) (row : Parameter),
      Controlled config replaceEmpty env row := by
  intro always
  have same := (always {} false (fun _ => none) .continuousMode).alone
    (fun name => if name = bytes "INFER_AGE_ENABLED" then some (bytes "true") else none)
    (by decide)
  exact absurd same (by decide)

end RecognitionConfig

section Integers

/-- The number at the start of a text, behind white space and with its sign. -/
def numeralAt (text : Bytes) : Option Int :=
  let (negative, rest) := sign (text.dropWhile isSpace)
  let digits := rest.takeWhile isDigit
  if digits = [] then none
  else some (if negative then -numeral digits else numeral digits)

/-- A stored value is the number that the text starts with, or zero. -/
def Unaltered (text : Bytes) (stored : UInt32) : Prop :=
  stored = 0 ∨ ∃ number, numeralAt text = some number ∧ 0 ≤ number ∧ number < 2 ^ 32 ∧
    (stored.toNat : Int) = number

/-- `std::stoul` answers with the number modulo 2^64, up to this magnitude. -/
theorem stoul_numeral (text : Bytes) :
    stoul text = match numeralAt text with
      | none => .error .invalidArgument
      | some number =>
          if number.natAbs < 2 ^ 64 then .ok (UInt64.ofInt number) else .error .outOfRange := by
  have unsigned (number : Nat) : UInt64.ofInt number = UInt64.ofNat number := by
    have converted := WsParser.size_of_declared number
    apply UInt64.toNat_inj.mp
    rw [UInt64.toNat_ofNat']
    omega
  rw [stoul, numeralAt]
  rcases sign (text.dropWhile isSpace) with ⟨negative, rest⟩
  simp only
  by_cases empty : rest.takeWhile isDigit = []
  · rw [if_pos empty, if_pos empty]
  · rw [if_neg empty, if_neg empty]
    cases negative with
    | false => simp [unsigned]
    | true => simp [unsigned, UInt64.ofInt_neg]

/-- What is stored is the number modulo 2^32, and zero where there is none. -/
theorem set_integer_stored (env : Environment) (parName : String) (replaceEmpty : Bool)
    (par : UInt32) (value : Bytes) (given : env (bytes parName) = some value) :
    ((setInteger env parName replaceEmpty par).toNat : Int) = match numeralAt value with
      | none => 0
      | some number => if number.natAbs < 2 ^ 64 then number % 2 ^ 32 else 0 := by
  rw [setInteger, given]
  simp only [stoul_numeral]
  cases numeralAt value with
  | none => rfl
  | some number =>
    simp only
    split_ifs with inRange
    · have converted := WsParser.size_of_declared number
      simp only [UInt64.toNat_toUInt32]
      omega
    · rfl

/-- A parameter is stored as its variable says, or as zero, exactly when the variable starts
with no number, or with one that 32 bits hold, a multiple of 2^32, or one that even 64 bits do
not hold. -/
theorem integer_unaltered_iff (env : Environment) (parName : String) (replaceEmpty : Bool)
    (par : UInt32) (value : Bytes) (given : env (bytes parName) = some value) :
    Unaltered value (setInteger env parName replaceEmpty par) ↔
      ∀ number, numeralAt value = some number →
        (0 ≤ number ∧ number < 2 ^ 32) ∨ number % 2 ^ 32 = 0 ∨ 2 ^ 64 ≤ number.natAbs := by
  have stored := set_integer_stored env parName replaceEmpty par value given
  have zero : setInteger env parName replaceEmpty par = 0 ↔
      (setInteger env parName replaceEmpty par).toNat = 0 := UInt32.toNat_inj.symm
  rw [Unaltered, zero]
  cases start : numeralAt value with
  | none =>
    rw [start] at stored
    simp only at stored
    exact iff_of_true (Or.inl (by omega)) (by simp)
  | some number =>
    rw [start] at stored
    simp only [Option.some.injEq, exists_eq_left', forall_eq'] at stored ⊢
    split_ifs at stored with inRange
    · omega
    · omega

/-- One more than 2^32 is stored as one, which the server takes for a valid setting. -/
theorem long_integer_cut_off :
    setInteger (fun _ => some (bytes "4294967297")) VariableName.maxSentences false 0 = 1 ∧
      ¬ Unaltered (bytes "4294967297") 1 := by
  refine ⟨by decide, ?_⟩
  rintro (zero | ⟨number, start, -, small, -⟩)
  · exact absurd zero (by decide)
  · obtain rfl : 4294967297 = number := Option.some.inj start
    exact absurd small (by decide)

/-- A number behind white space and a sign is stored as it is. -/
theorem signed_integer_kept :
    Unaltered (bytes " +42;")
      (setInteger (fun _ => some (bytes " +42;")) VariableName.maxSentences false 7) := by
  apply (integer_unaltered_iff (fun _ => some (bytes " +42;")) VariableName.maxSentences false 7
    (bytes " +42;") rfl).mpr
  intro number start
  obtain rfl : 42 = number := Option.some.inj start
  exact Or.inl (by decide)

end Integers

end AsrClient
