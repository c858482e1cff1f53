import Mathlib.Data.List.Nodup
import AsrClient.Environment

/-!
# The headers of a request for parameters

Each parameter has a header of its own. A number that is zero, a switch that is off and an
empty text are not sent, and four parameters are sent only where another one enables them.
What these four hold otherwise has no effect, and is zero in the norm of a configuration.

The norm can be read back from the headers, parameter by parameter. No two parameters share a
header, and the request has no other ones.
-/

namespace AsrClient

namespace RecognitionConfig

/-- The header that the documentation names for a parameter. -/
def Parameter.header : Parameter → String
  | .confidenceThreshold => "decoder.confidenceThreshold"
  | .maxSentences => "decoder.maxSentences"
  | .noInputTimeoutMilliseconds => "noInputTimeout.value"
  | .recognitionTimeoutSeconds => "recognitionTimeout.value"
  | .noInputTimeoutEnabled => "noInputTimeout.enabled"
  | .recognitionTimeoutEnabled => "recognitionTimeout.enabled"
  | .inferAgeEnabled => "Infer-age-enabled"
  | .inferEmotionEnabled => "Infer-emotion-enabled"
  | .inferGenderEnabled => "Infer-gender-enabled"
  | .headMarginMilliseconds => "endpointer.headMargin"
  | .tailMarginMilliseconds => "endpointer.tailMargin"
  | .waitEndMilliseconds => "endpointer.waitEnd"
  | .continuousMode => "decoder.continuousMode"
  | .maxSegmentDuration => "endpointer.maxSegmentDuration"
  | .startInputTimers => "decoder.startInputTimers"
  | .endpointerAutoLevelLen => "endpointer.autoLevelLen"
  | .endpointerLevelMode => "endpointer.levelMode"
  | .endpointerLevelThreshold => "endpointer.levelThreshold"
  | .verifyBufferUtterance => "Ver-Buffer-Utterance"
  | .accountTag => "licenseManager.accountTag"
  | .channelIdentifier => "Channel-Identifier"
  | .mediaType => "Media-Type"

/-- The configuration with zero for the parameters that are not enabled. -/
def norm (config : RecognitionConfig) : RecognitionConfig :=
  { config with
    noInputTimeoutMilliseconds :=
      if config.noInputTimeoutEnabled then config.noInputTimeoutMilliseconds else 0
    recognitionTimeoutSeconds :=
      if config.recognitionTimeoutEnabled then config.recognitionTimeoutSeconds else 0
    endpointerAutoLevelLen :=
      if config.endpointerLevelMode = 1 then config.endpointerAutoLevelLen else 0
    endpointerLevelThreshold :=
      if config.endpointerLevelMode = 2 then config.endpointerLevelThreshold else 0 }

section Decoding

variable (headers : HeaderMap)

/-- A number is read from its header; a missing one is zero. -/
def readNumber (row : Parameter) : UInt32 :=
  UInt32.ofNat (numeral (headers[bytes row.header]?.getD []))

/-- A switch is read from its header, in either of two spellings; a missing one is off. -/
def readSwitch (row : Parameter) : Bool :=
  headers[bytes row.header]? = some (bytes "true") ∨ headers[bytes row.header]? = some (bytes "1")

/-- A text is read from its header; a missing one is empty. -/
def readText (row : Parameter) : Bytes := headers[bytes row.header]?.getD []

/-- The configuration that headers stand for. -/
def decode : RecognitionConfig where
  confidenceThreshold := readNumber headers .confidenceThreshold
  maxSentences := readNumber headers .maxSentences
  noInputTimeoutMilliseconds := readNumber headers .noInputTimeoutMilliseconds
  recognitionTimeoutSeconds := readNumber headers .recognitionTimeoutSeconds
  noInputTimeoutEnabled := readSwitch headers .noInputTimeoutEnabled
  recognitionTimeoutEnabled := readSwitch headers .recognitionTimeoutEnabled
  inferAgeEnabled := readSwitch headers .inferAgeEnabled
  inferGenderEnabled := readSwitch headers .inferGenderEnabled
  inferEmotionEnabled := readSwitch headers .inferEmotionEnabled
  headMarginMilliseconds := readNumber headers .headMarginMilliseconds
  tailMarginMilliseconds := readNumber headers .tailMarginMilliseconds
  waitEndMilliseconds := readNumber headers .waitEndMilliseconds
  continuousMode := readSwitch headers .continuousMode
  maxSegmentDuration := readNumber headers .maxSegmentDuration
  startInputTimers := readSwitch headers .startInputTimers
  endpointerAutoLevelLen := readNumber headers .endpointerAutoLevelLen
  endpointerLevelMode := readNumber headers .endpointerLevelMode
  endpointerLevelThreshold := readNumber headers .endpointerLevelThreshold
  verifyBufferUtterance := readSwitch headers .verifyBufferUtterance
  accountTag := readText headers .accountTag
  channelIdentifier := readText headers .channelIdentifier
  mediaType := readText headers .mediaType

end Decoding

/-- A number as it is sent, and whether it is. -/
def sentNumber (value : UInt32) : Bool × Bytes := (value != 0, decimal value.toNat)

/-- A text as it is sent, and whether it is. -/
def sentText (value : Bytes) : Bool × Bytes := (!value.isEmpty, value)

/-- What is sent for a parameter, and whether it is sent. -/
def sent (config : RecognitionConfig) : Parameter → Bool × Bytes
  | .confidenceThreshold => sentNumber config.confidenceThreshold
  | .maxSentences => sentNumber config.maxSentences
  | .noInputTimeoutMilliseconds => sentNumber config.norm.noInputTimeoutMilliseconds
  | .recognitionTimeoutSeconds => sentNumber config.norm.recognitionTimeoutSeconds
  | .noInputTimeoutEnabled => (config.noInputTimeoutEnabled, decimal 1)
  | .recognitionTimeoutEnabled => (config.recognitionTimeoutEnabled, decimal 1)
  | .inferAgeEnabled => (config.inferAgeEnabled, bytes "true")
  | .inferEmotionEnabled => (config.inferEmotionEnabled, bytes "true")
  | .inferGenderEnabled => (config.inferGenderEnabled, bytes "true")
  | .headMarginMilliseconds => sentNumber config.headMarginMilliseconds
  | .tailMarginMilliseconds => sentNumber config.tailMarginMilliseconds
  | .waitEndMilliseconds => sentNumber config.waitEndMilliseconds
  | .continuousMode => (config.continuousMode, bytes "true")
  | .maxSegmentDuration => sentNumber config.maxSegmentDuration
  | .startInputTimers => (config.startInputTimers, decimal 1)
  | .endpointerAutoLevelLen => sentNumber config.norm.endpointerAutoLevelLen
  | .endpointerLevelMode => sentNumber config.endpointerLevelMode
  | .endpointerLevelThreshold => sentNumber config.norm.endpointerLevelThreshold
  | .verifyBufferUtterance => (config.verifyBufferUtterance, bytes "true")
  | .accountTag => sentText config.accountTag
  | .channelIdentifier => sentText config.channelIdentifier
  | .mediaType => sentText config.mediaType

/-- The parameters in the order in which the request is built. -/
def order : List Parameter :=
  [.confidenceThreshold, .maxSentences, .noInputTimeoutEnabled, .noInputTimeoutMilliseconds,
    .recognitionTimeoutEnabled, .recognitionTimeoutSeconds, .inferAgeEnabled, .inferEmotionEnabled,
    .inferGenderEnabled, .headMarginMilliseconds, .tailMarginMilliseconds, .waitEndMilliseconds,
    .continuousMode, .maxSegmentDuration, .startInputTimers, .endpointerLevelMode,
    .endpointerAutoLevelLen, .endpointerLevelThreshold, .verifyBufferUtterance, .accountTag,
    .channelIdentifier, .mediaType]

/-- One parameter is added to a request. -/
def addParameter (config : RecognitionConfig) (request : ASRMessageRequest) (row : Parameter) :
    ASRMessageRequest :=
  ASRSendMessage.headerIf (config.sent row).1 row.header (config.sent row).2 request

/-- The request is built parameter by parameter. -/
theorem set_parameters_fold (config : RecognitionConfig) :
    ASRSendMessage.setParameters config =
      order.foldl config.addParameter (ASRMessageRequest.create .setParameters) := rfl

/-- No parameter is left out. -/
theorem mem_order (row : Parameter) : row ∈ order := by
  cases row <;> decide

/-- No two parameters share a header. -/
theorem header_injective {row row' : Parameter} (same : bytes row.header = bytes row'.header) :
    row = row' := by
  have distinct : (order.map fun row => bytes row.header).Nodup := by decide
  exact List.inj_on_of_nodup_map distinct (mem_order row) (mem_order row') same

/-- A parameter that is added has the header that is sent for it, and changes no other. -/
theorem add_parameters_getElem (config : RecognitionConfig) (rows : List Parameter)
    (request : ASRMessageRequest) (row : Parameter) :
    (rows.foldl config.addParameter request).headers[bytes row.header]? =
      if row ∈ rows ∧ (config.sent row).1 = true then some (config.sent row).2
      else request.headers[bytes row.header]? := by
  induction rows generalizing request with
  | nil => simp
  | cons first rows inductionHypothesis =>
    rw [List.foldl_cons, inductionHypothesis, addParameter, ASRSendMessage.header_if_getElem]
    by_cases same : first = row
    · subst same
      by_cases isSent : (config.sent first).1 = true <;> simp [isSent]
    · have apart : bytes first.header ≠ bytes row.header := fun equal => same (header_injective equal)
      simp [apart, Ne.symm same]

/-- Parameters add no header but their own. -/
theorem add_parameters_mem (config : RecognitionConfig) (rows : List Parameter)
    (request : ASRMessageRequest) (key : Bytes)
    (member : key ∈ (rows.foldl config.addParameter request).headers) :
    key ∈ request.headers ∨ ∃ row : Parameter, key = bytes row.header := by
  induction rows generalizing request with
  | nil => exact Or.inl member
  | cons first rows inductionHypothesis =>
    rcases inductionHypothesis (config.addParameter request first) member with added | other
    · rw [Std.ExtTreeMap.mem_iff_isSome_getElem?, addParameter,
        ASRSendMessage.header_if_getElem] at added
      split_ifs at added with isNew
      · exact Or.inr ⟨first, isNew.2.symm⟩
      · exact Or.inl (Std.ExtTreeMap.mem_iff_isSome_getElem?.mpr added)
    · exact Or.inr other

/-- The header of a parameter in the request. -/
theorem set_parameters_getElem (config : RecognitionConfig) (row : Parameter) :
    (ASRSendMessage.setParameters config).headers[bytes row.header]? =
      if (config.sent row).1 = true then some (config.sent row).2 else none := by
  rw [set_parameters_fold, add_parameters_getElem]
  simp [mem_order, ASRMessageRequest.create]

section Restoring

variable (config : RecognitionConfig) (row : Parameter)

/-- A number is read as it was sent. -/
theorem read_number_sent (value : UInt32) (isSent : config.sent row = sentNumber value) :
    readNumber (ASRSendMessage.setParameters config).headers row = value := by
  rw [readNumber, set_parameters_getElem, isSent, sentNumber]
  by_cases zero : value = 0
  · rw [zero]
    rfl
  · simp [zero, numeral_decimal]

/-- A switch is read as it was sent, in either spelling. -/
theorem read_switch_sent (enabled : Bool) (text : Bytes) (isSent : config.sent row = (enabled, text))
    (spelled : text = bytes "true" ∨ text = bytes "1") :
    readSwitch (ASRSendMessage.setParameters config).headers row = enabled := by
  rw [readSwitch, set_parameters_getElem, isSent]
  cases enabled <;> simp [spelled]

/-- A text is read as it was sent. -/
theorem read_text_sent (value : Bytes) (isSent : config.sent row = sentText value) :
    readText (ASRSendMessage.setParameters config).headers row = value := by
  rw [readText, set_parameters_getElem, isSent, sentText]
  cases value <;> rfl

end Restoring

/-- The norm of a configuration is read back from the headers of its request. -/
theorem decode_set_parameters (config : RecognitionConfig) :
    decode (ASRSendMessage.setParameters config).headers = config.norm := by
  have number := read_number_sent config
  have word := fun row enabled isSent =>
    read_switch_sent config row enabled (bytes "true") isSent (Or.inl rfl)
  have digit := fun row enabled isSent =>
    read_switch_sent config row enabled (decimal 1) isSent (Or.inr (by decide))
  have text := read_text_sent config
  rw [decode, number .confidenceThreshold _ rfl, number .maxSentences _ rfl,
    number .noInputTimeoutMilliseconds _ rfl, number .recognitionTimeoutSeconds _ rfl,
    digit .noInputTimeoutEnabled _ rfl, digit .recognitionTimeoutEnabled _ rfl,
    word .inferAgeEnabled _ rfl, word .inferGenderEnabled _ rfl, word .inferEmotionEnabled _ rfl,
    number .headMarginMilliseconds _ rfl, number .tailMarginMilliseconds _ rfl,
    number .waitEndMilliseconds _ rfl, word .continuousMode _ rfl, number .maxSegmentDuration _ rfl,
    digit .startInputTimers _ rfl, number .endpointerAutoLevelLen _ rfl,
    number .endpointerLevelMode _ rfl, number .endpointerLevelThreshold _ rfl,
    word .verifyBufferUtterance _ rfl, text .accountTag _ rfl, text .channelIdentifier _ rfl,
    text .mediaType _ rfl]
  rfl

/-- The headers of a request for parameters determine the norm of the configuration: it can be
read back from them, they are headers of parameters, and requests with the same headers are
of configurations with the same norm. -/
theorem headers_determine_norm :
    (∀ config : RecognitionConfig,
        decode (ASRSendMessage.setParameters config).headers = config.norm ∧
          ∀ key ∈ (ASRSendMessage.setParameters config).headers,
            ∃ row : Parameter, key = bytes row.header) ∧
      ∀ config config' : RecognitionConfig,
        (ASRSendMessage.setParameters config).headers =
            (ASRSendMessage.setParameters config').headers → config.norm = config'.norm := by
  constructor
  · intro config
    refine ⟨decode_set_parameters config, fun key member => ?_⟩
    rw [set_parameters_fold] at member
    rcases add_parameters_mem config order _ key member with former | own
    · simp [ASRMessageRequest.create] at former
    · exact own
  · intro config config' same
    rw [← decode_set_parameters config, same, decode_set_parameters config']

end RecognitionConfig

end AsrClient
