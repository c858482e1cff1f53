import AsrClient.RecognitionResult

/-!
# The requests of the client

Each request is built from the client's data and encoded by `raw`. A parameter that is
zero, false or empty is not sent; three of them are sent only together with the switch
that enables them.
-/

namespace AsrClient

/-- The recognition parameters. -/
structure RecognitionConfig where
  confidenceThreshold : UInt32 := 0
  maxSentences : UInt32 := 1
  noInputTimeoutMilliseconds : UInt32 := 0
  recognitionTimeoutSeconds : UInt32 := 0
  noInputTimeoutEnabled : Bool := false
  recognitionTimeoutEnabled : Bool := false
  inferAgeEnabled : Bool := false
  inferGenderEnabled : Bool := false
  inferEmotionEnabled : Bool := false
  headMarginMilliseconds : UInt32 := 0
  tailMarginMilliseconds : UInt32 := 0
  waitEndMilliseconds : UInt32 := 0
  continuousMode : Bool := false
  maxSegmentDuration : UInt32 := 0
  startInputTimers : Bool := false
  endpointerAutoLevelLen : UInt32 := 0
  endpointerLevelMode : UInt32 := 0
  endpointerLevelThreshold : UInt32 := 0
  verifyBufferUtterance : Bool := false
  accountTag : Bytes := []
  channelIdentifier : Bytes := []
  mediaType : Bytes := []
deriving DecidableEq

/-- The language model of a recognition: a URI or a grammar. -/
structure LanguageModelList where
  uri : Bytes := []
  grammarBody : Bytes := []
deriving DecidableEq

namespace ASRSendMessage

/-- The request that opens a session. -/
def createSession : ASRMessageRequest :=
  (ASRMessageRequest.create .createSession).setHeader (bytes "User-Agent") (bytes "ASR Client")

/-- A header that is set only under a condition. -/
def headerIf (present : Bool) (key : String) (val : Bytes) (request : ASRMessageRequest) :
    ASRMessageRequest :=
  if present then request.setHeader (bytes key) val else request

/-- A header leaves the start line. -/
theorem header_if_start_line (present : Bool) (key : String) (val : Bytes)
    (request : ASRMessageRequest) :
    (headerIf present key val request).startLine = request.startLine := by
  rw [headerIf]
  split_ifs <;> rfl

/-- The headers of a request behind one more that is set under a condition. -/
theorem header_if_getElem (present : Bool) (key : String) (val : Bytes)
    (request : ASRMessageRequest) (other : Bytes) :
    (headerIf present key val request).headers[other]? =
      if present = true ∧ bytes key = other then some val else request.headers[other]? := by
  rw [headerIf]
  by_cases isPresent : present = true
  · rw [if_pos isPresent, ASRMessageRequest.setHeader, Std.ExtTreeMap.getElem?_insert]
    by_cases same : bytes key = other
    · rw [if_pos (Std.compare_eq_iff_eq.mpr same), if_pos ⟨isPresent, same⟩]
    · rw [if_neg (fun equal => same (Std.compare_eq_iff_eq.mp equal)), if_neg (fun both => same both.2)]
  · rw [if_neg isPresent, if_neg (fun both => isPresent both.1)]

/-- A number that is sent unless it is zero. -/
def numberHeader (key : String) (value : UInt32) (request : ASRMessageRequest) :
    ASRMessageRequest :=
  headerIf (value != 0) key (decimal value.toNat) request

/-- A switch that is sent as the word true. -/
def flagHeader (key : String) (enabled : Bool) (request : ASRMessageRequest) :
    ASRMessageRequest :=
  headerIf enabled key (bytes "true") request

/-- A text that is sent unless it is empty. -/
def textHeader (key : String) (value : Bytes) (request : ASRMessageRequest) :
    ASRMessageRequest :=
  headerIf (!value.isEmpty) key value request

/-- The request that sets the parameters of a session. -/
def setParameters (config : RecognitionConfig) : ASRMessageRequest :=
  ASRMessageRequest.create .setParameters
  |> numberHeader "decoder.confidenceThreshold" config.confidenceThreshold
  |> numberHeader "decoder.maxSentences" config.maxSentences
  |> headerIf config.noInputTimeoutEnabled "noInputTimeout.enabled" (decimal 1)
  |> numberHeader "noInputTimeout.value"
      (if config.noInputTimeoutEnabled then config.noInputTimeoutMilliseconds else 0)
  |> headerIf config.recognitionTimeoutEnabled "recognitionTimeout.enabled" (decimal 1)
  |> numberHeader "recognitionTimeout.value"
      (if config.recognitionTimeoutEnabled then config.recognitionTimeoutSeconds else 0)
  |> flagHeader "Infer-age-enabled" config.inferAgeEnabled
  |> flagHeader "Infer-emotion-enabled" config.inferEmotionEnabled
  |> flagHeader "Infer-gender-enabled" config.inferGenderEnabled
  |> numberHeader "endpointer.headMargin" config.headMarginMilliseconds
  |> numberHeader "endpointer.tailMargin" config.tailMarginMilliseconds
  |> numberHeader "endpointer.waitEnd" config.waitEndMilliseconds
  |> flagHeader "decoder.continuousMode" config.continuousMode
  |> numberHeader "endpointer.maxSegmentDuration" config.maxSegmentDuration
  |> headerIf config.startInputTimers "decoder.startInputTimers" (decimal 1)
  |> numberHeader "endpointer.levelMode" config.endpointerLevelMode
  |> numberHeader "endpointer.autoLevelLen"
      (if config.endpointerLevelMode = 1 then config.endpointerAutoLevelLen else 0)
  |> numberHeader "endpointer.levelThreshold"
      (if config.endpointerLevelMode = 2 then config.endpointerLevelThreshold else 0)
  |> flagHeader "Ver-Buffer-Utterance" config.verifyBufferUtterance
  |> textHeader "licenseManager.accountTag" config.accountTag
  |> textHeader "Channel-Identifier" config.channelIdentifier
  |> textHeader "Media-Type" config.mediaType

/-- The request is for the method that it was created for. -/
theorem set_parameters_start_line (config : RecognitionConfig) :
    (setParameters config).startLine = firstLine .setParameters := by
  simp only [setParameters, numberHeader, flagHeader, textHeader, header_if_start_line]
  rfl

/-- The request that starts a recognition, from the URI if there is one and from the
grammar otherwise; none when both are empty, and the function throws. -/
def startRecognition (lm : LanguageModelList) : Option ASRMessageRequest :=
  let request := (ASRMessageRequest.create .startRecognition).setHeader
    (bytes "Accept") (bytes "application/json")
  let finish (request : ASRMessageRequest) (contentType : String) (extra : Bytes) :=
    ((request.setHeader (bytes "Content-Type") (bytes contentType)).setExtra extra).setHeader
      (bytes "Content-Length") (decimal extra.length)
  if lm.uri ≠ [] then some (finish request "text/uri-list" lm.uri)
  else if lm.grammarBody ≠ [] then
    some (finish (request.setHeader (bytes "Content-ID") (bytes "gram")) "application/srgs"
      lm.grammarBody)
  else none

/-- The request that carries one chunk of audio; a read that returned -1 is the last. -/
def sendAudio (ret : Int) (buffer : Bytes) : ASRMessageRequest :=
  let request := (ASRMessageRequest.create .sendAudio).setExtra buffer
  let request := request.setHeader (bytes "Content-Length") (decimal buffer.length)
  let request := request.setHeader (bytes "Content-Type") (bytes "application/octet-stream")
  request.setHeader (bytes "LastPacket") (if ret = -1 then bytes "true" else bytes "false")

/-- The request that cancels a recognition. -/
def cancelRecognition : ASRMessageRequest := ASRMessageRequest.create .cancelRecognition

end ASRSendMessage

end AsrClient
