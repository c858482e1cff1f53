import AsrClient.Json
import AsrClient.Message

/-!
# Recognition results

The values that the application receives: results with their alternatives, partial
results and errors. A field that a constructor leaves without a value is none here; the
program would read an indeterminate value from it.

`recognitionResultFromJson` and `partialRecognitionFromJson` convert the body of a
message. The second reads the first alternative without asking whether there is one.
-/

namespace AsrClient

open BinaryFormat

/-- The codes of a result. -/
inductive Code where
  | processing
  | recognized
  | noMatch
  | noInputTimeout
  | maxSpeech
  | earlySpeech
  | recognitionTimeout
  | noSpeech
  | canceled
  | failure
deriving DecidableEq

/-- One reading of a sentence. -/
structure Interpretation where
  text : Bytes
  confidence : Int32
deriving DecidableEq

/-- One word of a sentence. The times are floating-point numbers of four bytes. -/
structure Word where
  text : Bytes
  confidence : Int32
  startTime : Number
  endTime : Number
deriving DecidableEq

/-- One recognised sentence. -/
structure Alternative where
  langModel : Bytes := []
  text : Bytes := []
  confidence : Int32 := 0
  interpretations : List Interpretation := []
  words : List Word := []
deriving DecidableEq

/-- The speaker classification; an empty text is a missing value. -/
structure Classifier where
  age : Bytes := []
  emotion : Bytes := []
  gender : Bytes := []
deriving DecidableEq

/-- A recognition result. -/
structure RecognitionResult where
  resultStatus : Option Code
  lastSegment : Option Bool := none
  alternatives : List Alternative := []
  classifiers : Classifier := {}
  startTime : Number := single.ofNumber (.ofInt (-1))
  endTime : Number := single.ofNumber (.ofInt (-1))
deriving DecidableEq

/-- A partial result. -/
structure PartialRecognition where
  text : Bytes
  speechSegmentIndex : Int32
deriving DecidableEq

namespace RecognitionResult

/-- `RecognitionResult::getString`. -/
def getString : Code → Bytes
  | .processing => bytes "PROCESSING"
  | .recognized => bytes "RECOGNIZED"
  | .noMatch => bytes "NO_MATCH"
  | .noInputTimeout => bytes "NO_INPUT_TIMEOUT"
  | .maxSpeech => bytes "MAX_SPEECH"
  | .earlySpeech => bytes "EARLY_SPEECH"
  | .recognitionTimeout => bytes "RECOGNITION_TIMEOUT"
  | .noSpeech => bytes "NO_SPEECH"
  | .canceled => bytes "CANCELED"
  | .failure => bytes "FAILURE"

/-- The constructor from a status name; a name that is none of the ten assigns no code. -/
def ofString (status : Bytes) : RecognitionResult where
  resultStatus :=
    if status = bytes "PROCESSING" then some .noMatch
    else if status = bytes "RECOGNIZED" then some .recognized
    else if status = bytes "NO_MATCH" then some .noMatch
    else if status = bytes "NO_INPUT_TIMEOUT" then some .noInputTimeout
    else if status = bytes "MAX_SPEECH" then some .maxSpeech
    else if status = bytes "EARLY_SPEECH" then some .earlySpeech
    else if status = bytes "RECOGNITION_TIMEOUT" then some .recognitionTimeout
    else if status = bytes "NO_SPEECH" then some .noSpeech
    else if status = bytes "CANCELED" then some .canceled
    else if status = bytes "FAILURE" then some .failure
    else none

/-- `addAlternatives`: the first alternative of a result without a match makes it a
recognised one. -/
def addAlternatives (result : RecognitionResult) (alt : Alternative) : RecognitionResult :=
  { result with
    resultStatus := if result.resultStatus = some .noMatch then some .recognized
      else result.resultStatus
    alternatives := result.alternatives ++ [alt] }

end RecognitionResult

/-- The minus sign of a negative number. -/
def minus (negative : Bool) : Bytes := if negative then bytes "-" else []

/-- `std::to_string` of a double: six decimals, rounded to the nearest, and halfway to the
even one. -/
def decimalFraction : Number → Bytes
  | .infinite negative => minus negative ++ bytes "inf"
  | .finite negative significand exponent =>
      let millionths := nearestEven ((ratio significand exponent).1 * 1000000)
        (ratio significand exponent).2
      let fraction := decimal (millionths % 1000000)
      minus negative ++ decimal (millionths / 1000000) ++ bytes "." ++
        List.replicate (6 - fraction.length) 48 ++ fraction

/-- Halfway between two decimals the even one is written. -/
example : decimalFraction (double.round false 1 128) = bytes "0.007812" := by decide +kernel

/-- One element of `words`. -/
def wordFromJson (word : Json) : Word where
  text := (word.get (bytes "text")).stringValue
  confidence := (word.get (bytes "score")).intValue
  startTime := single.ofNumber (word.get (bytes "start_time")).numberValue
  endTime := single.ofNumber (word.get (bytes "end_time")).numberValue

/-- One element of `alternatives`. An interpretation carries no confidence. -/
def alternativeFromJson (k : Json) : Alternative where
  text := (k.get (bytes "text")).stringValue
  confidence := (k.get (bytes "score")).intValue
  interpretations := (k.get (bytes "interpretations")).arrayItems.map
    fun interp => ⟨interp.stringValue, 0⟩
  words := (k.get (bytes "words")).arrayItems.map wordFromJson

/-- One of the score objects: its value when the object is there and not empty. -/
def scoreFromJson (json : Json) (scores : String) (value : Json → Bytes) : Option Bytes :=
  let field := json.get (bytes scores)
  if field.isObject && !field.objectItems.isEmpty then some (value field) else none

/-- The classifiers, set again from the same object for each alternative. -/
def classifiersFromJson (json : Json) (classifiers : Classifier) : Classifier where
  age := (scoreFromJson json "age_scores" fun scores =>
    decimalFraction (scores.get (bytes "age")).numberValue).getD classifiers.age
  emotion := (scoreFromJson json "emotion_scores" fun scores =>
    (scores.get (bytes "emotion")).stringValue).getD classifiers.emotion
  gender := (scoreFromJson json "gender_scores" fun scores =>
    (scores.get (bytes "gender")).stringValue).getD classifiers.gender

/-- `recognitionResultFromJson`. -/
def recognitionResultFromJson (json : Json) : RecognitionResult :=
  (json.get (bytes "alternatives")).arrayItems.foldl
    (fun res k =>
      let res := res.addAlternatives (alternativeFromJson k)
      { res with classifiers := classifiersFromJson json res.classifiers })
    (RecognitionResult.ofString (json.get (bytes "result_status")).stringValue)

/-- `partialRecognitionFromJson`; none when there is no first alternative. -/
def partialRecognitionFromJson (json : Json) : Option PartialRecognition :=
  (json.get (bytes "alternatives")).arrayItems[0]?.map fun k =>
    { text := (k.get (bytes "text")).stringValue
      speechSegmentIndex := if (json.get (bytes "segment_index")).isNumber then
        (json.get (bytes "segment_index")).intValue else 0 }

/-- The codes of an error. -/
inductive ErrorCode where
  | failure
  | sessionTimeout
  | connectionFailure
  | activeRecognition
deriving DecidableEq

/-- An error with its message, as the listeners receive it and the exception carries it. -/
structure RecognitionError where
  code : ErrorCode
  message : Bytes := []
deriving DecidableEq

end AsrClient
