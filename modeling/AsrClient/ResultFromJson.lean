import Mathlib.Data.List.Forall2
import AsrClient.RecognitionResult

/-!
# What a result takes from its JSON body

The alternatives of the body become alternatives of the result, one for each, and the
loop over them also sets the classifiers, each time from the same members of the body.
The classifiers therefore do not depend on how many alternatives there are, except that
nothing sets them when there is none.

The code of the result is assigned from the status name of the body. A result without a
match that is given an alternative becomes a recognised one.
-/

namespace AsrClient

/-- An object that has members. -/
def Json.isFilled (json : Json) : Bool := json.isObject && !json.objectItems.isEmpty

/-- An alternative is the one of a JSON value: its text and score, its interpretations,
which are texts without a score, and its words with their texts and scores. -/
structure Alternative.Carries (k : Json) (alt : Alternative) : Prop where
  text : alt.text = (k.get (bytes "text")).stringValue
  confidence : alt.confidence = (k.get (bytes "score")).intValue
  interpretations : List.Forall₂
    (fun interp carried => carried.text = interp.stringValue ∧ carried.confidence = 0)
    (k.get (bytes "interpretations")).arrayItems alt.interpretations
  words : List.Forall₂
    (fun word carried => carried.text = (word.get (bytes "text")).stringValue ∧
      carried.confidence = (word.get (bytes "score")).intValue)
    (k.get (bytes "words")).arrayItems alt.words

/-- A classifier holds what is read from its scores when they are filled, and is left
empty otherwise. -/
def HoldsScore (scores : Json) (read held : Bytes) : Prop :=
  held = if scores.isFilled then read else []

/-- A result has everything that the body has. -/
structure CarriedOver (json : Json) (result : RecognitionResult) : Prop where
  alternatives : List.Forall₂ Alternative.Carries (json.get (bytes "alternatives")).arrayItems
    result.alternatives
  age : HoldsScore (json.get (bytes "age_scores"))
    (decimalFraction ((json.get (bytes "age_scores")).get (bytes "age")).numberValue)
    result.classifiers.age
  emotion : HoldsScore (json.get (bytes "emotion_scores"))
    ((json.get (bytes "emotion_scores")).get (bytes "emotion")).stringValue
    result.classifiers.emotion
  gender : HoldsScore (json.get (bytes "gender_scores"))
    ((json.get (bytes "gender_scores")).get (bytes "gender")).stringValue
    result.classifiers.gender

/-- A body with nothing for the classifiers: no age, and no text for the two others. -/
structure Scoreless (json : Json) : Prop where
  age : (json.get (bytes "age_scores")).isFilled = false
  emotion : (json.get (bytes "emotion_scores")).isFilled = true →
    ((json.get (bytes "emotion_scores")).get (bytes "emotion")).stringValue = []
  gender : (json.get (bytes "gender_scores")).isFilled = true →
    ((json.get (bytes "gender_scores")).get (bytes "gender")).stringValue = []

/-- The names of the codes differ. -/
theorem RecognitionResult.get_string_inj {c d : Code} :
    RecognitionResult.getString c = RecognitionResult.getString d ↔ c = d := by
  refine ⟨fun same => ?_, congrArg RecognitionResult.getString⟩
  cases c <;> cases d <;> first | rfl | exact absurd same (by decide)

/-- The name of a code assigns it, except that processing counts as no match. -/
theorem of_string_name (c : Code) :
    (RecognitionResult.ofString (RecognitionResult.getString c)).resultStatus =
      some (if c = .processing then .noMatch else c) := by
  cases c <;> decide

/-- An alternative read from a JSON value is the one of that value. -/
theorem alternative_carries (k : Json) : Alternative.Carries k (alternativeFromJson k) where
  text := rfl
  confidence := rfl
  interpretations := by
    rw [alternativeFromJson, List.forall₂_map_right_iff, List.forall₂_same]
    exact fun interp _ => ⟨rfl, rfl⟩
  words := by
    rw [alternativeFromJson, List.forall₂_map_right_iff, List.forall₂_same]
    exact fun word _ => ⟨rfl, rfl⟩

/-- The scores are read when they are filled, and the former value stays otherwise. -/
theorem score_from_json (json : Json) (scores : String) (value : Json → Bytes) (former : Bytes) :
    (scoreFromJson json scores value).getD former =
      if (json.get (bytes scores)).isFilled then value (json.get (bytes scores)) else former := by
  rw [scoreFromJson, Json.isFilled]
  split_ifs <;> rfl

/-- Setting the classifiers again changes nothing. -/
theorem classifiers_again (json : Json) (classifiers : Classifier) :
    classifiersFromJson json (classifiersFromJson json classifiers) =
      classifiersFromJson json classifiers := by
  simp only [classifiersFromJson, score_from_json, Classifier.mk.injEq]
  refine ⟨?_, ?_, ?_⟩ <;> split_ifs <;> rfl

/-- The loop adds one alternative for each item, and sets the code and the classifiers if
there is one.

The induction is on the items. A further alternative finds no result without a match, and
sets the classifiers to what they are. -/
theorem alternatives_fold (json : Json) (items : List Json) (res : RecognitionResult) :
    items.foldl
      (fun res k =>
        let res := res.addAlternatives (alternativeFromJson k)
        { res with classifiers := classifiersFromJson json res.classifiers }) res =
      { res with
        resultStatus := if items ≠ [] ∧ res.resultStatus = some .noMatch then some .recognized
          else res.resultStatus
        alternatives := res.alternatives ++ items.map alternativeFromJson
        classifiers := if items = [] then res.classifiers
          else classifiersFromJson json res.classifiers } := by
  induction items generalizing res with
  | nil => simp
  | cons k items inductionHypothesis =>
    rw [List.foldl_cons, inductionHypothesis]
    simp only [RecognitionResult.addAlternatives, List.append_assoc, List.singleton_append,
      List.map_cons, classifiers_again, ite_self, reduceCtorEq, if_false,
      RecognitionResult.mk.injEq, and_true, ne_eq, not_false_eq_true, true_and]
    by_cases noMatch : res.resultStatus = some .noMatch
    · simp [noMatch]
    · simp [noMatch]

section Result

variable (json : Json)

/-- The code of a result from JSON. -/
theorem from_json_code : (recognitionResultFromJson json).resultStatus =
    if (json.get (bytes "alternatives")).arrayItems ≠ [] ∧
        (RecognitionResult.ofString (json.get (bytes "result_status")).stringValue).resultStatus =
          some .noMatch then some .recognized
    else (RecognitionResult.ofString (json.get (bytes "result_status")).stringValue).resultStatus := by
  rw [recognitionResultFromJson, alternatives_fold]

/-- The alternatives of a result from JSON. -/
theorem from_json_alternatives : (recognitionResultFromJson json).alternatives =
    (json.get (bytes "alternatives")).arrayItems.map alternativeFromJson := by
  rw [recognitionResultFromJson, alternatives_fold]
  rfl

/-- The classifiers of a result from JSON. -/
theorem from_json_classifiers : (recognitionResultFromJson json).classifiers =
    if (json.get (bytes "alternatives")).arrayItems = [] then {}
    else classifiersFromJson json {} := by
  rw [recognitionResultFromJson, alternatives_fold]
  rfl

/-- A result from JSON does not say whether it is of the last segment. -/
theorem from_json_last_segment : (recognitionResultFromJson json).lastSegment = none := by
  rw [recognitionResultFromJson, alternatives_fold]
  rfl

end Result

/-- A number is never written as the empty text. -/
theorem decimal_fraction_ne_nil (value : BinaryFormat.Number) : decimalFraction value ≠ [] := by
  cases value with
  | finite negative significand exponent => simp [decimalFraction, decimal_ne_nil]
  | infinite negative => exact List.append_ne_nil_of_right_ne_nil _ (by decide)

/-- The classifiers that were set hold the scores. -/
theorem classifiers_hold (json : Json) :
    HoldsScore (json.get (bytes "age_scores"))
        (decimalFraction ((json.get (bytes "age_scores")).get (bytes "age")).numberValue)
        (classifiersFromJson json {}).age ∧
      HoldsScore (json.get (bytes "emotion_scores"))
        ((json.get (bytes "emotion_scores")).get (bytes "emotion")).stringValue
        (classifiersFromJson json {}).emotion ∧
      HoldsScore (json.get (bytes "gender_scores"))
        ((json.get (bytes "gender_scores")).get (bytes "gender")).stringValue
        (classifiersFromJson json {}).gender :=
  ⟨score_from_json .., score_from_json .., score_from_json ..⟩

/-- The classifiers that were not set hold the scores when there is nothing to hold. -/
theorem empty_holds_iff (scores : Json) (read : Bytes) :
    HoldsScore scores read [] ↔ (scores.isFilled = true → read = []) := by
  rw [HoldsScore]
  split_ifs with filled
  · simp [filled, eq_comm]
  · simp [filled]

/-- A result from JSON has everything that the body has exactly when there is an
alternative, or nothing for the classifiers. -/
theorem carried_over_iff (json : Json) : CarriedOver json (recognitionResultFromJson json) ↔
    (json.get (bytes "alternatives")).arrayItems ≠ [] ∨ Scoreless json := by
  have alternatives : List.Forall₂ Alternative.Carries
      (json.get (bytes "alternatives")).arrayItems
      (recognitionResultFromJson json).alternatives := by
    rw [from_json_alternatives, List.forall₂_map_right_iff, List.forall₂_same]
    exact fun k _ => alternative_carries k
  have classifiers := from_json_classifiers json
  by_cases none : (json.get (bytes "alternatives")).arrayItems = []
  · rw [if_pos none] at classifiers
    constructor
    · intro carried
      have age := carried.age
      have emotion := carried.emotion
      have gender := carried.gender
      rw [classifiers, empty_holds_iff] at age emotion gender
      refine Or.inr ⟨?_, emotion, gender⟩
      rw [Bool.eq_false_iff]
      exact fun filled => decimal_fraction_ne_nil _ (age filled)
    · intro either
      have scoreless := either.resolve_left (not_not_intro none)
      refine ⟨alternatives, ?_, ?_, ?_⟩
      · rw [classifiers, empty_holds_iff]
        exact fun filled => absurd (filled.symm.trans scoreless.age) (by decide)
      · rw [classifiers, empty_holds_iff]
        exact scoreless.emotion
      · rw [classifiers, empty_holds_iff]
        exact scoreless.gender
  · rw [if_neg none] at classifiers
    obtain ⟨age, emotion, gender⟩ := classifiers_hold json
    exact ⟨fun _ => Or.inl none, fun _ => ⟨alternatives, classifiers ▸ age,
      classifiers ▸ emotion, classifiers ▸ gender⟩⟩

/-- A body with an age and no alternative: the age is lost. -/
theorem age_lost_without_alternatives :
    ¬ ∀ json : Json, CarriedOver json (recognitionResultFromJson json) := by
  intro always
  have age := (always (.object [(bytes "result_status", .string (bytes "NO_MATCH")),
    (bytes "alternatives", .array []),
    (bytes "age_scores", .object [(bytes "age", .number (.ofInt 30))])])).age
  rw [HoldsScore, if_pos (by decide), eq_comm] at age
  exact decimal_fraction_ne_nil _ age

end AsrClient
