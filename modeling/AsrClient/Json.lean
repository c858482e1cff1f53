import AsrClient.Bytes
import AsrClient.Library.BinaryFormat

/-!
# JSON values

The body of a recognition result is JSON text, parsed by a library that is not part of
the client. The values and the accessors follow the library's documentation: every
accessor is total, and answers a neutral value for a value of another kind. The parser
itself is a parameter of the development.

A number is what the library keeps of its text: a floating-point number of eight bytes,
or an `int`, which is one as well. No text denotes a value that is not a number.
-/

namespace AsrClient

open BinaryFormat

/-- A JSON value. The members of an object have distinct names. -/
inductive Json where
  | null
  | bool (value : Bool)
  | number (value : Number)
  | string (value : Bytes)
  | array (items : List Json)
  | object (members : List (Bytes × Json))

namespace Json

/-- `is_bool`. -/
def isBool : Json → Bool
  | bool _ => true
  | _ => false

/-- `is_number`. -/
def isNumber : Json → Bool
  | number _ => true
  | _ => false

/-- `is_object`. -/
def isObject : Json → Bool
  | object _ => true
  | _ => false

/-- `bool_value`. -/
def boolValue : Json → Bool
  | bool value => value
  | _ => false

/-- `number_value`. -/
def numberValue : Json → Number
  | number value => value
  | _ => .ofInt 0

/-- The conversion to `int`: a fraction is cut off. A value outside of the range has no
defined result; processors give the least value. -/
def toInt (value : Number) : Int32 :=
  match value.truncate with
  | none => Int32.minValue
  | some whole =>
      if Int32.minValue.toInt ≤ whole ∧ whole ≤ Int32.maxValue.toInt then Int32.ofInt whole
      else Int32.minValue

/-- `int_value`. -/
def intValue : Json → Int32
  | number value => toInt value
  | _ => 0

/-- A whole number in the range of `int` is read as it is. -/
theorem int_value_whole (value : Int32) : (number (.ofInt value.toInt)).intValue = value := by
  have atLeast : Int32.minValue.toInt ≤ value.toInt := Int32.minValue_le_toInt value
  have atMost : value.toInt ≤ Int32.maxValue.toInt := Int32.toInt_le value
  rw [intValue, toInt, Number.truncate_of_int]
  simp only [atLeast, atMost, and_self, if_true, Int32.ofInt_toInt]

/-- `string_value`. -/
def stringValue : Json → Bytes
  | string value => value
  | _ => []

/-- `array_items`. -/
def arrayItems : Json → List Json
  | array items => items
  | _ => []

/-- `object_items`. -/
def objectItems : Json → List (Bytes × Json)
  | object members => members
  | _ => []

/-- The `[]` operator on a name: a missing member reads as null. -/
def get (json : Json) (key : Bytes) : Json := (json.objectItems.lookup key).getD null

end Json

end AsrClient
