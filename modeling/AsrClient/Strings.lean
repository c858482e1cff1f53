import Mathlib.Data.List.TakeWhile
import Mathlib.Data.Nat.Digits.Defs
import AsrClient.Bytes

/-!
# The string and number functions of the standard library

Only what the client uses: splitting at a delimiter as `std::getline` does, the
substring search of `std::string::find`, decimal output as `std::to_string` writes
it, and `std::stoi`. Character classes are those of ASCII; a byte above 127 belongs
to none of them.
-/

namespace AsrClient

/-- Carriage return. -/
def cr : Byte := 13

/-- Line feed. -/
def lf : Byte := 10

/-- The blank between words. -/
def space : Byte := 32

/-- The separator between a header's key and its value. -/
def colon : Byte := 58

/-- `isalpha`. -/
def isAlpha (c : Byte) : Bool := (65 ≤ c && c ≤ 90) || (97 ≤ c && c ≤ 122)

/-- `isdigit`. -/
def isDigit (c : Byte) : Bool := 48 ≤ c && c ≤ 57

/-- `isspace`: the blank and the five control characters from tab to carriage return. -/
def isSpace (c : Byte) : Bool := c == 32 || (9 ≤ c && c ≤ 13)

/-- The pieces that repeated `std::getline` calls read: what precedes each delimiter,
and a last piece without one unless it is empty. -/
def getlines (delim : Byte) : Bytes → List Bytes
  | [] => []
  | c :: rest =>
      if c = delim then [] :: getlines delim rest
      else match getlines delim rest with
        | [] => [[c]]
        | piece :: pieces => (c :: piece) :: pieces

/-- `std::string::find` answers a position: the pattern occurs somewhere. -/
def contains (text pattern : Bytes) : Bool := text.tails.any (pattern.isPrefixOf ·)

/-- `std::to_string` of an unsigned number. -/
def decimal (n : Nat) : Bytes :=
  if n = 0 then [48] else (Nat.digits 10 n).reverse.map (fun d => UInt8.ofNat (48 + d))

/-- The value of a run of decimal digits. -/
def numeral (digits : Bytes) : Nat := digits.foldl (fun value c => 10 * value + (c.toNat - 48)) 0

/-- The two ways in which `std::stoi` throws. -/
inductive StoiError where
  | invalidArgument
  | outOfRange
deriving DecidableEq

/-- The sign at the start of a numeral, and what follows it. -/
def sign : Bytes → Bool × Bytes
  | 45 :: rest => (true, rest)
  | 43 :: rest => (false, rest)
  | text => (false, text)

/-- `std::stoi`: white space, an optional sign, and as many digits as there are.
Whatever follows the digits is ignored. -/
def stoi (text : Bytes) : Except StoiError Int :=
  let (negative, rest) := sign (text.dropWhile isSpace)
  let digits := rest.takeWhile isDigit
  if digits = [] then .error .invalidArgument
  else
    let value : Int := if negative then -numeral digits else numeral digits
    if -2 ^ 31 ≤ value ∧ value < 2 ^ 31 then .ok value else .error .outOfRange

/-- A piece without the delimiter, closed by it, is the first piece read. -/
theorem getlines_first (delim : Byte) (piece rest : Bytes) (free : delim ∉ piece) :
    getlines delim (piece ++ delim :: rest) = piece :: getlines delim rest := by
  induction piece with
  | nil => simp [getlines]
  | cons c piece inductionHypothesis =>
    rw [List.mem_cons, not_or] at free
    obtain ⟨other, tail⟩ := free
    rw [List.cons_append, getlines, if_neg (Ne.symm other), inductionHypothesis tail]

/-- No piece contains the delimiter. -/
theorem getlines_free (delim : Byte) (text piece : Bytes) (member : piece ∈ getlines delim text) :
    delim ∉ piece := by
  induction text generalizing piece with
  | nil => cases member
  | cons c text inductionHypothesis =>
    rw [getlines] at member
    split_ifs at member with closes
    · rcases List.mem_cons.mp member with rfl | later
      · exact List.not_mem_nil
      · exact inductionHypothesis piece later
    · revert member inductionHypothesis
      cases getlines delim text with
      | nil =>
        intro _ member
        rw [List.mem_singleton.mp member]
        exact fun same => closes (List.mem_singleton.mp same).symm
      | cons first pieces =>
        intro inductionHypothesis member
        rcases List.mem_cons.mp member with rfl | later
        · exact List.not_mem_cons_of_ne_of_not_mem (fun same => closes same.symm)
            (inductionHypothesis first List.mem_cons_self)
        · exact inductionHypothesis piece (List.mem_cons_of_mem _ later)

/-- The digits are the ten byte values from 48. -/
theorem isDigit_iff (c : Byte) : isDigit c = true ↔ 48 ≤ c.toNat ∧ c.toNat ≤ 57 := by
  simp [isDigit, UInt8.le_iff_toNat_le]

/-- The character of a digit, as a byte value. -/
theorem digit_code (d : Nat) (small : d < 10) : (UInt8.ofNat (48 + d)).toNat = 48 + d :=
  UInt8.toNat_ofNat_of_lt' (by
    show 48 + d < 2 ^ 8
    omega)

/-- The characters written for a number are digits. -/
theorem decimal_digits (n : Nat) (c : Byte) (member : c ∈ decimal n) : isDigit c = true := by
  unfold decimal at member
  split_ifs at member with zero
  · simp only [List.mem_singleton] at member
    subst member
    decide
  · obtain ⟨d, isDigitOf, rfl⟩ := List.mem_map.mp member
    have small : d < 10 := Nat.digits_lt_base (by decide) (List.mem_reverse.mp isDigitOf)
    rw [isDigit_iff, digit_code d small]
    omega

/-- A number is written with at least one digit. -/
theorem decimal_ne_nil (n : Nat) : decimal n ≠ [] := by
  unfold decimal
  split_ifs with zero
  · simp
  · simp [Nat.digits_ne_nil_iff_ne_zero, zero]

/-- Reading the digits of a number in order restores it: each digit shifts the value
read so far by one decimal place. -/
theorem numeral_decimal (n : Nat) : numeral (decimal n) = n := by
  unfold decimal
  split_ifs with zero
  · simp [zero, numeral]
  · have digitwise (digits : List Nat) (small : ∀ d ∈ digits, d < 10) :
        numeral (digits.reverse.map (fun d => UInt8.ofNat (48 + d))) = Nat.ofDigits 10 digits := by
      induction digits with
      | nil => rfl
      | cons d digits inductionHypothesis =>
        have rest := inductionHypothesis (fun e member => small e (by simp [member]))
        simp only [numeral, List.reverse_cons, List.map_append, List.foldl_append] at rest ⊢
        rw [rest, Nat.ofDigits_cons]
        simp only [List.map_cons, List.map_nil, List.foldl_cons, List.foldl_nil,
          digit_code d (small d (by simp))]
        omega
    rw [digitwise _ (fun d member => Nat.digits_lt_base (by decide) member), Nat.ofDigits_digits]

/-- `std::stoi` restores every number within its range that `std::to_string` wrote. -/
theorem stoi_decimal (n : Nat) (small : n < 2 ^ 31) : stoi (decimal n) = .ok (n : Int) := by
  obtain ⟨first, rest, shape⟩ := List.exists_cons_of_ne_nil (decimal_ne_nil n)
  have digit : isDigit first = true := decimal_digits n first (by simp [shape])
  have code := (isDigit_iff first).mp digit
  have notSpace : isSpace first = false := by
    simp only [isSpace, Bool.or_eq_false_iff, beq_eq_false_iff_ne, Bool.and_eq_false_iff,
      decide_eq_false_iff_not, UInt8.le_iff_toNat_le]
    refine ⟨?_, Or.inr ?_⟩
    · rintro rfl
      exact absurd digit (by decide)
    · show ¬ first.toNat ≤ 13
      omega
  have unsigned : sign (first :: rest) = (false, first :: rest) := by
    unfold sign
    split
    · rename_i same
      obtain ⟨rfl, _⟩ := List.cons.inj same
      exact absurd digit (by decide)
    · rename_i same
      obtain ⟨rfl, _⟩ := List.cons.inj same
      exact absurd digit (by decide)
    · rfl
  have allDigits : (first :: rest).takeWhile isDigit = first :: rest := by
    rw [List.takeWhile_eq_self_iff]
    intro c member
    exact decimal_digits n c (by rwa [shape])
  have value : numeral (first :: rest) = n := by
    rw [← shape]
    exact numeral_decimal n
  unfold stoi
  simp only [shape, List.dropWhile_cons, notSpace, Bool.false_eq_true, ↓reduceIte, unsigned,
    allDigits, value, reduceCtorEq]
  rw [if_pos]
  omega

/-- A number that `std::stoi` accepts is an `int`. -/
theorem stoi_range (text : Bytes) (value : Int) (number : stoi text = .ok value) :
    -2 ^ 31 ≤ value ∧ value < 2 ^ 31 := by
  unfold stoi at number
  simp only at number
  split_ifs at number with empty negative inRange inRange
  · cases number
    exact inRange
  · cases number
    exact inRange

end AsrClient
