import Mathlib.Algebra.Group.Int.Defs
import Mathlib.Algebra.Group.Nat.Defs
import Mathlib.Data.Int.Order.Basic
import Mathlib.Tactic.SplitIfs

/-!
# Binary floating-point numbers

A finite number is a sign, a significand and a power of two; beside them there are the two
infinities. The sign of zero is kept. A format tells how many bits a significand has, and
which powers of two there are. A ratio is rounded to the nearest number of the format, and
halfway between two of them to the even one; it overflows to an infinity.
-/

namespace BinaryFormat

/-- A number of a binary format: the significand times a power of two, or an infinity. -/
inductive Number where
  | finite (negative : Bool) (significand : Nat) (exponent : Int)
  | infinite (negative : Bool)
deriving DecidableEq

/-- A format: the bits of a significand, the least power of two, and the power from which on
nothing is finite. -/
structure Format where
  precision : Nat
  least : Int
  bound : Nat

/-- Four bytes. -/
def single : Format := ⟨24, -149, 128⟩

/-- Eight bytes. -/
def double : Format := ⟨53, -1074, 1024⟩

/-- The natural number nearest to a ratio; halfway, the even one. -/
def nearestEven (numerator denominator : Nat) : Nat :=
  let quotient := numerator / denominator
  let twice := 2 * (numerator % denominator)
  if twice < denominator ∨ (twice = denominator ∧ quotient % 2 = 0) then quotient
  else quotient + 1

/-- The numerator and the denominator of a significand times a power of two. -/
def ratio (significand : Nat) (exponent : Int) : Nat × Nat :=
  (significand * 2 ^ exponent.toNat, 2 ^ (-exponent).toNat)

/-- The greatest power of two that is at most the ratio of positive numbers. -/
def binade (numerator denominator : Nat) : Int :=
  let guess : Int := (numerator.log2 : Int) - (denominator.log2 : Int)
  if numerator * 2 ^ (-guess).toNat < denominator * 2 ^ guess.toNat then guess - 1 else guess

namespace Format

/-- Round a ratio with a sign to the format. -/
def round (format : Format) (negative : Bool) (numerator denominator : Nat) : Number :=
  let exponent := max (binade numerator denominator - (format.precision - 1)) format.least
  let significand := nearestEven (numerator * 2 ^ (-exponent).toNat)
    (denominator * 2 ^ exponent.toNat)
  if 2 ^ format.bound * (ratio significand exponent).2 ≤ (ratio significand exponent).1 then
    .infinite negative
  else .finite negative significand exponent

/-- Convert a number of another format. -/
def ofNumber (format : Format) : Number → Number
  | .finite negative significand exponent =>
      format.round negative (ratio significand exponent).1 (ratio significand exponent).2
  | .infinite negative => .infinite negative

end Format

namespace Number

/-- A whole number. -/
def ofInt (value : Int) : Number := .finite (value < 0) value.natAbs 0

/-- The whole part of a finite number: the fraction is cut off. -/
def truncate : Number → Option Int
  | .finite negative significand exponent =>
      let whole := (ratio significand exponent).1 / (ratio significand exponent).2
      some (if negative then -whole else whole)
  | .infinite _ => none

/-- A whole number is its own whole part. -/
theorem truncate_of_int (value : Int) : (ofInt value).truncate = some value := by
  simp only [ofInt, truncate, ratio, Int.toNat_zero, Int.neg_zero, pow_zero, Nat.mul_one,
    Nat.div_one, decide_eq_true_eq, Option.some.injEq]
  split_ifs with negative <;> omega

end Number

end BinaryFormat
