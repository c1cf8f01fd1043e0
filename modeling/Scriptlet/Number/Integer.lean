/-
**Between numbers and 64-bit integers.**

* `Number.truncate`: the integer toward zero, refused when the number is not finite or the integer
  does not fit. Whether it fits is told by comparing numbers; the number nearest to the largest
  integer is one too large.
* `Number.ofInt`: the nearest number.
* `Number.ofInt64`: the number of an integer, refused beyond `2 ^ 53 - 1` in magnitude, where
  neighbouring integers may share one number.
-/

import Scriptlet.Number.Basic

namespace Scriptlet

open scoped Powers

/-- Why a conversion between numbers and integers is refused. -/
inductive ConversionFault where
  /-- Only finite numbers can be truncated. -/
  | notFinite (value : Number)
  /-- The truncated number is outside the 64-bit integers. -/
  | tooLarge (value : Number)
  /-- The integer may share its nearest number with another one. -/
  | inexact (integer : Int64)
  deriving DecidableEq

namespace Magnitude

/-- A count of units without the fraction of its number has no more significant bits. -/
theorem narrow_whole {units : Nat}
    (narrow : ∃ significand exponent : Nat, significand < 2 ^ significandBits ∧
      units = significand * 2 ^ exponent) :
    ∃ significand exponent : Nat, significand < 2 ^ significandBits ∧
      units / unitsPerOne * unitsPerOne = significand * 2 ^ exponent := by
  obtain ⟨significand, exponent, short, same⟩ := narrow
  rw [unitsPerOne]
  rcases Nat.le_total unitExponent exponent with inside | outside
  · have divides : 2 ^ unitExponent ∣ units := by
      rw [same]
      exact Nat.dvd_mul_left_of_dvd (Nat.pow_dvd_pow 2 inside) significand
    exact ⟨significand, exponent, short, (Nat.div_mul_cancel divides).trans same⟩
  · have small : units / 2 ^ unitExponent ≤ significand := by
      refine Nat.div_le_of_le_mul ?_
      rw [same, Nat.mul_comm]
      exact Nat.mul_le_mul_right _ (Nat.pow_le_pow_right (by decide) outside)
    exact ⟨units / 2 ^ unitExponent, unitExponent, Nat.lt_of_le_of_lt small short, rfl⟩

/-- A magnitude without its fraction. -/
def whole (magnitude : Magnitude) : Magnitude where
  units := magnitude.units / unitsPerOne * unitsPerOne
  narrow := narrow_whole magnitude.narrow
  below := Nat.lt_of_le_of_lt (Nat.div_mul_le_self ..) magnitude.below

end Magnitude

namespace Number

/-- The number nearest to an integer; zero is positive. -/
def ofInt (integer : Int) : Number :=
  ofRatio (decide (integer < 0)) (integer.natAbs * unitsPerOne) 1

/-- The integer reached from a finite number by going toward zero. -/
def truncated (negative : Bool) (magnitude : Magnitude) : Int :=
  signed negative (magnitude.units / unitsPerOne)

/-- A number without its fraction. -/
def whole : Number → Number
  | finite negative magnitude => finite negative magnitude.whole
  | value => value

/-- **The 64-bit integer toward zero**, or the end of the integers that a number lies beyond;
not-a-number becomes zero. -/
def saturated : Number → Int64
  | nan => 0
  | infinite negative => if negative then Int64.minValue else Int64.maxValue
  | finite negative magnitude =>
    .ofInt (max Int64.minValue.toInt (min (truncated negative magnitude) Int64.maxValue.toInt))

/-- Whether a whole number is no 64-bit integer, by the numbers nearest to the ends of these. -/
def isBeyondIntegers (whole : Number) : Bool :=
  whole.less (ofInt Int64.minValue.toInt) || (ofInt Int64.maxValue.toInt).lessEqual whole

/-- **Truncate to an integer.** -/
def truncate : Number → Except ConversionFault Int64
  | finite negative magnitude =>
    let whole := (finite negative magnitude).whole
    if whole.isBeyondIntegers then .error (.tooLarge (finite negative magnitude))
    else .ok whole.saturated
  | value => .error (.notFinite value)

/-- The largest integer up to which all integers are numbers of their own. -/
def largestExactInteger : Nat := 2 ^ significandBits - 1

/-- **Convert an integer exactly**, or refuse it. -/
def ofInt64 (integer : Int64) : Except ConversionFault Number :=
  if integer.toInt.natAbs ≤ largestExactInteger then .ok (ofInt integer.toInt)
  else .error (.inexact integer)

end Number

end Scriptlet
