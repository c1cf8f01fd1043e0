/-
**Conversions between 64-bit integers and numbers are exact, or they are refused.**

The ends of the integers are where this could fail: the smallest one has no opposite, and the number
nearest to the largest one is one too large.

* `Number.equal_iff`: finite numbers are equal if they stand for the same rational number.
* `Number.ofInt64_eq_ok`, `Number.exists_ofInt64_iff`: an integer up to `2 ^ 53 - 1` has a number,
  which stands for it and is truncated to it.
* `Number.truncate_eq_ok_iff`, `Number.exists_truncate_iff`: a finite number has an integer if the
  one toward zero is one of them, and it is no other.
* `conversions_exact`: **both together**, with what is refused.
-/

import Scriptlet.Proofs.Number.Exact

namespace Scriptlet

open scoped Powers

namespace Number

/-! ### Equal numbers -/

/-- **Finite numbers are equal if they stand for the same rational number.** -/
theorem equal_iff {left right : Number} {first second : ℚ} (leftValue : left.value? = some first)
    (rightValue : right.value? = some second) : left.equal right ↔ first = second := by
  have scale : (unitsPerOne : ℚ) ≠ 0 := Nat.cast_ne_zero.mpr unitsPerOne_pos.ne'
  cases left with
  | nan | infinite => cases leftValue
  | finite leftNegative leftMagnitude =>
    cases right with
    | nan | infinite => cases rightValue
    | finite rightNegative rightMagnitude =>
      obtain rfl := Option.some.inj leftValue
      obtain rfl := Option.some.inj rightValue
      rw [div_left_inj' scale, Int.cast_inj]
      exact decide_eq_true_iff

/-! ### Numbers of integers -/

section Integers

variable {integer : Int64}

theorem ofInt64_of_le (small : integer.toInt.natAbs ≤ 2 ^ 53 - 1) :
    ofInt64 integer = .ok (ofInt integer.toInt) :=
  if_pos small

theorem ofInt64_of_lt (large : 2 ^ 53 - 1 < integer.toInt.natAbs) :
    ofInt64 integer = .error (.inexact integer) :=
  if_neg (Nat.not_le_of_lt large)

/-- **An integer has a number** if it does not exceed `2 ^ 53 - 1`. -/
theorem exists_ofInt64_iff :
    (∃ number, ofInt64 integer = .ok number) ↔ integer.toInt.natAbs ≤ 2 ^ 53 - 1 := by
  constructor
  · rintro ⟨number, converted⟩
    by_contra large
    rw [ofInt64_of_lt (Nat.lt_of_not_le large)] at converted
    cases converted
  · intro small
    exact ⟨_, ofInt64_of_le small⟩

/-- **The number of an integer stands for it, and is truncated to it.** -/
theorem ofInt64_eq_ok {number : Number} (converted : ofInt64 integer = .ok number) :
    number.value? = some (integer.toInt : ℚ) ∧ number.truncate = .ok integer := by
  have small := exists_ofInt64_iff.mp ⟨number, converted⟩
  have short : (2 : ℕ) ^ 53 - 1 < 2 ^ significandBits := by decide
  have narrow : Narrow integer.toInt.natAbs := .of_lt (Nat.lt_of_le_of_lt small short)
  rw [ofInt64_of_le small] at converted
  obtain rfl := Except.ok.inj converted
  obtain ⟨result, truncated, same⟩ :=
    truncate_of_some (integerPart?_ofInt narrow integer.le_toInt integer.toInt_lt)
  rw [truncated, Int64.toInt_inj.mp same]
  exact ⟨value?_ofInt narrow (by omega), rfl⟩

end Integers

/-! ### Integers of numbers -/

section Numbers

variable {number : Number} {integer : Int64}

/-- **A number is truncated to an integer if this is the one toward zero.** -/
theorem truncate_eq_ok_iff :
    number.truncate = .ok integer ↔
      ∃ value, number.value? = some value ∧ towardZero value = integer.toInt := by
  constructor
  · intro truncated
    cases part : number.integerPart? with
    | none =>
      rw [truncate_of_none part] at truncated
      cases truncated
    | some found =>
      obtain ⟨result, same, rfl⟩ := truncate_of_some part
      obtain rfl := Except.ok.inj (same.symm.trans truncated)
      obtain ⟨value, stands, toward, -⟩ := integerPart?_eq_some_iff.mp part
      exact ⟨value, stands, toward⟩
  · rintro ⟨value, stands, toward⟩
    obtain ⟨result, truncated, same⟩ := truncate_of_some (integerPart?_eq_some_iff.mpr
      ⟨value, stands, toward, integer.le_toInt, integer.toInt_lt⟩)
    rw [truncated, Int64.toInt_inj.mp same]

/-- **A number is truncated if the integer toward zero fits.** -/
theorem exists_truncate_iff :
    (∃ integer, number.truncate = .ok integer) ↔
      ∃ value, number.value? = some value ∧
        -2 ^ 63 ≤ towardZero value ∧ towardZero value < 2 ^ 63 := by
  constructor
  · rintro ⟨integer, truncated⟩
    obtain ⟨value, stands, toward⟩ := truncate_eq_ok_iff.mp truncated
    refine ⟨value, stands, ?_⟩
    rw [toward]
    exact ⟨integer.le_toInt, integer.toInt_lt⟩
  · rintro ⟨value, stands, low, high⟩
    exact ⟨.ofInt (towardZero value), truncate_eq_ok_iff.mpr
      ⟨value, stands, (Int64.toInt_ofInt_of_le low high).symm⟩⟩

/-- A number is refused if there is no integer for it. -/
theorem truncate_eq_refusal (none : ¬ ∃ integer, number.truncate = .ok integer) :
    number.truncate = .error number.refusal := by
  cases part : number.integerPart? with
  | none => exact truncate_of_none part
  | some found =>
    obtain ⟨result, truncated, -⟩ := truncate_of_some part
    exact absurd ⟨result, truncated⟩ none

end Numbers

end Number

/-- **Conversions are exact, or they are refused.** A 64-bit integer has a number if and only if it
does not exceed `2 ^ 53 - 1` in magnitude; this number stands for it and is truncated to it, and no
other integer has an equal one. A number is truncated if and only if it is finite and the integer
that is reached from it by going toward zero is one of 64 bits; this is the result. What is refused
is named in the error. -/
theorem conversions_exact :
    (∀ integer : Int64,
      ((∃ number, Number.ofInt64 integer = .ok number) ↔
        integer.toInt.natAbs ≤ 2 ^ 53 - 1) ∧
      (2 ^ 53 - 1 < integer.toInt.natAbs → Number.ofInt64 integer = .error (.inexact integer)) ∧
      ∀ number, Number.ofInt64 integer = .ok number →
        number.value? = some (integer.toInt : ℚ) ∧ number.truncate = .ok integer) ∧
    (∀ first second firstNumber secondNumber, Number.ofInt64 first = .ok firstNumber →
      Number.ofInt64 second = .ok secondNumber →
      (firstNumber.equal secondNumber ↔ first = second)) ∧
    (∀ number : Number,
      ((∃ integer, number.truncate = .ok integer) ↔
        ∃ value, number.value? = some value ∧
          -2 ^ 63 ≤ towardZero value ∧ towardZero value < 2 ^ 63) ∧
      (∀ integer, number.truncate = .ok integer ↔
        ∃ value, number.value? = some value ∧ towardZero value = integer.toInt) ∧
      ((¬ ∃ integer, number.truncate = .ok integer) →
        number.truncate = .error number.refusal)) := by
  refine ⟨fun integer => ⟨Number.exists_ofInt64_iff, Number.ofInt64_of_lt,
      fun number => Number.ofInt64_eq_ok⟩,
    fun first second firstNumber secondNumber left right => ?_,
    fun number => ⟨Number.exists_truncate_iff, fun integer => Number.truncate_eq_ok_iff,
      Number.truncate_eq_refusal⟩⟩
  rw [Number.equal_iff (Number.ofInt64_eq_ok left).1 (Number.ofInt64_eq_ok right).1, Int.cast_inj,
    Int64.toInt_inj]

/-- The smallest integer has no number, though a number is truncated to it; the number that is one
above the largest integer is refused. -/
theorem conversions_exact_at_ends :
    Number.ofInt64 Int64.minValue = .error (.inexact Int64.minValue) ∧
      (Number.ofInt (-2 ^ 63)).truncate = .ok Int64.minValue ∧
      ¬ ∃ integer, (Number.ofInt (2 ^ 63)).truncate = .ok integer := by
  have narrow : Narrow (2 ^ 63) := ⟨1, 63, by decide, by decide⟩
  have low : (Number.ofInt (-2 ^ 63)).value? = some ((-2 ^ 63 : ℤ) : ℚ) :=
    Number.value?_ofInt narrow (by decide)
  have high : (Number.ofInt (2 ^ 63)).value? = some ((2 ^ 63 : ℤ) : ℚ) :=
    Number.value?_ofInt narrow (by decide)
  refine ⟨(conversions_exact.1 _).2.1 (by decide),
    ((conversions_exact.2.2 _).2.1 _).mpr ⟨_, low, by rw [Number.towardZero_intCast]; rfl⟩,
    fun truncated => ?_⟩
  obtain ⟨value, same, -, below⟩ := (conversions_exact.2.2 _).1.mp truncated
  obtain rfl := Option.some.inj (high.symm.trans same)
  rw [Number.towardZero_intCast] at below
  exact absurd below (by decide)

end Scriptlet
