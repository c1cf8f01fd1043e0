/-
**Remainders are exact.**

A remainder is taken on 64-bit integers and becomes a number again, which could round: such integers
have up to 63 bits and numbers have 53. It never does. Both operands came from numbers, so each is a
multiple of a power of two with at most 53 bits in front; the remainder is a multiple of the lower
of the two powers and is no larger than either operand (`Narrow.mod`).

* `Number.narrow_of_integerPart?`: the integer of a number is narrow.
* `Number.ExactRemainder`: what is said of a remainder; `Number.exactRemainder_ofInt`: it holds of
  the number of the integers' remainder.
* `modulo_exact`: **the remainder of any two numbers is exact, or it is refused**, and which of the
  two it is depends on the integers of both alone.
-/

import Scriptlet.Operation
import Scriptlet.Proofs.Number.Exact

namespace Scriptlet

open scoped Powers

namespace Number

/-! ### Integers of numbers -/

/-- **The integer of a number is narrow**: it has the number's own bits, without the lowest ones. -/
theorem narrow_of_integerPart? {number : Number} {integer : ℤ}
    (part : number.integerPart? = some integer) : Narrow integer.natAbs := by
  obtain ⟨value, same, toward, -⟩ := integerPart?_eq_some_iff.mp part
  cases number with
  | nan | infinite => cases same
  | finite negative magnitude =>
    obtain rfl := Option.some.inj same
    have size : integer.natAbs = magnitude.units / unitsPerOne := by
      rw [← toward, towardZero_signed, signed]
      split
      · rw [Int.natAbs_neg, Int.natAbs_natCast]
      · exact Int.natAbs_natCast _
    rw [size]
    exact Narrow.div_two_pow magnitude.narrow unitExponent

theorem natAbs_le_of_integerPart? {number : Number} {integer : ℤ}
    (part : number.integerPart? = some integer) : integer.natAbs ≤ 2 ^ 63 := by
  obtain ⟨value, -, -, low, high⟩ := integerPart?_eq_some_iff.mp part
  omega

/-- A number is on the same side of zero as its integer. -/
theorem pos_of_towardZero_pos {value : ℚ} (positive : 0 < towardZero value) : 0 < value := by
  by_contra other
  have below : ⌈value⌉ ≤ 0 := Int.ceil_le.mpr (by simpa using other)
  have bottom : ⌊value⌋ ≤ 0 := (Int.floor_le_ceil value).trans below
  unfold towardZero at positive
  split at positive <;> omega

theorem neg_of_towardZero_neg {value : ℚ} (negative : towardZero value < 0) : value < 0 := by
  by_contra other
  have above : 0 ≤ ⌊value⌋ := Int.floor_nonneg.mpr (not_lt.mp other)
  rw [towardZero, if_pos (not_lt.mp other)] at negative
  omega

/-! ### The remainder of two integers -/

/-- **An exact remainder**: the number stands for what is left of the dividend behind the multiples
of the divisor, with their count taken toward zero. -/
structure ExactRemainder (result left : Number) (dividend divisor : ℤ) : Prop where
  exact : result.value? = some ((dividend - divisor * dividend.tdiv divisor : ℤ) : ℚ)
  smaller : |dividend - divisor * dividend.tdiv divisor| < |divisor|
  /-- It is zero or on the side of zero on which the left operand is. -/
  sign : ∀ {value remainder}, left.value? = some value → result.value? = some remainder →
    remainder = 0 ∨ (0 < remainder ∧ 0 < value) ∨ (remainder < 0 ∧ value < 0)
  /-- A remainder of zero has no sign. -/
  unsigned : result ≠ .zero true

/-- A remainder has the sign of its dividend. -/
theorem tmod_sign (dividend divisor : ℤ) :
    (0 < dividend.tmod divisor → 0 < dividend) ∧ (dividend.tmod divisor < 0 → dividend < 0) := by
  have sign := Int.sign_tmod dividend divisor
  constructor
  · intro positive
    rw [Int.sign_eq_one_of_pos positive] at sign
    split at sign
    · omega
    · exact Int.sign_eq_one_iff_pos.mp sign.symm
  · intro negative
    rw [Int.sign_eq_neg_one_of_neg negative] at sign
    split at sign
    · omega
    · exact Int.sign_eq_neg_one_iff_neg.mp sign.symm

/-- **The number of the integers' remainder is exact.** -/
theorem exactRemainder_ofInt {left right : Number} {dividend divisor : ℤ}
    (above : left.integerPart? = some dividend) (below : right.integerPart? = some divisor)
    (nonzero : divisor ≠ 0) :
    (ofInt (dividend.tmod divisor)).ExactRemainder left dividend divisor := by
  have positive : 0 < divisor.natAbs := Int.natAbs_pos.mpr nonzero
  have bound : (dividend.tmod divisor).natAbs < divisor.natAbs := by
    rw [Int.natAbs_tmod]
    exact Nat.mod_lt _ positive
  have narrow : Narrow (dividend.tmod divisor).natAbs := by
    rw [Int.natAbs_tmod]
    exact (narrow_of_integerPart? above).mod (narrow_of_integerPart? below) positive
  have small : (dividend.tmod divisor).natAbs ≤ 2 ^ 63 :=
    bound.le.trans (natAbs_le_of_integerPart? below)
  have value := value?_ofInt narrow small
  refine ⟨?_, ?_, ?_, ofInt_ne_zero narrow small⟩
  · rw [value, Int.tmod_def]
  · rw [← Int.tmod_def, Int.abs_eq_natAbs, Int.abs_eq_natAbs]
    exact_mod_cast bound
  · intro leftValue remainder leftSame remainderSame
    obtain ⟨_, again, rfl, -⟩ := integerPart?_eq_some_iff.mp above
    obtain rfl := Option.some.inj (leftSame.symm.trans again)
    obtain rfl := Option.some.inj (value.symm.trans remainderSame)
    obtain ⟨up, down⟩ := tmod_sign (towardZero leftValue) divisor
    rcases lt_trichotomy ((towardZero leftValue).tmod divisor) 0 with negative | zero | positive
    · exact .inr (.inr ⟨Int.cast_lt_zero.mpr negative, neg_of_towardZero_neg (down negative)⟩)
    · exact .inl (Int.cast_eq_zero.mpr zero)
    · exact .inr (.inl ⟨Int.cast_pos.mpr positive, pos_of_towardZero_pos (up positive)⟩)

/-! ### The remainder of two numbers -/

variable {left right : Number}

theorem remainder_of_divisor_none (below : right.integerPart? = none) :
    left.remainder right = .error (.conversion right.refusal) := by
  rw [remainder, truncate_of_none below]
  rfl

theorem remainder_of_divisor_zero (below : right.integerPart? = some 0) :
    left.remainder right = .error .divisionByZero := by
  obtain ⟨divisor, truncated, same⟩ := truncate_of_some below
  obtain rfl : divisor = 0 := Int64.toInt_inj.mp same
  rw [remainder, truncated]
  rfl

/-- Behind a divisor that is not zero the dividend is truncated. -/
theorem remainder_of_divisor {divisor : Int64} (truncated : right.truncate = .ok divisor)
    (nonzero : divisor ≠ 0) :
    left.remainder right =
      (left.truncate.mapError .conversion).map
        fun dividend => ofInt (dividend % divisor).toInt := by
  rw [remainder, truncated]
  change (if divisor = 0 then _ else _) = _
  rw [if_neg nonzero]
  cases left.truncate <;> rfl

theorem remainder_of_dividend_none {divisor : ℤ} (below : right.integerPart? = some divisor)
    (nonzero : divisor ≠ 0) (above : left.integerPart? = none) :
    left.remainder right = .error (.conversion left.refusal) := by
  obtain ⟨found, truncated, rfl⟩ := truncate_of_some below
  have solid : found ≠ 0 := fun zero => nonzero (zero ▸ rfl)
  rw [remainder_of_divisor truncated solid, truncate_of_none above]
  rfl

theorem remainder_of_some {dividend divisor : ℤ} (below : right.integerPart? = some divisor)
    (nonzero : divisor ≠ 0) (above : left.integerPart? = some dividend) :
    left.remainder right = .ok (ofInt (dividend.tmod divisor)) := by
  obtain ⟨found, truncated, rfl⟩ := truncate_of_some below
  obtain ⟨other, again, rfl⟩ := truncate_of_some above
  have solid : found ≠ 0 := fun zero => nonzero (zero ▸ rfl)
  rw [remainder_of_divisor truncated solid, again, ← Int64.toInt_mod]
  rfl

end Number

/-- **The remainder of any two numbers is exact, or it is refused.** It is refused if the divisor
has no 64-bit integer, if that integer is zero, or if the dividend has none, in this order. Else the
result stands for the integers' remainder, whatever the operands are. -/
theorem modulo_exact (left right : Number) :
    (right.integerPart? = none →
      Value.arithmetic .modulo (.number left) (.number right) =
        .error (.conversion right.refusal)) ∧
    (right.integerPart? = some 0 →
      Value.arithmetic .modulo (.number left) (.number right) = .error .divisionByZero) ∧
    (∀ divisor, right.integerPart? = some divisor → divisor ≠ 0 → left.integerPart? = none →
      Value.arithmetic .modulo (.number left) (.number right) =
        .error (.conversion left.refusal)) ∧
    (∀ divisor dividend, right.integerPart? = some divisor → divisor ≠ 0 →
      left.integerPart? = some dividend →
      ∃ result, Value.arithmetic .modulo (.number left) (.number right) = .ok (.number result) ∧
        result.ExactRemainder left dividend divisor) := by
  have opened : Value.arithmetic .modulo (.number left) (.number right) =
      (left.remainder right).map .number := rfl
  rw [opened]
  refine ⟨?_, ?_, ?_, ?_⟩
  · intro below
    rw [Number.remainder_of_divisor_none below]
    rfl
  · intro below
    rw [Number.remainder_of_divisor_zero below]
    rfl
  · intro divisor below nonzero above
    rw [Number.remainder_of_dividend_none below nonzero above]
    rfl
  · intro divisor dividend below nonzero above
    rw [Number.remainder_of_some below nonzero above]
    exact ⟨_, rfl, Number.exactRemainder_ofInt above below nonzero⟩

/-- The smallest 64-bit integer has a remainder of 62 bits. -/
theorem modulo_exact_smallest :
    ∃ result, Value.arithmetic .modulo (.number (.ofInt (-2 ^ 63))) (.number (.ofInt (3 * 2 ^ 60))) =
        .ok (.number result) ∧ result.value? = some (-2 ^ 61) := by
  have dividend : (Number.ofInt (-2 ^ 63)).integerPart? = some (-2 ^ 63) :=
    Number.integerPart?_ofInt ⟨1, 63, by decide, by decide⟩ (by decide) (by decide)
  have divisor : (Number.ofInt (3 * 2 ^ 60)).integerPart? = some (3 * 2 ^ 60) :=
    Number.integerPart?_ofInt ⟨3, 60, by decide, by decide⟩ (by decide) (by decide)
  obtain ⟨result, computed, remainder⟩ :=
    (modulo_exact (.ofInt (-2 ^ 63)) (.ofInt (3 * 2 ^ 60))).2.2.2 _ _ divisor (by decide) dividend
  have left : (-2 ^ 63 - 3 * 2 ^ 60 * Int.tdiv (-2 ^ 63) (3 * 2 ^ 60) : ℤ) = -2 ^ 61 := by decide
  refine ⟨result, computed, ?_⟩
  rw [remainder.exact, left]
  norm_num

end Scriptlet
