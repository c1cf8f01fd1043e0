/-
**Comparing a rounded ratio with an exact number.**

Rounding goes to the nearest of the numbers with 53 significant bits, and the bound of a comparison
is one of them. A ratio that does not exceed the bound is not rounded beyond it; a ratio that
exceeds it by more than half of its last place is rounded to a larger number.

* `divideToEven_le_of_le`, `lt_divideToEven`: the same for whole numbers.
* `Magnitude.roundedUnits_le`, `Magnitude.lt_roundedUnits`: for units.
* `Number.less_ofRatio`: **the comparison of a bound with a rounded ratio** is the exact one, if the
  ratio does not exceed the bound by less than that.
-/

import Scriptlet.Proofs.Number.Exact

namespace Scriptlet

open scoped Powers

/-! ### Whole numbers -/

section Quotients

variable {numerator denominator bound : ℕ}

/-- A quotient up to a whole number is rounded to no more than that number. -/
theorem divideToEven_le_of_le (positive : 0 < denominator)
    (small : numerator ≤ bound * denominator) : divideToEven numerator denominator ≤ bound := by
  rcases Nat.lt_or_eq_of_le small with less | equal
  · have quotient := (Nat.div_lt_iff_lt_mul positive).mpr less
    have step := divideToEven_le numerator denominator
    omega
  · rw [equal, divideToEven_of_dvd positive (Nat.dvd_mul_left ..), Nat.mul_div_cancel _ positive]

/-- A quotient that is nearer to the next whole number is rounded beyond this one. -/
theorem lt_divideToEven (positive : 0 < denominator)
    (large : (2 * bound + 1) * denominator < 2 * numerator) :
    bound < divideToEven numerator denominator := by
  have least : bound ≤ numerator / denominator := by
    rw [Nat.le_div_iff_mul_le positive]
    nlinarith
  rcases Nat.lt_or_eq_of_le least with more | equal
  · exact Nat.lt_of_lt_of_le more (le_divideToEven numerator denominator)
  · have parts := Nat.div_add_mod numerator denominator
    rw [← equal] at parts
    have upper : compare (2 * (numerator % denominator)) denominator = .gt := by
      rw [Nat.compare_eq_gt]
      nlinarith
    unfold divideToEven
    rw [upper, ← equal]
    exact Nat.lt_succ_self bound

/-- A quotient that is nearer to a whole number than to the next one is not rounded beyond it. -/
theorem divideToEven_le_of_lt (positive : 0 < denominator)
    (small : 2 * numerator < (2 * bound + 1) * denominator) :
    divideToEven numerator denominator ≤ bound := by
  have most : numerator / denominator < bound + 1 := by
    rw [Nat.div_lt_iff_lt_mul positive]
    nlinarith
  rcases Nat.lt_or_eq_of_le (Nat.le_of_lt_succ most) with less | equal
  · exact (divideToEven_le numerator denominator).trans less
  · have parts := Nat.div_add_mod numerator denominator
    rw [equal] at parts
    have lower : compare (2 * (numerator % denominator)) denominator = .lt := by
      rw [Nat.compare_eq_lt]
      nlinarith
    unfold divideToEven
    rw [lower, equal]

end Quotients

/-! ### Units -/

namespace Magnitude

/-- The units of a rounded ratio, before the limit is looked at. -/
def roundedUnits (numerator denominator : ℕ) : ℕ :=
  roundedSignificand numerator denominator * 2 ^ spareBits (numerator / denominator)

variable {numerator denominator significand exponent : ℕ}

/-- **A ratio up to a narrow number is not rounded beyond it.** -/
theorem roundedUnits_le (positive : 0 < denominator) (short : significand < 2 ^ significandBits)
    (small : numerator ≤ significand * 2 ^ exponent * denominator) :
    roundedUnits numerator denominator ≤ significand * 2 ^ exponent := by
  have few : spareBits (numerator / denominator) ≤ exponent := by
    refine spareBits_le (Nat.lt_of_le_of_lt (Nat.div_le_of_le_mul (Nat.mul_comm .. ▸ small)) ?_)
    rw [Nat.pow_add]
    exact Nat.mul_lt_mul_of_pos_right short (Nat.two_pow_pos exponent)
  unfold roundedUnits roundedSignificand
  generalize spareBits (numerator / denominator) = spare at few ⊢
  obtain ⟨left, rfl⟩ := Nat.exists_eq_add_of_le few
  have step : divideToEven numerator (denominator * 2 ^ spare) ≤ significand * 2 ^ left := by
    refine divideToEven_le_of_le (Nat.mul_pos positive (Nat.two_pow_pos spare)) ?_
    calc numerator ≤ significand * 2 ^ (spare + left) * denominator := small
      _ = significand * 2 ^ left * (denominator * 2 ^ spare) := by rw [Nat.pow_add]; ring
  calc divideToEven numerator (denominator * 2 ^ spare) * 2 ^ spare
      ≤ significand * 2 ^ left * 2 ^ spare := Nat.mul_le_mul_right _ step
    _ = significand * 2 ^ (spare + left) := by rw [Nat.pow_add]; ring

/-- **A ratio beyond half a place above a narrow number is rounded beyond it.** -/
theorem lt_roundedUnits (positive : 0 < denominator) (short : significand < 2 ^ significandBits)
    (full : 2 ^ 52 ≤ significand)
    (large : (2 * significand + 1) * 2 ^ exponent * denominator < 2 * numerator) :
    significand * 2 ^ exponent < roundedUnits numerator denominator := by
  have least : significand * 2 ^ exponent ≤ numerator / denominator := by
    rw [Nat.le_div_iff_mul_le positive]
    nlinarith [Nat.zero_le (2 ^ exponent * denominator)]
  have bits : 2 ^ (52 + exponent) ≤ numerator / denominator := by
    rw [Nat.pow_add]
    exact (Nat.mul_le_mul_right _ full).trans least
  have some : numerator / denominator ≠ 0 :=
    Nat.pos_iff_ne_zero.mp (Nat.lt_of_lt_of_le (Nat.two_pow_pos _) bits)
  have many : exponent ≤ spareBits (numerator / denominator) := by
    have length := (Nat.le_log2 some).mpr bits
    unfold spareBits
    omega
  unfold roundedUnits roundedSignificand
  rcases Nat.lt_or_eq_of_le many with more | equal
  -- a longer quotient has a power of two between the bound and its rounding
  · have length : 52 + spareBits (numerator / denominator) = (numerator / denominator).log2 := by
      unfold spareBits at more ⊢
      omega
    have power : 2 ^ 52 * 2 ^ spareBits (numerator / denominator) ≤ numerator / denominator := by
      rw [← Nat.pow_add, length]
      exact Nat.log2_self_le some
    generalize spareBits (numerator / denominator) = spare at more power ⊢
    have kept : 2 ^ 52 ≤ divideToEven numerator (denominator * 2 ^ spare) := by
      refine Nat.le_trans ?_ (le_divideToEven _ _)
      rwa [← Nat.div_div_eq_div_mul, Nat.le_div_iff_mul_le (Nat.two_pow_pos spare)]
    calc significand * 2 ^ exponent < 2 ^ significandBits * 2 ^ exponent :=
          Nat.mul_lt_mul_of_pos_right short (Nat.two_pow_pos exponent)
      _ = 2 ^ (significandBits + exponent) := (Nat.pow_add ..).symm
      _ ≤ 2 ^ (52 + spare) :=
          Nat.pow_le_pow_right (by decide) (by unfold significandBits; omega)
      _ = 2 ^ 52 * 2 ^ spare := Nat.pow_add ..
      _ ≤ divideToEven numerator (denominator * 2 ^ spare) * 2 ^ spare :=
          Nat.mul_le_mul_right _ kept
  · rw [← equal]
    refine Nat.mul_lt_mul_of_pos_right (lt_divideToEven ?_ ?_) (Nat.two_pow_pos exponent)
    · exact Nat.mul_pos positive (Nat.two_pow_pos exponent)
    · rwa [← Nat.mul_assoc, Nat.mul_right_comm]

end Magnitude

/-! ### Numbers -/

namespace Number

variable {numerator denominator significand exponent : ℕ}

/-- A rounded ratio stands at its units, or at the limit. -/
theorem position_ofRatio (numerator denominator : ℕ) :
    (ofRatio false numerator denominator).position =
      some ((min (Magnitude.roundedUnits numerator denominator) unitLimit : ℕ) : ℤ) := by
  unfold ofRatio Magnitude.round Magnitude.roundedUnits
  dsimp only
  by_cases below : Magnitude.roundedSignificand numerator denominator *
      2 ^ Magnitude.spareBits (numerator / denominator) < unitLimit
  · rw [dif_pos below, Nat.min_eq_left (Nat.le_of_lt below)]
    rfl
  · rw [dif_neg below, Nat.min_eq_right (Nat.le_of_not_lt below)]
    rfl

/-- **The comparison of a bound with a rounded ratio is exact**, unless the ratio exceeds the bound
by no more than half of its last place. -/
theorem less_ofRatio {magnitude : Magnitude} (positive : 0 < denominator)
    (short : significand < 2 ^ significandBits) (full : 2 ^ 52 ≤ significand)
    (units : magnitude.units = significand * 2 ^ exponent)
    (apart : magnitude.units * denominator < numerator →
      (2 * significand + 1) * 2 ^ exponent * denominator < 2 * numerator) :
    (finite false magnitude).less (ofRatio false numerator denominator) =
      decide (magnitude.units * denominator < numerator) := by
  rw [less, related, position_ofRatio]
  show decide ((magnitude.units : ℤ) <
    ((min (Magnitude.roundedUnits numerator denominator) unitLimit : ℕ) : ℤ)) = _
  rw [decide_eq_decide, Nat.cast_lt, Nat.lt_min]
  constructor
  · rintro ⟨less, -⟩
    refine Nat.lt_of_not_le fun small => ?_
    rw [units] at small less
    exact Nat.lt_irrefl _ (less.trans_le (Magnitude.roundedUnits_le positive short small))
  · intro exceeds
    refine ⟨?_, magnitude.below⟩
    rw [units]
    exact Magnitude.lt_roundedUnits positive short full (apart exceeds)

end Number

end Scriptlet
