/-
**Exact values of numbers.**

A finite number stands for a rational number, and nothing is lost in between. A natural number is
narrow if it has at most 53 significant bits; narrow numbers are those that rounding keeps.

* `Number.value?`: the rational number that a finite number stands for.
* `Number.integerPart?`: the 64-bit integer that is reached from it by going toward zero;
  `Number.truncate_of_some`, `Number.truncate_of_none`: **truncation finds this integer, or is
  refused because there is none.**
* `Magnitude.round_of_narrow`: **a ratio that is a narrow number of units is not rounded.**
* `Number.value?_ofInt`: so the number of a narrow integer stands for that integer.
-/

import Mathlib.Data.Rat.Floor
import Scriptlet.Number.Integer

namespace Scriptlet

open scoped Powers

/-! ### Rational values -/

/-- The integer that is reached from a rational number by going toward zero. -/
def towardZero (value : ℚ) : ℤ := if 0 ≤ value then ⌊value⌋ else ⌈value⌉

namespace Number

/-- **The rational number that a finite number stands for**; the others stand for none. -/
def value? : Number → Option ℚ
  | nan | infinite _ => none
  | finite negative magnitude => some ((signed negative magnitude.units : ℚ) / (unitsPerOne : ℚ))

/-- **The 64-bit integer of a number**: the one toward zero, if it is one of them. -/
def integerPart? (number : Number) : Option ℤ :=
  (number.value?.map towardZero).filter fun integer => -2 ^ 63 ≤ integer ∧ integer < 2 ^ 63

/-- Why a number without a 64-bit integer is not truncated. -/
def refusal (number : Number) : ConversionFault :=
  if number.value?.isSome then .tooLarge number else .notFinite number

theorem integerPart?_eq_some_iff {number : Number} {integer : ℤ} :
    number.integerPart? = some integer ↔
      ∃ value, number.value? = some value ∧ towardZero value = integer ∧
        -2 ^ 63 ≤ integer ∧ integer < 2 ^ 63 := by
  rw [integerPart?, Option.filter_eq_some_iff, Option.map_eq_some_iff, decide_eq_true_iff]
  constructor
  · rintro ⟨⟨value, same, rfl⟩, fits⟩
    exact ⟨value, same, rfl, fits⟩
  · rintro ⟨value, same, rfl, fits⟩
    exact ⟨⟨value, same, rfl⟩, fits⟩

/-! ### Truncation -/

theorem towardZero_intCast (integer : ℤ) : towardZero (integer : ℚ) = integer := by
  simp [towardZero]

/-- Going toward zero from a signed ratio drops the remainder of its division. -/
theorem towardZero_signed (negative : Bool) (units scale : ℕ) :
    towardZero ((signed negative units : ℚ) / (scale : ℚ)) = signed negative (units / scale) := by
  have whole : ⌊(units : ℚ) / (scale : ℚ)⌋ = ((units / scale : ℕ) : ℤ) := by
    rw [Rat.floor_natCast_div_natCast, Int.natCast_ediv]
  have ratio : (0 : ℚ) ≤ (units : ℚ) / (scale : ℚ) :=
    div_nonneg (Nat.cast_nonneg units) (Nat.cast_nonneg scale)
  cases negative with
  | false => simpa [signed, towardZero, ratio] using whole
  | true =>
    have same : (signed true units : ℚ) = -(units : ℚ) := by simp [signed]
    rw [same, neg_div, towardZero]
    by_cases zero : 0 ≤ -((units : ℚ) / (scale : ℚ))
    · -- only zero is both a ratio and the opposite of one
      have nothing : (units : ℚ) / (scale : ℚ) = 0 := by linarith
      rw [nothing, Int.floor_zero] at whole
      rw [if_pos zero, nothing, neg_zero, Int.floor_zero]
      simp [signed, ← whole]
    · rw [if_neg zero, Int.ceil_neg, whole]
      simp [signed]

theorem signed_mul (negative : Bool) (value scale : ℕ) :
    signed negative (value * scale) = signed negative value * scale := by
  cases negative <;> simp [signed]

/-- The smallest 64-bit integer is a number of its own. -/
theorem position_smallest :
    (ofInt Int64.minValue.toInt).position = some (-2 ^ 63 * (unitsPerOne : ℤ)) := by
  decide +kernel

/-- The number nearest to the largest 64-bit integer is larger by one. -/
theorem position_largest :
    (ofInt Int64.maxValue.toInt).position = some (2 ^ 63 * (unitsPerOne : ℤ)) := by
  decide +kernel

theorem position_whole (negative : Bool) (magnitude : Magnitude) :
    (finite negative magnitude).whole.position =
      some (truncated negative magnitude * (unitsPerOne : ℤ)) :=
  congrArg some (signed_mul negative (magnitude.units / unitsPerOne) unitsPerOne)

/-- **The comparison with the numbers nearest to the ends is exact**, though one of these is not the
end itself. -/
theorem isBeyondIntegers_whole (negative : Bool) (magnitude : Magnitude) :
    (finite negative magnitude).whole.isBeyondIntegers ↔
      truncated negative magnitude < -2 ^ 63 ∨ 2 ^ 63 ≤ truncated negative magnitude := by
  have positive : (0 : ℤ) < unitsPerOne := Int.natCast_pos.mpr unitsPerOne_pos
  rw [isBeyondIntegers, Bool.or_eq_true, less, lessEqual, related, related, position_smallest,
    position_largest, position_whole]
  simp only [decide_eq_true_eq]
  exact or_congr (Int.mul_lt_mul_right positive) (Int.mul_le_mul_right positive)

/-- Between the ends nothing is saturated. -/
theorem saturated_whole {negative : Bool} {magnitude : Magnitude}
    (low : -2 ^ 63 ≤ truncated negative magnitude) (high : truncated negative magnitude < 2 ^ 63) :
    (finite negative magnitude).whole.saturated = .ofInt (truncated negative magnitude) := by
  have least : Int64.minValue.toInt = -2 ^ 63 := rfl
  have greatest : Int64.maxValue.toInt = 2 ^ 63 - 1 := rfl
  have same : truncated negative magnitude.whole = truncated negative magnitude := by
    rw [truncated, truncated, Magnitude.whole, Nat.mul_div_cancel _ unitsPerOne_pos]
  rw [whole, saturated, same, least, greatest]
  congr 1
  omega

/-- **A number with a 64-bit integer is truncated to it.** -/
theorem truncate_of_some {number : Number} {integer : ℤ}
    (part : number.integerPart? = some integer) :
    ∃ result : Int64, number.truncate = .ok result ∧ result.toInt = integer := by
  obtain ⟨value, same, toward, low, high⟩ := integerPart?_eq_some_iff.mp part
  cases number with
  | nan | infinite => cases same
  | finite negative magnitude =>
    obtain rfl := Option.some.inj same
    obtain rfl : truncated negative magnitude = integer :=
      (towardZero_signed negative _ _).symm.trans toward
    refine ⟨.ofInt (truncated negative magnitude), ?_, Int64.toInt_ofInt_of_le low high⟩
    have inside : ¬ (finite negative magnitude).whole.isBeyondIntegers := by
      rw [isBeyondIntegers_whole]
      omega
    rw [truncate, if_neg inside, saturated_whole low high]

/-- **A number without a 64-bit integer is refused.** -/
theorem truncate_of_none {number : Number} (part : number.integerPart? = none) :
    number.truncate = .error number.refusal := by
  cases number with
  | nan | infinite => rfl
  | finite negative magnitude =>
    have outside : (finite negative magnitude).whole.isBeyondIntegers := by
      rw [isBeyondIntegers_whole]
      by_contra between
      have found : (finite negative magnitude).integerPart? = some _ :=
        integerPart?_eq_some_iff.mpr ⟨_, rfl, towardZero_signed negative _ _,
          by simpa [truncated] using between⟩
      rw [part] at found
      cases found
    rw [truncate, if_pos outside]
    rfl

end Number

/-! ### Narrow numbers -/

/-- A number of few bits has few spare ones. -/
theorem Magnitude.spareBits_le {units exponent : ℕ}
    (below : units < 2 ^ (significandBits + exponent)) : spareBits units ≤ exponent := by
  by_cases zero : units = 0
  · rw [zero]
    exact Nat.zero_le exponent
  · have bits := (Nat.log2_lt zero).mpr below
    unfold spareBits
    unfold significandBits at bits
    omega

/-- **At most 53 significant bits.** -/
def Narrow (value : ℕ) : Prop :=
  ∃ significand exponent : ℕ, significand < 2 ^ significandBits ∧ value = significand * 2 ^ exponent

namespace Narrow

variable {value divisor : ℕ}

theorem of_lt (small : value < 2 ^ significandBits) : Narrow value := ⟨value, 0, small, by simp⟩

/-- A multiple of a power of two that is no larger than a narrow multiple of it is narrow. -/
theorem of_dvd {significand exponent : ℕ} (short : significand < 2 ^ significandBits)
    (multiple : 2 ^ exponent ∣ value) (bounded : value ≤ significand * 2 ^ exponent) :
    Narrow value := by
  obtain ⟨quotient, rfl⟩ := multiple
  rw [Nat.mul_comm significand] at bounded
  have below := Nat.le_of_mul_le_mul_left bounded (Nat.two_pow_pos exponent)
  exact ⟨quotient, exponent, by omega, Nat.mul_comm ..⟩

theorem mul_two_pow (narrow : Narrow value) (shift : ℕ) : Narrow (value * 2 ^ shift) := by
  obtain ⟨significand, exponent, short, rfl⟩ := narrow
  exact ⟨significand, exponent + shift, short, by rw [Nat.mul_assoc, Nat.pow_add]⟩

/-- Dropping low bits keeps a number narrow. -/
theorem div_two_pow (narrow : Narrow value) (shift : ℕ) : Narrow (value / 2 ^ shift) := by
  obtain ⟨significand, exponent, short, rfl⟩ := narrow
  by_cases inside : shift ≤ exponent
  · obtain ⟨left, rfl⟩ := Nat.exists_eq_add_of_le inside
    refine ⟨significand, left, short, ?_⟩
    rw [Nat.pow_add, Nat.mul_left_comm, Nat.mul_div_cancel_left _ (Nat.two_pow_pos shift)]
  · obtain ⟨left, rfl⟩ := Nat.exists_eq_add_of_le (Nat.le_of_not_le inside)
    refine of_lt (Nat.lt_of_le_of_lt ?_ short)
    rw [Nat.pow_add, Nat.mul_comm significand,
      Nat.mul_div_mul_left _ _ (Nat.two_pow_pos exponent)]
    exact Nat.div_le_self ..

/-- **The remainder of two narrow numbers is narrow**: it is a multiple of the lower of their powers
of two, and no larger than either of them. -/
theorem mod (narrow : Narrow value) (other : Narrow divisor) (positive : 0 < divisor) :
    Narrow (value % divisor) := by
  obtain ⟨significand, exponent, short, rfl⟩ := narrow
  obtain ⟨width, shift, otherShort, rfl⟩ := other
  rcases Nat.le_total exponent shift with lower | higher
  · have multiple : 2 ^ exponent ∣ width * 2 ^ shift :=
      Nat.dvd_mul_left_of_dvd (Nat.pow_dvd_pow 2 lower) width
    refine of_dvd short ?_ (Nat.mod_le ..)
    exact (Nat.dvd_mod_iff multiple).mpr (Nat.dvd_mul_left ..)
  · refine of_dvd otherShort ?_ (Nat.mod_lt _ positive).le
    refine (Nat.dvd_mod_iff (Nat.dvd_mul_left ..)).mpr ?_
    exact Nat.dvd_mul_left_of_dvd (Nat.pow_dvd_pow 2 higher) significand

/-- The bits that would be dropped from a narrow number are zeros. -/
theorem spareBits_dvd (narrow : Narrow value) : 2 ^ Magnitude.spareBits value ∣ value := by
  obtain ⟨significand, exponent, short, same⟩ := narrow
  have below : value < 2 ^ (significandBits + exponent) := by
    rw [same, Nat.pow_add]
    exact Nat.mul_lt_mul_of_pos_right short (Nat.two_pow_pos exponent)
  have few := Magnitude.spareBits_le below
  exact (Nat.dvd_mul_left_of_dvd (Nat.pow_dvd_pow 2 few) significand).trans (dvd_of_eq same.symm)

end Narrow

namespace Magnitude

/-- **A ratio that is a narrow number of units is not rounded.** -/
theorem round_of_narrow {units denominator : ℕ} (positive : 0 < denominator)
    (narrow : Narrow units) (below : units < unitLimit) :
    round (units * denominator) denominator = some ⟨units, narrow, below⟩ := by
  have kept : roundedSignificand (units * denominator) denominator *
      2 ^ spareBits (units * denominator / denominator) = units := by
    rw [roundedSignificand, Nat.mul_div_cancel _ positive, Nat.mul_comm units,
      divideToEven_of_dvd (Nat.mul_pos positive (Nat.two_pow_pos _))
        (Nat.mul_dvd_mul_left denominator narrow.spareBits_dvd),
      Nat.mul_div_mul_left _ _ positive, Nat.div_mul_cancel narrow.spareBits_dvd]
  have inside : roundedSignificand (units * denominator) denominator *
      2 ^ spareBits (units * denominator / denominator) < unitLimit := by
    rwa [kept]
  rw [round, dif_pos inside]
  exact congrArg some (ext kept)

end Magnitude

/-! ### Integers as numbers -/

namespace Number

theorem mul_two_pow_lt {value bits shift limit : ℕ} (small : value ≤ 2 ^ bits)
    (room : bits + shift < limit) : value * 2 ^ shift < 2 ^ limit := by
  calc value * 2 ^ shift ≤ 2 ^ bits * 2 ^ shift := Nat.mul_le_mul_right _ small
    _ = 2 ^ (bits + shift) := (Nat.pow_add ..).symm
    _ < 2 ^ limit := Nat.pow_lt_pow_right (by decide) room

/-- Every 64-bit integer is far below the limit of numbers. -/
theorem mul_unitsPerOne_lt {value : ℕ} (small : value ≤ 2 ^ 63) :
    value * unitsPerOne < unitLimit := by
  have room : 63 + unitExponent < limitExponent := by decide
  exact mul_two_pow_lt small room

theorem ofRatio_of_round (negative : Bool) {numerator denominator : ℕ} {magnitude : Magnitude}
    (rounded : Magnitude.round numerator denominator = some magnitude) :
    ofRatio negative numerator denominator = finite negative magnitude := by
  unfold ofRatio
  rw [rounded]

theorem ofRatio_of_narrow (negative : Bool) {units denominator : ℕ} (positive : 0 < denominator)
    (narrow : Narrow units) (below : units < unitLimit) :
    ofRatio negative (units * denominator) denominator =
      finite negative ⟨units, narrow, below⟩ :=
  ofRatio_of_round negative (Magnitude.round_of_narrow positive narrow below)

/-- The number of a narrow integer has exactly its units; zero is positive. -/
theorem ofInt_of_narrow {integer : ℤ} (narrow : Narrow integer.natAbs)
    (small : integer.natAbs ≤ 2 ^ 63) :
    ∃ magnitude, ofInt integer = finite (decide (integer < 0)) magnitude ∧
      magnitude.units = integer.natAbs * unitsPerOne := by
  have wide : Narrow (integer.natAbs * unitsPerOne) := narrow.mul_two_pow unitExponent
  refine ⟨⟨_, wide, mul_unitsPerOne_lt small⟩, ?_, rfl⟩
  rw [ofInt, ← ofRatio_of_narrow _ Nat.one_pos wide (mul_unitsPerOne_lt small), Nat.mul_one]

/-- The number of a small natural number has exactly its units. -/
theorem ofInt_natCast {count : ℕ} (short : count < 2 ^ significandBits) :
    ∃ magnitude, ofInt count = finite false magnitude ∧
      magnitude.units = count * unitsPerOne := by
  have bound : (2 : ℕ) ^ significandBits ≤ 2 ^ 63 := by decide
  have narrow : Narrow (count : ℤ).natAbs := Narrow.of_lt short
  have small : (count : ℤ).natAbs ≤ 2 ^ 63 := (Nat.le_of_lt short).trans bound
  exact ofInt_of_narrow narrow small

theorem signed_natAbs (integer : ℤ) : signed (decide (integer < 0)) integer.natAbs = integer := by
  by_cases negative : integer < 0
  · rw [signed, decide_eq_true negative, if_pos rfl]
    omega
  · rw [signed, decide_eq_false negative, if_neg Bool.false_ne_true]
    omega

/-- **The number of a narrow integer stands for that integer.** -/
theorem value?_ofInt {integer : ℤ} (narrow : Narrow integer.natAbs)
    (small : integer.natAbs ≤ 2 ^ 63) : (ofInt integer).value? = some (integer : ℚ) := by
  obtain ⟨magnitude, same, units⟩ := ofInt_of_narrow narrow small
  have positive : (unitsPerOne : ℚ) ≠ 0 := Nat.cast_ne_zero.mpr unitsPerOne_pos.ne'
  rw [same, value?, units, signed_mul, signed_natAbs, Int.cast_mul, Int.cast_natCast,
    mul_div_cancel_right₀ _ positive]

/-- The number of a narrow 64-bit integer has that integer. -/
theorem integerPart?_ofInt {integer : ℤ} (narrow : Narrow integer.natAbs)
    (low : -2 ^ 63 ≤ integer) (high : integer < 2 ^ 63) :
    (ofInt integer).integerPart? = some integer := by
  exact integerPart?_eq_some_iff.mpr
    ⟨integer, value?_ofInt narrow (by omega), towardZero_intCast integer, low, high⟩

/-- No integer is the negative zero: a negative one has units of its own. -/
theorem ofInt_ne_zero {integer : ℤ} (narrow : Narrow integer.natAbs)
    (small : integer.natAbs ≤ 2 ^ 63) : ofInt integer ≠ zero true := by
  obtain ⟨magnitude, same, units⟩ := ofInt_of_narrow narrow small
  rw [same]
  intro equal
  obtain ⟨sign, rfl⟩ := Number.finite.inj equal
  have negative : integer < 0 := of_decide_eq_true sign
  have nothing : integer.natAbs = 0 :=
    (Nat.mul_eq_zero.mp units.symm).resolve_right unitsPerOne_pos.ne'
  omega

end Number

end Scriptlet
