/-
**Decimals that are rounded to numbers and back.**

A decimal with at most six places is rounded twice before it is printed: to a number with 53
significant bits, and this number to six places. Below `2 ^ 33` the first rounding is off by at most
`2 ^ -21`, which is less than half of the sixth place, so that the second one undoes it. An integer
up to `2 ^ 53` is a number of its own and is not rounded at all.

* `divideToEven_eq_of_near`: the nearest whole number, if there is no doubt about it.
* `Magnitude.exists_round`: **the rounded ratio is off by at most half of its last place.**
* `Number.HasSteps`, `Number.hasSteps_ofDecimal`: what is printed with six places, and that it is
  the decimal that was read.
* `decimalValue_append`, `toDigits_decimalValue`, `paddedDigits_decimalValue`: digits from values.
* `plainDigits`, `decimalRatio`: digits without zeros in front, and the number that a decimal means;
  `Number.fixed_ofDecimal`: **a decimal is printed as it was written**, apart from its outer zeros.
-/

import Mathlib.Data.List.Induction
import Scriptlet.Number.Decimal
import Scriptlet.Proofs.Number.Comparison

namespace Scriptlet

open scoped Powers

/-! ### Nearest whole numbers -/

section Quotients

variable {numerator denominator whole : ℕ}

/-- A quotient that is nearest to a whole number is rounded to it. -/
theorem divideToEven_eq_of_near (positive : 0 < denominator)
    (low : 2 * (whole * denominator) < 2 * numerator + denominator)
    (high : 2 * numerator < 2 * (whole * denominator) + denominator) :
    divideToEven numerator denominator = whole := by
  refine Nat.le_antisymm (divideToEven_le_of_lt positive (by linarith)) ?_
  cases whole with
  | zero => exact Nat.zero_le _
  | succ previous => exact lt_divideToEven positive (by linarith)

/-- A rounded quotient is off by at most a half. -/
theorem near_divideToEven (numerator : ℕ) (positive : 0 < denominator) :
    2 * (divideToEven numerator denominator * denominator) ≤ 2 * numerator + denominator ∧
      2 * numerator ≤ 2 * (divideToEven numerator denominator * denominator) + denominator := by
  constructor
  · by_contra far
    obtain ⟨previous, same⟩ : ∃ previous, divideToEven numerator denominator = previous + 1 := by
      refine Nat.exists_eq_succ_of_ne_zero fun zero => ?_
      rw [zero] at far
      omega
    have below := divideToEven_le_of_lt positive
      (show 2 * numerator < (2 * previous + 1) * denominator by rw [same] at far; linarith)
    omega
  · by_contra far
    exact Nat.lt_irrefl _ (lt_divideToEven positive (by linarith))

end Quotients

/-! ### Rounded ratios -/

namespace Magnitude

/-- **A ratio with few bits is rounded, and is off by at most half of its last place.** -/
theorem exists_round {numerator denominator bits : ℕ} (positive : 0 < denominator)
    (small : numerator < 2 ^ (significandBits + bits) * denominator)
    (room : significandBits + bits < limitExponent) :
    ∃ magnitude, round numerator denominator = some magnitude ∧
      2 * (magnitude.units * denominator) ≤ 2 * numerator + 2 ^ bits * denominator ∧
      2 * numerator ≤ 2 * (magnitude.units * denominator) + 2 ^ bits * denominator := by
  have few : spareBits (numerator / denominator) ≤ bits :=
    spareBits_le ((Nat.div_lt_iff_lt_mul positive).mpr small)
  have place : 2 ^ spareBits (numerator / denominator) ≤ 2 ^ bits :=
    Nat.pow_le_pow_right (by decide) few
  have fits : significandBits + spareBits (numerator / denominator) < limitExponent := by omega
  have inside : roundedSignificand numerator denominator *
      2 ^ spareBits (numerator / denominator) < unitLimit :=
    Number.mul_two_pow_lt (roundedSignificand_le numerator denominator) fits
  refine ⟨⟨_, narrow_of_le _ (roundedSignificand_le numerator denominator), inside⟩,
    by rw [round, dif_pos inside], ?_⟩
  obtain ⟨low, high⟩ := near_divideToEven numerator
    (Nat.mul_pos positive (Nat.two_pow_pos (spareBits (numerator / denominator))))
  have half := Nat.mul_le_mul_left denominator place
  have same : roundedSignificand numerator denominator * 2 ^ spareBits (numerator / denominator) *
        denominator =
      roundedSignificand numerator denominator *
        (denominator * 2 ^ spareBits (numerator / denominator)) := by ring
  dsimp only
  rw [same, Nat.mul_comm (2 ^ bits)]
  rw [← roundedSignificand] at low high
  omega

end Magnitude

/-! ### Six places -/

namespace Number

/-- **A number whose printed form is a count of steps of the sixth place.** -/
def HasSteps (number : Number) (steps : ℕ) : Prop :=
  ∃ magnitude, number = finite false magnitude ∧
    divideToEven (magnitude.units * 10 ^ printedPlaces) unitsPerOne = steps

theorem HasSteps.fixed {number : Number} {steps : ℕ} (has : number.HasSteps steps) :
    number.fixed = decimalText (steps / 10 ^ printedPlaces) ++ "." ++
      String.ofList (paddedDigits printedPlaces (steps % 10 ^ printedPlaces)) := by
  obtain ⟨magnitude, rfl, rfl⟩ := has
  rfl

/-- The last place of the numbers below `2 ^ 33`, as a power of two in units: it is worth
`2 ^ -20`. -/
def placeExponent : ℕ := 1054

/-- **A million last places are less than one**, so that an error of half a place is less than half
of the sixth decimal. -/
theorem place_mul_lt : 2 ^ placeExponent * 10 ^ printedPlaces < unitsPerOne := by
  have split : unitsPerOne = 2 ^ placeExponent * 2 ^ 20 := by
    rw [unitsPerOne, ← Nat.pow_add, show placeExponent + 20 = unitExponent from rfl]
  have million : 10 ^ printedPlaces < 2 ^ 20 := by decide
  rw [split]
  exact Nat.mul_lt_mul_of_pos_left million (Nat.two_pow_pos placeExponent)

/-- **A decimal below `2 ^ 33` has its own steps**: what the number is off by is less than half of
one of them. -/
theorem hasSteps_ofDecimal {digits places : ℕ} (few : places ≤ printedPlaces)
    (small : digits < 2 ^ 33 * 10 ^ places) :
    (ofDecimal digits places).HasSteps (digits * 10 ^ (printedPlaces - places)) := by
  have scale : 10 ^ places * 10 ^ (printedPlaces - places) = 10 ^ printedPlaces := by
    rw [← Nat.pow_add, Nat.add_sub_cancel' few]
  have bits : 2 ^ (significandBits + placeExponent) = 2 ^ 33 * unitsPerOne := by
    have sum : 33 + unitExponent = significandBits + placeExponent := rfl
    rw [unitsPerOne, ← Nat.pow_add, sum]
  have below : digits * unitsPerOne < 2 ^ (significandBits + placeExponent) * 10 ^ places := by
    rw [bits, Nat.mul_right_comm]
    exact Nat.mul_lt_mul_of_pos_right small unitsPerOne_pos
  have room : significandBits + placeExponent < limitExponent := by decide
  obtain ⟨magnitude, rounded, low, high⟩ :=
    Magnitude.exists_round (Nat.pow_pos (by decide)) below room
  refine ⟨magnitude, ofRatio_of_round false rounded, ?_⟩
  have fine := place_mul_lt
  generalize 2 ^ placeExponent = place at fine low high
  generalize 10 ^ (printedPlaces - places) = missing at scale ⊢
  refine divideToEven_eq_of_near unitsPerOne_pos ?_ ?_
  · calc 2 * (digits * missing * unitsPerOne) = 2 * (digits * unitsPerOne) * missing := by ring
      _ ≤ (2 * (magnitude.units * 10 ^ places) + place * 10 ^ places) * missing :=
        Nat.mul_le_mul_right missing high
      _ = 2 * (magnitude.units * 10 ^ printedPlaces) + place * 10 ^ printedPlaces := by
        rw [← scale]
        ring
      _ < 2 * (magnitude.units * 10 ^ printedPlaces) + unitsPerOne := Nat.add_lt_add_left fine _
  · calc 2 * (magnitude.units * 10 ^ printedPlaces)
      _ = 2 * (magnitude.units * 10 ^ places) * missing := by
        rw [← scale]
        ring
      _ ≤ (2 * (digits * unitsPerOne) + place * 10 ^ places) * missing :=
        Nat.mul_le_mul_right missing low
      _ = 2 * (digits * missing * unitsPerOne) + place * 10 ^ printedPlaces := by
        rw [← scale]
        ring
      _ < 2 * (digits * missing * unitsPerOne) + unitsPerOne := Nat.add_lt_add_left fine _

/-- **An integer up to `2 ^ 53` has its own steps**: it is not rounded. -/
theorem hasSteps_ofDecimal_whole {digits : ℕ} (small : digits ≤ 2 ^ significandBits) :
    (ofDecimal digits 0).HasSteps (digits * 10 ^ printedPlaces) := by
  have narrow : Narrow (digits * unitsPerOne) := Magnitude.narrow_of_le unitExponent small
  have room : significandBits + unitExponent < limitExponent := by decide
  have below : digits * unitsPerOne < unitLimit := mul_two_pow_lt small room
  refine ⟨⟨_, narrow, below⟩, ?_, ?_⟩
  · rw [← ofRatio_of_narrow false Nat.one_pos narrow below, Nat.mul_one]
    rfl
  · dsimp only
    rw [Nat.mul_right_comm,
      divideToEven_of_dvd unitsPerOne_pos (Nat.dvd_mul_left unitsPerOne _),
      Nat.mul_div_cancel _ unitsPerOne_pos]

end Number

/-! ### Digits -/

/-- The value of a digit. -/
theorem digitChar_value {digit : Char} (inside : digit.isDigit) :
    digit.toNat - '0'.toNat < 10 ∧ Nat.digitChar (digit.toNat - '0'.toNat) = digit := by
  obtain ⟨low, high⟩ := Char.isDigit_iff_toNat.mp inside
  have zero : '0'.toNat = 48 := rfl
  have nine : '9'.toNat = 57 := rfl
  have small : digit.toNat - '0'.toNat < 10 := by omega
  refine ⟨small, Char.toNat_inj.mp ?_⟩
  rw [Nat.toNat_digitChar_of_lt_ten small]
  omega

theorem decimalValue_append (digits decimals : List Char) :
    decimalValue (digits ++ decimals) =
      decimalValue digits * 10 ^ decimals.length + decimalValue decimals := by
  calc decimalValue (digits ++ decimals)
      = Nat.ofDigitChars 10 decimals (Nat.ofDigitChars 10 digits 0) := Nat.ofDigitChars_append 0
    _ = 10 ^ decimals.length * decimalValue digits + decimalValue decimals :=
      Nat.ofDigitChars_eq_ofDigitChars_zero
    _ = decimalValue digits * 10 ^ decimals.length + decimalValue decimals := by
      rw [Nat.mul_comm]

theorem decimalValue_concat (digits : List Char) (last : Char) :
    decimalValue (digits ++ [last]) = decimalValue digits * 10 + (last.toNat - '0'.toNat) := by
  have value : decimalValue [last] = last.toNat - '0'.toNat := by simp [decimalValue]
  rw [decimalValue_append, value, List.length_singleton, Nat.pow_one]

theorem decimalValue_zeros (count : ℕ) : decimalValue (List.replicate count '0') = 0 :=
  Nat.ofDigitChars_replicate_zero.trans (Nat.mul_zero _)

section Runs

variable {digits decimals : List Char}

/-- A run of digits in front of a digit. -/
theorem isDigit_concat {last : Char} (inside : ∀ digit ∈ digits ++ [last], digit.isDigit) :
    (∀ digit ∈ digits, digit.isDigit) ∧ last.isDigit :=
  ⟨fun digit member => inside digit (List.mem_append_left _ member),
    inside last (List.mem_append_right _ List.mem_cons_self)⟩

/-- **As many digits as the run has** are the run, and no more are needed. -/
theorem paddedDigits_decimalValue (inside : ∀ digit ∈ digits, digit.isDigit) :
    paddedDigits digits.length (decimalValue digits) = digits ∧
      decimalValue digits < 10 ^ digits.length := by
  induction digits using List.reverseRecOn with
  | nil => exact ⟨rfl, Nat.one_pos⟩
  | append_singleton digits last hypothesis =>
    obtain ⟨front, behind⟩ := isDigit_concat inside
    obtain ⟨same, below⟩ := hypothesis front
    obtain ⟨small, digit⟩ := digitChar_value behind
    have quotient : (decimalValue digits * 10 + (last.toNat - '0'.toNat)) / 10 =
        decimalValue digits := by omega
    have remainder : (decimalValue digits * 10 + (last.toNat - '0'.toNat)) % 10 =
        last.toNat - '0'.toNat := by omega
    rw [decimalValue_concat, List.length_append, List.length_singleton]
    refine ⟨?_, ?_⟩
    · rw [paddedDigits, quotient, remainder, same, digit]
    · rw [Nat.pow_succ]
      omega

/-- **A run that does not begin with a zero** is the text of its value. -/
theorem toDigits_decimalValue {first : Char} (leading : first ≠ '0')
    (inside : ∀ digit ∈ first :: digits, digit.isDigit) :
    Nat.toDigits 10 (decimalValue (first :: digits)) = first :: digits := by
  induction digits using List.reverseRecOn with
  | nil =>
    obtain ⟨small, digit⟩ := digitChar_value (inside first List.mem_cons_self)
    have value : decimalValue [first] = first.toNat - '0'.toNat := by simp [decimalValue]
    rw [value, Nat.toDigits_of_lt_base small, digit]
  | append_singleton digits last hypothesis =>
    rw [← List.cons_append] at inside ⊢
    obtain ⟨front, behind⟩ := isDigit_concat inside
    have same := hypothesis front
    obtain ⟨small, digit⟩ := digitChar_value behind
    -- the text of zero is a zero
    have positive : 0 < decimalValue (first :: digits) := by
      refine Nat.pos_of_ne_zero fun zero => leading ?_
      rw [zero, Nat.toDigits_zero] at same
      exact (List.cons.inj same).1.symm
    rw [decimalValue_concat, Nat.mul_comm,
      ← Nat.toDigits_append_toDigits (by decide) positive small, same,
      Nat.toDigits_of_lt_base small, digit]

/-- **Digits without superfluous zeros in front**: one is left if there is nothing else. -/
def plainDigits (digits : List Char) : List Char :=
  if digits.all (· = '0') then ['0'] else digits.dropWhile (· = '0')

/-- **The value of a run of digits is written as the run**, without superfluous zeros. -/
theorem decimalText_decimalValue (inside : ∀ digit ∈ digits, digit.isDigit) :
    decimalText (decimalValue digits) = String.ofList (plainDigits digits) := by
  induction digits with
  | nil => rfl
  | cons first rest hypothesis =>
    by_cases zero : first = '0'
    · have value : decimalValue (first :: rest) = decimalValue rest := by
        rw [zero]
        rfl
      have plain : plainDigits (first :: rest) = plainDigits rest := by simp [plainDigits, zero]
      rw [value, plain]
      exact hypothesis fun digit member => inside digit (List.mem_cons_of_mem _ member)
    · have plain : plainDigits (first :: rest) = first :: rest := by simp [plainDigits, zero]
      apply String.toList_injective
      rw [plain, String.toList_ofList]
      exact Nat.toList_repr.trans (toDigits_decimalValue zero inside)

end Runs

/-! ### Decimals -/

/-- **The number that a decimal means**: all its digits, and a tenth for each place. -/
def decimalRatio (digits decimals : List Char) : ℚ :=
  (decimalValue (digits ++ decimals) : ℚ) / 10 ^ decimals.length

theorem decimalRatio_lt_iff {digits decimals : List Char} (bound : ℕ) :
    decimalRatio digits decimals < bound ↔
      decimalValue (digits ++ decimals) < bound * 10 ^ decimals.length := by
  have positive : (0 : ℚ) < 10 ^ decimals.length := by positivity
  rw [decimalRatio, div_lt_iff₀ positive]
  exact_mod_cast Iff.rfl

namespace Number

/-- Zeros behind a decimal, up to the sixth place. -/
def filled (decimals : List Char) : List Char :=
  decimals ++ List.replicate (printedPlaces - decimals.length) '0'

variable {digits decimals : List Char}

theorem length_filled (few : decimals.length ≤ printedPlaces) :
    (filled decimals).length = printedPlaces := by
  rw [filled, List.length_append, List.length_replicate, Nat.add_sub_cancel' few]

theorem isDigit_filled (inside : ∀ digit ∈ decimals, digit.isDigit) :
    ∀ digit ∈ filled decimals, digit.isDigit := by
  intro digit member
  rcases List.mem_append.mp member with front | behind
  · exact inside digit front
  · rw [List.eq_of_mem_replicate behind]
    rfl

theorem decimalValue_filled (digits decimals : List Char) :
    decimalValue (digits ++ filled decimals) =
      decimalValue (digits ++ decimals) * 10 ^ (printedPlaces - decimals.length) := by
  rw [filled, ← List.append_assoc, decimalValue_append, decimalValue_zeros, List.length_replicate,
    Nat.add_zero]

/-- **The steps of a decimal are its digits**, if it is below `2 ^ 33` or an integer up to
`2 ^ 53`. -/
theorem hasSteps_filled (few : decimals.length ≤ printedPlaces)
    (bounded : decimalRatio digits decimals < 2 ^ 33 ∨
      decimals = [] ∧ decimalRatio digits [] ≤ 2 ^ 53) :
    (ofDecimal (decimalValue (digits ++ decimals)) decimals.length).HasSteps
      (decimalValue (digits ++ filled decimals)) := by
  rw [decimalValue_filled]
  rcases bounded with less | ⟨rfl, most⟩
  · exact hasSteps_ofDecimal few ((decimalRatio_lt_iff (2 ^ 33)).mp (by exact_mod_cast less))
  · rw [decimalRatio, List.append_nil, List.length_nil, pow_zero, div_one] at most
    rw [List.append_nil]
    exact hasSteps_ofDecimal_whole (by exact_mod_cast most)

/-- **A decimal is printed as it was written**, without superfluous zeros in front and with zeros
behind it up to the sixth place. -/
theorem fixed_ofDecimal (inside : ∀ digit ∈ digits, digit.isDigit)
    (behind : ∀ digit ∈ decimals, digit.isDigit) (few : decimals.length ≤ printedPlaces)
    (bounded : decimalRatio digits decimals < 2 ^ 33 ∨
      decimals = [] ∧ decimalRatio digits [] ≤ 2 ^ 53) :
    (ofDecimal (decimalValue (digits ++ decimals)) decimals.length).fixed =
      String.ofList (plainDigits digits) ++ "." ++ String.ofList (filled decimals) := by
  obtain ⟨same, below⟩ := paddedDigits_decimalValue (isDigit_filled behind)
  have parts := decimalValue_append digits (filled decimals)
  rw [length_filled few] at same below parts
  have whole : decimalValue (filled decimals) + 10 ^ printedPlaces * decimalValue digits =
      decimalValue (digits ++ filled decimals) := by
    rw [parts]
    ring
  obtain ⟨quotient, remainder⟩ :=
    (Nat.div_mod_unique (Nat.zero_lt_of_lt below)).mpr ⟨whole, below⟩
  rw [(hasSteps_filled few bounded).fixed, quotient, remainder, decimalText_decimalValue inside,
    same]

end Number

end Scriptlet
