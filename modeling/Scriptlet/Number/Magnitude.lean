/-
**Magnitudes of finite numbers, counted in units of `2 ^ -1074`.**

Every finite double precision number is an integral multiple of the smallest positive one, so its
magnitude is a natural number of such units. A magnitude has at most 53 significant bits and stays
below `2 ^ 2098` units.

* `Magnitude.round`: the magnitude nearest to a ratio, a half going to the even significand, and
  `none` when the ratio rounds to `2 ^ 2098` units or more.
* `Magnitude.ext`: units determine a magnitude.
-/

import Scriptlet.Number.Rounding

namespace Scriptlet

open scoped Powers

/-- The most significant bits that a number has. -/
def significandBits : Nat := 53

/-- One is this power of two, in units. -/
def unitExponent : Nat := 1074

/-- The number of units in the number one. -/
def unitsPerOne : Nat := 2 ^ unitExponent

/-- The power of two that every magnitude stays below, in units. -/
def limitExponent : Nat := 2098

/-- Every magnitude stays below this many units. -/
def unitLimit : Nat := 2 ^ limitExponent

theorem unitsPerOne_pos : 0 < unitsPerOne := Nat.two_pow_pos _

theorem unitLimit_pos : 0 < unitLimit := Nat.two_pow_pos _

/-- 53 significant bits and a shift of at most 2045 places stay below the limit. -/
theorem mul_two_pow_lt_unitLimit {significand exponent : Nat}
    (narrow : significand < 2 ^ significandBits) (small : exponent ≤ 2045) :
    significand * 2 ^ exponent < unitLimit := by
  calc significand * 2 ^ exponent < 2 ^ significandBits * 2 ^ exponent :=
        Nat.mul_lt_mul_of_pos_right narrow (Nat.two_pow_pos _)
    _ = 2 ^ (significandBits + exponent) := (Nat.pow_add ..).symm
    _ ≤ unitLimit :=
        Nat.pow_le_pow_right (by decide) (by unfold significandBits limitExponent; omega)

/-- **The magnitude of a finite number**, in units of `2 ^ -1074`. -/
structure Magnitude where
  /-- The number of units. -/
  units : Nat
  /-- At most 53 bits are significant. -/
  narrow : ∃ significand exponent : Nat, significand < 2 ^ significandBits ∧
    units = significand * 2 ^ exponent
  /-- The largest finite magnitude is one step below the limit. -/
  below : units < unitLimit
  deriving DecidableEq

namespace Magnitude

/-- Units determine a magnitude. -/
theorem ext {first second : Magnitude} (same : first.units = second.units) : first = second := by
  cases first
  cases second
  cases same
  rfl

/-- The magnitude zero. -/
def zero : Magnitude where
  units := 0
  narrow := ⟨0, 0, by decide, rfl⟩
  below := unitLimit_pos

instance : Inhabited Magnitude := ⟨zero⟩

/-- The bits dropped from a count of units to keep 53 significant ones. -/
def spareBits (units : Nat) : Nat := units.log2 - 52

/-- A significand of at most `2 ^ 53` still has at most 53 significant bits. -/
theorem narrow_of_le {significand : Nat} (exponent : Nat)
    (bounded : significand ≤ 2 ^ significandBits) :
    ∃ significand' exponent' : Nat, significand' < 2 ^ significandBits ∧
      significand * 2 ^ exponent = significand' * 2 ^ exponent' := by
  rcases Nat.lt_or_eq_of_le bounded with less | equal
  · exact ⟨significand, exponent, less, rfl⟩
  · refine ⟨2 ^ 52, exponent + 1, by decide, ?_⟩
    rw [equal, ← Nat.pow_add, ← Nat.pow_add]
    congr 1
    unfold significandBits
    omega

/-- The nearest significand after dropping the spare bits of a ratio. -/
def roundedSignificand (numerator denominator : Nat) : Nat :=
  divideToEven numerator (denominator * 2 ^ spareBits (numerator / denominator))

theorem roundedSignificand_le (numerator denominator : Nat) :
    roundedSignificand numerator denominator ≤ 2 ^ significandBits := by
  have step := divideToEven_le numerator
    (denominator * 2 ^ spareBits (numerator / denominator))
  have bound : numerator / (denominator * 2 ^ spareBits (numerator / denominator)) <
      2 ^ significandBits := by
    rw [← Nat.div_div_eq_div_mul, Nat.div_lt_iff_lt_mul (Nat.two_pow_pos _), ← Nat.pow_add]
    calc numerator / denominator < 2 ^ ((numerator / denominator).log2 + 1) :=
          Nat.lt_log2_self
      _ ≤ 2 ^ (significandBits + spareBits (numerator / denominator)) :=
          Nat.pow_le_pow_right (by decide) (by unfold significandBits spareBits; omega)
  unfold roundedSignificand
  omega

/-- **Round a ratio of units** to the nearest magnitude, ties to the even significand; `none` when
the nearest one would reach the limit. -/
def round (numerator denominator : Nat) : Option Magnitude :=
  let significand := roundedSignificand numerator denominator
  let exponent := spareBits (numerator / denominator)
  if below : significand * 2 ^ exponent < unitLimit then
    some ⟨significand * 2 ^ exponent,
      narrow_of_le exponent (roundedSignificand_le numerator denominator), below⟩
  else
    none

end Magnitude

end Scriptlet
