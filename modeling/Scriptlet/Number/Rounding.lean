/-
**Rounding a quotient to the nearest natural number, a half going to the even neighbour.**

* `divideToEven_le` and `le_divideToEven`: the result is the quotient or the quotient plus one.
* `divideToEven_of_dvd`: an exact quotient is kept.
* `Powers`: the powers of the natural numbers themselves, whatever algebra is imported beside them.
-/

namespace Scriptlet

namespace Powers

scoped instance (priority := 10000) natPower : Pow Nat Nat := instPowNat

end Powers

/-- **Nearest quotient, ties to even**: `numerator / denominator` as a natural number. -/
def divideToEven (numerator denominator : Nat) : Nat :=
  let quotient := numerator / denominator
  match compare (2 * (numerator % denominator)) denominator with
  | .lt => quotient
  | .eq => quotient + quotient % 2
  | .gt => quotient + 1

theorem divideToEven_le (numerator denominator : Nat) :
    divideToEven numerator denominator ≤ numerator / denominator + 1 := by
  unfold divideToEven
  dsimp only
  split <;> omega

theorem le_divideToEven (numerator denominator : Nat) :
    numerator / denominator ≤ divideToEven numerator denominator := by
  unfold divideToEven
  dsimp only
  split <;> omega

/-- An exact quotient needs no rounding. -/
theorem divideToEven_of_dvd {numerator denominator : Nat} (positive : 0 < denominator)
    (divides : denominator ∣ numerator) :
    divideToEven numerator denominator = numerator / denominator := by
  have exact : numerator % denominator = 0 := Nat.mod_eq_zero_of_dvd divides
  have below : compare (2 * (numerator % denominator)) denominator = .lt := by
    rw [exact, Nat.compare_eq_lt]
    simpa using positive
  unfold divideToEven
  rw [below]

end Scriptlet
