/-
**The load factor of a table.**

Whether a table grows can be decided by comparing two double precision numbers, the names per bin
and three quarters. The quotient is rounded, and three quarters is not. Up to `2 ^ 52` bins a
quotient beyond three quarters exceeds it by more than half of its last place, so nothing is lost.

* `Table.loadFactor`, `Table.maximalLoad`: the two numbers.
* `Table.crowded_eq_less_loadFactor`: **comparing them tells whether the table is crowded.**
* `Table.insertByLoad`: the insertion that grows by this comparison.
-/

import Scriptlet.Number.Decimal
import Scriptlet.Proofs.Number.Comparison
import Scriptlet.Table

namespace Scriptlet

open scoped Powers

/-- One has many more units than a significand. -/
theorem exists_unitsPerOne : ∃ exponent ≤ 2045, unitsPerOne = 2 ^ 53 * 2 ^ exponent := by
  have sum : 53 + (unitExponent - 53) = unitExponent := rfl
  exact ⟨unitExponent - 53, by decide, by rw [← Nat.pow_add, sum, unitsPerOne]⟩

namespace Table

variable {α : Type} (table : Table α)

/-- **The load factor**: names per bin. -/
def loadFactor : Number := (Number.ofInt table.size).divide (Number.ofInt table.binCount)

/-- The largest load factor of a table that does not grow. -/
def maximalLoad : Number := .ofDecimal 75 2

/-- Three quarters need no rounding. -/
theorem maximalLoad_eq {exponent : ℕ} (small : exponent ≤ 2045)
    (one : unitsPerOne = 2 ^ 53 * 2 ^ exponent) :
    ∃ magnitude, maximalLoad = .finite false magnitude ∧
      magnitude.units = 3 * 2 ^ 51 * 2 ^ exponent := by
  have short : 3 * 2 ^ 51 < 2 ^ significandBits := by decide
  have narrow : Narrow (3 * 2 ^ 51 * 2 ^ exponent) := ⟨_, _, short, rfl⟩
  have below := mul_two_pow_lt_unitLimit short small
  have ratio : 75 * unitsPerOne = 3 * 2 ^ 51 * 2 ^ exponent * 10 ^ 2 := by
    rw [one]
    omega
  refine ⟨⟨_, narrow, below⟩, ?_, rfl⟩
  rw [maximalLoad, Number.ofDecimal, ratio, Number.ofRatio_of_narrow false (by decide) narrow below]

section Units

variable {scale one : ℕ} (positive : 0 < scale) (same : one = 2 ^ 53 * scale)
include positive same

/-- The exact comparison of the load with three quarters, in units. -/
theorem load_exceeds_iff :
    3 * 2 ^ 51 * scale * (table.binCount * one) < table.size * one * one ↔
      3 * table.binCount < 4 * table.size := by
  subst same
  have unit : 0 < 2 ^ 104 * (scale * scale) := by positivity
  have left : 3 * 2 ^ 51 * scale * (table.binCount * (2 ^ 53 * scale)) =
      3 * table.binCount * (2 ^ 104 * (scale * scale)) := by ring
  have right : table.size * (2 ^ 53 * scale) * (2 ^ 53 * scale) =
      4 * table.size * (2 ^ 104 * (scale * scale)) := by ring
  rw [left, right, Nat.mul_lt_mul_right unit]

/-- A load beyond three quarters exceeds it by more than half of its last place. -/
theorem load_exceeds_half (bins : table.binCount < 2 ^ 52)
    (exceeds : 3 * table.binCount < 4 * table.size) :
    (2 * (3 * 2 ^ 51) + 1) * scale * (table.binCount * one) < 2 * (table.size * one * one) := by
  subst same
  have unit : 0 < 2 ^ 53 * (scale * scale) := by positivity
  have apart : (3 * 2 ^ 52 + 1) * table.binCount < 2 ^ 54 * table.size := by omega
  calc (2 * (3 * 2 ^ 51) + 1) * scale * (table.binCount * (2 ^ 53 * scale))
      = (3 * 2 ^ 52 + 1) * table.binCount * (2 ^ 53 * (scale * scale)) := by ring
    _ < 2 ^ 54 * table.size * (2 ^ 53 * (scale * scale)) := Nat.mul_lt_mul_of_pos_right apart unit
    _ = 2 * (table.size * (2 ^ 53 * scale) * (2 ^ 53 * scale)) := by ring

end Units

/-- **Comparing the load factor tells whether a table is crowded.** -/
theorem crowded_eq_less_loadFactor (few : table.size < 2 ^ significandBits)
    (bins : table.binCount < 2 ^ 52) :
    table.crowded = maximalLoad.less table.loadFactor := by
  obtain ⟨exponent, small, one⟩ := exists_unitsPerOne
  have scale := Nat.two_pow_pos exponent
  have room : table.binCount < 2 ^ significandBits := bins.trans (by decide)
  obtain ⟨load, loadSame, loadUnits⟩ := maximalLoad_eq small one
  obtain ⟨names, namesSame, namesUnits⟩ := Number.ofInt_natCast few
  obtain ⟨count, countSame, countUnits⟩ := Number.ofInt_natCast room
  have positive : 0 < count.units := by
    rw [countUnits]
    exact Nat.mul_pos table.bins_pos unitsPerOne_pos
  have quotient : table.loadFactor = .ofRatio false (names.units * unitsPerOne) count.units := by
    rw [loadFactor, namesSame, countSame]
    exact if_neg positive.ne'
  have exact : load.units * count.units < names.units * unitsPerOne ↔
      3 * table.binCount < 4 * table.size := by
    rw [loadUnits, countUnits, namesUnits]
    exact load_exceeds_iff table scale one
  rw [loadSame, quotient, Number.less_ofRatio positive (by decide) (by decide) loadUnits]
  · rw [crowded, decide_eq_decide]
    exact exact.symm
  · intro exceeds
    rw [countUnits, namesUnits]
    exact load_exceeds_half table scale one bins (exact.mp exceeds)

/-- A table whose load factor is too large grows once. -/
def relievedByLoad : Table α := if maximalLoad.less table.loadFactor then table.grow else table

/-- **Store a value under a name**; with a new name the table grows by its load factor. -/
def insertByLoad (name : String) (value : α) : Table α :=
  if unknown : (table.chain name).overwrite? name value = none then
    (table.insertNew name value unknown).relievedByLoad
  else
    table.insert name value

theorem insert_of_unknown {name : String} {value : α}
    (unknown : (table.chain name).overwrite? name value = none) :
    table.insert name value = (table.insertNew name value unknown).relieved := by
  unfold insert
  split
  · next chain walk =>
    rw [unknown] at walk
    cases walk
  · rfl

/-- Up to `2 ^ 52` bins, growing by the load factor is growing when crowded. -/
theorem insertByLoad_eq (name : String) (value : α) (few : table.size + 1 < 2 ^ significandBits)
    (bins : table.binCount < 2 ^ 52) : table.insertByLoad name value = table.insert name value := by
  rw [insertByLoad]
  by_cases unknown : (table.chain name).overwrite? name value = none
  · have same := crowded_eq_less_loadFactor (table.insertNew name value unknown) few
      (Nat.lt_of_le_of_lt (Nat.le_of_eq (Bins.size_append ..)) bins)
    rw [dif_pos unknown, insert_of_unknown table unknown, relievedByLoad, ← same, relieved]
  · rw [dif_neg unknown]

end Table

end Scriptlet
