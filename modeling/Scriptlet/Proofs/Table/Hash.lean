/-
**The hash as a polynomial, and what doubling does to a bin.**

The hash of some bytes is reduced modulo `2 ^ 64` at every byte, and the bin is its remainder by a
number that has nothing to do with `2 ^ 64`. Sums and products keep remainders, so reducing at every
byte is reducing once: the hash is the remainder of the polynomial that has the bytes as
coefficients. Only this remainder is divided by the number of bins.

* `hashPolynomial`: the polynomial; `hashPolynomial_push`: one more byte is one step of the hash.
* `toNat_hashBytes`: **the hash is the polynomial modulo `2 ^ 64`.**
* `bytesIndex`: the bin of any bytes, as words give it; `binIndex_eq_bytesIndex`: the bin of a name.
* `mod_double`: a remainder by twice a number is the remainder by the number, or this number more.
* `Table.bins_grow`: a chain of a table that grows is split in two, each part in its order.
* `bytesIndex_polynomial`: **the bin of a key**, and its bin among twice as many bins.
-/

import Mathlib.Algebra.BigOperators.Fin
import Scriptlet.Number.Rounding
import Scriptlet.Table

namespace Scriptlet

open scoped Powers

/-! ### The polynomial -/

/-- **The polynomial of some bytes** at 499, the first byte with the highest power. -/
def hashPolynomial (bytes : Array UInt8) : ℕ :=
  ∑ place : Fin bytes.size, bytes[place].toNat * 499 ^ (bytes.size - 1 - place)

/-- **Horner's rule**: one more byte raises all powers by one. -/
theorem hashPolynomial_push (bytes : Array UInt8) (byte : UInt8) :
    hashPolynomial (bytes.push byte) = hashPolynomial bytes * 499 + byte.toNat := by
  have size : bytes.size + 1 = (bytes.push byte).size := (Array.size_push byte).symm
  rw [hashPolynomial, ← Fin.sum_congr' _ size, Fin.sum_univ_castSucc, hashPolynomial,
    Finset.sum_mul]
  refine congrArg₂ (· + ·) (Finset.sum_congr rfl fun place _ => ?_) ?_
  · have power : (bytes.push byte).size - 1 - place = bytes.size - 1 - place + 1 := by
      have inside := place.isLt
      omega
    have same : (bytes.push byte)[(place : ℕ)] = bytes[(place : ℕ)] := Array.getElem_push_lt ..
    show (bytes.push byte)[(place : ℕ)].toNat * 499 ^ ((bytes.push byte).size - 1 - place) = _
    rw [power, same, Nat.pow_succ, ← Nat.mul_assoc]
    rfl
  · have power : (bytes.push byte).size - 1 - bytes.size = 0 := by omega
    show (bytes.push byte)[bytes.size].toNat * 499 ^ ((bytes.push byte).size - 1 - bytes.size) = _
    rw [power, Array.getElem_push_eq, Nat.pow_zero, Nat.mul_one]

theorem hashBytes_push (bytes : Array UInt8) (byte : UInt8) :
    hashBytes (bytes.push byte) = hashBytes bytes * hashFactor + byte.toUInt64 :=
  Array.foldl_push

/-- **The hash is the polynomial modulo `2 ^ 64`**, though it is reduced at every byte. -/
theorem toNat_hashBytes (bytes : Array UInt8) :
    (hashBytes bytes).toNat = hashPolynomial bytes % 2 ^ 64 := by
  obtain ⟨list⟩ := bytes
  -- From the end: the last byte is the last step of the fold.
  induction list using List.reverseRecOn with
  | nil => rfl
  | append_singleton front byte hypothesis =>
    have whole : Array.mk (front ++ [byte]) = (Array.mk front).push byte :=
      (List.push_toArray front byte).symm
    rw [whole, hashBytes_push, hashPolynomial_push]
    calc (hashBytes ⟨front⟩ * hashFactor + byte.toUInt64).toNat
        = ((hashBytes ⟨front⟩).toNat * 499 % 2 ^ 64 + byte.toNat) % 2 ^ 64 := by
          rw [UInt64.toNat_add, UInt64.toNat_mul, UInt8.toNat_toUInt64]
          rfl
      _ = (hashPolynomial ⟨front⟩ * 499 + byte.toNat) % 2 ^ 64 := by
          rw [hypothesis, Nat.mod_mul_mod, Nat.mod_add_mod]

/-! ### Bins -/

/-- **The bin of some bytes** among a number of bins, as the remainder of a word by a word. -/
def bytesIndex (bytes : Array UInt8) (bins : ℕ) : ℕ :=
  (hashBytes bytes % UInt64.ofNat bins).toNat

/-- Words leave the remainder as it is, if the number of bins is one. -/
theorem bytesIndex_eq (bytes : Array UInt8) {bins : ℕ} (word : bins < 2 ^ 64) :
    bytesIndex bytes bins = (hashBytes bytes).toNat % bins := by
  rw [bytesIndex, UInt64.toNat_mod, UInt64.toNat_ofNat_of_lt' word]

/-- A name's bin is the bin of its bytes. -/
theorem binIndex_eq_bytesIndex (name : String) {bins : ℕ} (word : bins < 2 ^ 64) :
    binIndex name bins = bytesIndex name.toUTF8.data bins :=
  (bytesIndex_eq _ word).symm

/-- **A remainder by twice a number** is the remainder by the number, or this number more. -/
theorem mod_double (dividend divisor : ℕ) :
    dividend % (2 * divisor) = dividend % divisor ∨
      dividend % (2 * divisor) = dividend % divisor + divisor := by
  rw [Nat.mul_comm, Nat.mod_mul]
  rcases Nat.mod_two_eq_zero_or_one (dividend / divisor) with even | odd
  · left
    rw [even, Nat.mul_zero, Nat.add_zero]
  · right
    rw [odd, Nat.mul_one]

/-- Among twice as many bins, a name keeps its bin or moves up by the number of bins. -/
theorem binIndex_double_cases (name : String) (count : ℕ) :
    binIndex name (2 * count) = binIndex name count ∨
      binIndex name (2 * count) = binIndex name count + count :=
  mod_double ..

section Doubling

variable {α : Type} {index : ℕ}

/-- The entries of a bin go to two bins among twice as many, and no others go there. -/
theorem Chain.bin_double (ordered : Chain α) {count : ℕ} (inside : index < count) :
    ordered.bin (2 * count) index =
        (ordered.bin count index).select (fun name => binIndex name (2 * count) = index) ∧
      ordered.bin (2 * count) (index + count) =
        (ordered.bin count index).select (fun name => binIndex name (2 * count) ≠ index) := by
  have selected (condition : String → Bool) :
      (ordered.bin count index).select condition =
        ordered.select fun name => condition name && binIndex name count = index :=
    List.filter_filter
  rw [selected, selected]
  refine ⟨List.filter_congr fun entry _ => ?_, List.filter_congr fun entry _ => ?_⟩
  all_goals
    -- Either way the bin was `index`: the new one is the same, or it is `count` more.
    have before := binIndex_lt entry.1 (Nat.zero_lt_of_lt inside)
    have moves := binIndex_double_cases entry.1 count
    dsimp only
    rw [← Bool.decide_and, decide_eq_decide]
    omega

/-- **A chain of a table that grows is split in two**: the names that keep their bin, and those
that move up by the old number of bins. Both parts keep their order. -/
theorem Table.bins_grow (table : Table α) (inside : index < table.binCount) :
    ∃ chain, table.bins[index]? = some chain ∧
      table.grow.bins[index]? =
        some (chain.select fun name => binIndex name (2 * table.binCount) = index) ∧
      table.grow.bins[index + table.binCount]? =
        some (chain.select fun name => binIndex name (2 * table.binCount) ≠ index) := by
  obtain ⟨ordered, laid⟩ := table.laid
  have grown : Laid table.grow.bins table.size ordered := laid.double table.bins_pos
  have count : table.grow.bins.size = 2 * table.binCount := Bins.size_distribute ..
  obtain ⟨stay, move⟩ := ordered.bin_double inside
  refine ⟨_, laid.bin index inside, ?_, ?_⟩
  · rw [grown.bin index (by omega), count, stay]
    rfl
  · rw [grown.bin (index + table.binCount) (by omega), count, move]
    rfl

end Doubling

/-- **The bin of a key is its polynomial, reduced twice**: modulo `2 ^ 64`, and then by the number
of bins, which it stays below. Among twice as many bins, as long as these are fewer than `2 ^ 63`,
the bin is the same, or it has moved up by the number of bins. The bin of a name is the bin of its
bytes. -/
theorem bytesIndex_polynomial (key : Array UInt8) {bins : ℕ} (positive : 1 ≤ bins)
    (small : bins < 2 ^ 63) :
    bytesIndex key bins = hashPolynomial key % 2 ^ 64 % bins ∧
      bytesIndex key bins < bins ∧
      (2 * bins < 2 ^ 63 →
        bytesIndex key (2 * bins) = bytesIndex key bins ∨
          bytesIndex key (2 * bins) = bytesIndex key bins + bins) ∧
      ∀ name : String, name.toUTF8.data = key → binIndex name bins = bytesIndex key bins := by
  have word : bins < 2 ^ 64 := by omega
  have value := bytesIndex_eq key word
  refine ⟨?_, ?_, fun room => ?_, ?_⟩
  · rw [value, toNat_hashBytes]
  · rw [value]
    exact Nat.mod_lt _ positive
  · rw [value, bytesIndex_eq key (show 2 * bins < 2 ^ 64 by omega)]
    exact mod_double ..
  · rintro name rfl
    exact binIndex_eq_bytesIndex name word

/-- The polynomial of ten letters exceeds `2 ^ 64` ten million times, and the name moves up when
twenty bins become forty. -/
theorem bytesIndex_polynomial_wrapped :
    10939670 * 2 ^ 64 ≤ hashPolynomial "identifier".toUTF8.data ∧
      binIndex "identifier" 20 = 9 ∧ binIndex "identifier" (2 * 20) = 9 + 20 := by
  have polynomial : hashPolynomial "identifier".toUTF8.data = 201801310959057549079774509 := by
    decide +kernel
  have moved : bytesIndex "identifier".toUTF8.data (2 * 20) ≠
      bytesIndex "identifier".toUTF8.data 20 := by
    decide +kernel
  obtain ⟨value, -, double, name⟩ := bytesIndex_polynomial "identifier".toUTF8.data
    (show 1 ≤ 20 by decide) (by decide)
  obtain ⟨-, -, -, again⟩ := bytesIndex_polynomial "identifier".toUTF8.data
    (show 1 ≤ 2 * 20 by decide) (by decide)
  rw [name _ rfl, again _ rfl, (double (by decide)).resolve_left moved, value, polynomial]
  decide

end Scriptlet
