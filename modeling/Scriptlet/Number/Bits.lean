/-
**The 64-bit form of a number**: a sign bit, eleven exponent bits and 52 fraction bits.

* `Number.ofBits`: every word has a meaning; all words with a full exponent and a nonzero fraction
  are not-a-number.
* `Number.toBits`: one word for each number.
-/

import Scriptlet.Number.Basic

namespace Scriptlet

open scoped Powers

namespace Magnitude

/-- The width of a word's fraction field. -/
def fractionBits : Nat := 52

/-- The units of a word's exponent and fraction fields. -/
def fieldUnits (exponent fraction : Nat) : Nat :=
  if exponent = 0 then fraction else (2 ^ fractionBits + fraction) * 2 ^ (exponent - 1)

/-- **The magnitude of the fields of a finite word.** -/
def ofFields (exponent fraction : Nat) (finite : exponent < 2047)
    (short : fraction < 2 ^ fractionBits) : Magnitude where
  units := fieldUnits exponent fraction
  narrow := by
    have wider : 2 * 2 ^ fractionBits = 2 ^ significandBits := by decide
    unfold fieldUnits
    split
    · exact ⟨fraction, 0, by omega, by simp⟩
    · exact ⟨2 ^ fractionBits + fraction, exponent - 1, by omega, rfl⟩
  below := by
    have wider : 2 * 2 ^ fractionBits = 2 ^ significandBits := by decide
    unfold fieldUnits
    split
    · simpa using @mul_two_pow_lt_unitLimit fraction 0 (by omega) (by omega)
    · exact mul_two_pow_lt_unitLimit (by omega) (by omega)

/-- The exponent and fraction fields as one number. -/
def fields (magnitude : Magnitude) : Nat :=
  let exponent := spareBits magnitude.units
  exponent * 2 ^ fractionBits + magnitude.units / 2 ^ exponent

end Magnitude

namespace Number

open Magnitude

/-- **Read a word.** -/
def ofBits (bits : UInt64) : Number :=
  let negative := decide (2 ^ (63 : Nat) ≤ bits.toNat)
  let exponent := bits.toNat / 2 ^ fractionBits % 2 ^ (11 : Nat)
  let fraction := bits.toNat % 2 ^ fractionBits
  if finite : exponent < 2047 then
    have inside : fraction < 2 ^ fractionBits := Nat.mod_lt _ (Nat.two_pow_pos fractionBits)
    .finite negative (.ofFields exponent fraction finite inside)
  else if fraction = 0 then infinite negative
  else nan

/-- The sign bit of a word. -/
def signBit (negative : Bool) : Nat := if negative then 2 ^ (63 : Nat) else 0

/-- **Write a word**; not-a-number is the quiet one without a sign. -/
def toBits : Number → UInt64
  | nan => .ofNat (2047 * 2 ^ fractionBits + 2 ^ (51 : Nat))
  | infinite negative => .ofNat (signBit negative + 2047 * 2 ^ fractionBits)
  | finite negative magnitude => .ofNat (signBit negative + magnitude.fields)

end Number

end Scriptlet
