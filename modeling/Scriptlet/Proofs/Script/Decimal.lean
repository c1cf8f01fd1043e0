/-
**Decimals that are written down and printed.**

* `decimalLiteral`: the text of a decimal; `stands_decimalLiteral`: **it stands for the rounded
  number**, so that `puts` prints what `Number.fixed_ofDecimal` says.
* `decimals_print_back`: **a decimal is printed as it was written**, up to zeros at its ends.
-/

import Scriptlet.Proofs.Number.Fixed
import Scriptlet.Proofs.Script.Literal

namespace Scriptlet

open scoped Powers

/-- **The text of a decimal**: there is no point without a place behind it. -/
def decimalLiteral (digits decimals : List Char) : List Char :=
  if decimals = [] then digits else digits ++ '.' :: decimals

section Literals

variable {digits decimals : List Char}

theorem numeral_decimalLiteral (run : IsDigits digits)
    (behind : ∀ digit ∈ decimals, digit.isDigit) :
    Numeral (decimalLiteral digits decimals)
      (.ofDecimal (decimalValue (digits ++ decimals)) decimals.length) := by
  by_cases none : decimals = []
  · rw [decimalLiteral, if_pos none, none, List.append_nil]
    exact .whole run
  · rw [decimalLiteral, if_neg none]
    exact .decimal run ⟨none, behind⟩

/-- **A decimal stands for the number that it is rounded to.** -/
theorem stands_decimalLiteral (run : IsDigits digits)
    (behind : ∀ digit ∈ decimals, digit.isDigit) :
    Stands ⟨.number, decimalLiteral digits decimals⟩
      (.number (.ofDecimal (decimalValue (digits ++ decimals)) decimals.length)) := by
  have numeral := numeral_decimalLiteral run behind
  refine ⟨⟨nofun, _, numeral⟩, rfl, fun line => ⟨_, .number rfl ?_, fun _ _ => rfl⟩⟩
  rw [Word.tokenOn, String.toList_ofList]
  exact numeral

/-- **A decimal is printed as it was written.** With up to six places and below `2 ^ 33`, or as an
integer up to `2 ^ 53`, it appears behind `puts` with exactly six places, without superfluous zeros
in front of it and with zeros behind it: rounding it to a number and back changes nothing. -/
theorem decimals_print_back (run : IsDigits digits)
    (behind : ∀ digit ∈ decimals, digit.isDigit) (few : decimals.length ≤ 6)
    (bounded : decimalRatio digits decimals < 2 ^ 33 ∨
      decimals = [] ∧ decimalRatio digits [] ≤ 2 ^ 53) :
    PrintsLine ("puts " ++ String.ofList (decimalLiteral digits decimals))
      (String.ofList (plainDigits digits) ++ "." ++
        String.ofList (decimals ++ List.replicate (6 - decimals.length) '0')) := by
  have printed : (Number.ofDecimal (decimalValue (digits ++ decimals)) decimals.length).fixed =
      String.ofList (plainDigits digits) ++ "." ++ String.ofList (Number.filled decimals) :=
    Number.fixed_ofDecimal run.2 behind few bounded
  have line := (stands_decimalLiteral run behind).printsLine
  rw [Value.printed, printed] at line
  exact line

/-- The last decimal of five places below the first bound, with a zero in front of it, and the last
integer below the second one. -/
theorem decimals_print_back_at_bounds :
    PrintsLine "puts 08589934591.99999" "8589934591.999990" ∧
      PrintsLine "puts 9007199254740992" "9007199254740992.000000" := by
  constructor
  · have run : IsDigits ['0', '8', '5', '8', '9', '9', '3', '4', '5', '9', '1'] := by decide
    have behind : IsDigits ['9', '9', '9', '9', '9'] := by decide
    have below := (decimalRatio_lt_iff (2 ^ 33)).mpr (show
      decimalValue (['0', '8', '5', '8', '9', '9', '3', '4', '5', '9', '1'] ++
        ['9', '9', '9', '9', '9']) < 2 ^ 33 * 10 ^ 5 by decide)
    exact decimals_print_back run behind.2 (by decide) (.inl (by exact_mod_cast below))
  · have run : IsDigits
        ['9', '0', '0', '7', '1', '9', '9', '2', '5', '4', '7', '4', '0', '9', '9', '2'] := by
      decide
    have value : decimalValue
        ['9', '0', '0', '7', '1', '9', '9', '2', '5', '4', '7', '4', '0', '9', '9', '2'] =
          2 ^ 53 := by decide
    refine decimals_print_back run (List.forall_mem_nil _) (by decide) (.inr ⟨rfl, ?_⟩)
    rw [decimalRatio, List.append_nil, value]
    norm_num

end Literals

end Scriptlet
