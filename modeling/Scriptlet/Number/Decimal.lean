/-
**Decimal text of numbers.**

* `Number.ofDecimal` reads digits with a decimal point, rounding once.
* `Number.fixed` writes six decimals of the exact value, a half going to the even last digit.
* `Number.shortest` writes the fewest digits that read back as the same number, the nearer of two
  such texts and the larger one on a tie; there is never an exponent.

A finite number has at most 1074 decimals: one unit is `5 ^ 1074` steps of `10 ^ -1074`.
-/

import Scriptlet.Number.Basic

namespace Scriptlet

open scoped Powers

/-- The value of a run of decimal digits. -/
def decimalValue (digits : List Char) : Nat :=
  digits.foldl (fun value digit => 10 * value + (digit.toNat - '0'.toNat)) 0

/-- A natural number in decimal digits. -/
def decimalText (value : Nat) : String := value.repr

/-- An integer in decimal digits, with a minus sign below zero. -/
def integerText (integer : Int) : String :=
  if integer < 0 then "-" ++ decimalText integer.natAbs else decimalText integer.natAbs

/-- The lowest digits of a value, filled with zeros in front to the given width. -/
def paddedDigits : (width : Nat) → (value : Nat) → List Char
  | 0, _ => []
  | width + 1, value => paddedDigits width (value / 10) ++ [Nat.digitChar (value % 10)]

/-- Trailing zeros are dropped. -/
def withoutTrailingZeros (digits : List Char) : List Char :=
  (digits.reverse.dropWhile (· = '0')).reverse

namespace Number

/-- **Read a decimal**: all its digits as one number, and how many of them are decimals. -/
def ofDecimal (digits places : Nat) : Number :=
  ofRatio false (digits * unitsPerOne) (10 ^ places)

/-- The decimals of a printed number. -/
def printedPlaces : Nat := 6

/-- A sign in front of a text. -/
def withSign (negative : Bool) (text : String) : String :=
  if negative then "-" ++ text else text

/-- The text of an infinity. -/
def infinityText (negative : Bool) : String := withSign negative "inf"

/-- The text of not-a-number. -/
def nanText : String := "NaN"

end Number

namespace Magnitude

/-- Six decimals of the exact value, ties to even. -/
def fixed (magnitude : Magnitude) : String :=
  let scale := 10 ^ Number.printedPlaces
  let steps := divideToEven (magnitude.units * scale) unitsPerOne
  decimalText (steps / scale) ++ "." ++
    String.ofList (paddedDigits Number.printedPlaces (steps % scale))

/-- The most decimals that a finite number has. -/
def exactPlaces : Nat := unitExponent

/-- A unit counted in steps of `10 ^ -1074`. -/
def stepsPerUnit : Nat := 5 ^ exactPlaces

/-- Whether a decimal, counted in steps of `10 ^ -1074`, reads back as the magnitude. -/
def ReadsBack (magnitude : Magnitude) (steps : Nat) : Prop :=
  round steps stepsPerUnit = some magnitude

instance (magnitude : Magnitude) (steps : Nat) : Decidable (magnitude.ReadsBack steps) :=
  inferInstanceAs (Decidable (_ = _))

/-- **The coarsest decimal that reads back**, searched on the grids `10 ^ grid` from coarse to
fine: of the two neighbours of the exact value, the nearer that reads back, the upper on a tie. -/
def shortestSteps (magnitude : Magnitude) : (grid : Nat) → Nat
  | 0 => magnitude.units * stepsPerUnit
  | grid + 1 =>
    let exact := magnitude.units * stepsPerUnit
    let spacing := 10 ^ (grid + 1)
    let lower := exact / spacing * spacing
    let upper := lower + spacing
    match decide (magnitude.ReadsBack lower), decide (magnitude.ReadsBack upper) with
    | true, true => if 2 * (exact - lower) < spacing then lower else upper
    | true, false => lower
    | false, true => upper
    | false, false => magnitude.shortestSteps grid

/-- A grid coarser than a value: thirteen binary digits are worth less than four decimal ones. -/
def gridBeyond (steps : Nat) : Nat := (steps.log2 + 1) * 4 / 13 + 1

/-- The decimals of a value in steps of `10 ^ -1074`, behind a point, unless it is whole. -/
def decimalsText (steps : Nat) : String :=
  let decimals := steps % 10 ^ exactPlaces
  if decimals = 0 then ""
  else "." ++ String.ofList (withoutTrailingZeros (paddedDigits exactPlaces decimals))

/-- The shortest decimal text that reads back. -/
def shortest (magnitude : Magnitude) : String :=
  let steps := magnitude.shortestSteps (gridBeyond (magnitude.units * stepsPerUnit))
  decimalText (steps / 10 ^ exactPlaces) ++ decimalsText steps

end Magnitude

namespace Number

/-- **The printed form of a number**: six decimals, never an exponent. -/
def fixed : Number → String
  | nan => nanText
  | infinite negative => infinityText negative
  | finite negative magnitude => withSign negative magnitude.fixed

/-- **The shortest text of a number that reads back.** -/
def shortest : Number → String
  | nan => nanText
  | infinite negative => infinityText negative
  | finite negative magnitude => withSign negative magnitude.shortest

end Number

end Scriptlet
