/-
**Double precision numbers with exact, in-logic arithmetic.**

A number is not-a-number, an infinity or a signed magnitude. Sums, products and quotients are taken
exactly on units and rounded once to the nearest magnitude, ties to even.

* `Number.add`, `Number.subtract`, `Number.multiply`, `Number.divide`, `Number.negate`;
* `Number.position`: where a number stands on the extended line, `none` for not-a-number;
* `Number.equal`, `Number.less`, `Number.lessEqual`: comparisons, false on not-a-number; the two
  zeros are equal.
-/

import Scriptlet.Number.Magnitude

namespace Scriptlet

/-- **A double precision number.** -/
inductive Number where
  /-- The result of an undefined operation. -/
  | nan
  /-- An infinity of either sign. -/
  | infinite (negative : Bool)
  /-- A finite number; zero has both signs. -/
  | finite (negative : Bool) (magnitude : Magnitude)
  deriving DecidableEq

namespace Number

instance : Inhabited Number := ⟨finite false .zero⟩

/-- A zero of the given sign. -/
def zero (negative : Bool) : Number := finite negative .zero

/-- **Round a ratio of units** to a number of the given sign; too large a ratio is infinite. -/
def ofRatio (negative : Bool) (numerator denominator : Nat) : Number :=
  match Magnitude.round numerator denominator with
  | some magnitude => finite negative magnitude
  | none => infinite negative

/-- A count of units with its sign. -/
def signed (negative : Bool) (units : Nat) : Int :=
  if negative then -(units : Int) else units

/-- The sign is turned around; not-a-number stays. -/
def negate : Number → Number
  | nan => nan
  | infinite negative => infinite (!negative)
  | finite negative magnitude => finite (!negative) magnitude

/-- The sum of two finite numbers; an exact zero is negative only for two negative zeros. -/
def addFinite (leftNegative : Bool) (left : Magnitude) (rightNegative : Bool) (right : Magnitude) :
    Number :=
  let sum := signed leftNegative left.units + signed rightNegative right.units
  if sum = 0 then zero (leftNegative && rightNegative)
  else ofRatio (decide (sum < 0)) sum.natAbs 1

/-- The sum, rounded once. -/
def add : Number → Number → Number
  | nan, _ => nan
  | _, nan => nan
  | infinite left, infinite right => if left = right then infinite left else nan
  | infinite left, finite _ _ => infinite left
  | finite _ _, infinite right => infinite right
  | finite leftNegative left, finite rightNegative right =>
    addFinite leftNegative left rightNegative right

/-- The difference, rounded once. -/
def subtract (left right : Number) : Number := left.add right.negate

/-- The product, rounded once; an infinity times zero is undefined. -/
def multiply : Number → Number → Number
  | nan, _ => nan
  | _, nan => nan
  | infinite left, infinite right => infinite (left ^^ right)
  | infinite left, finite right magnitude =>
    if magnitude.units = 0 then nan else infinite (left ^^ right)
  | finite left magnitude, infinite right =>
    if magnitude.units = 0 then nan else infinite (left ^^ right)
  | finite leftNegative left, finite rightNegative right =>
    ofRatio (leftNegative ^^ rightNegative) (left.units * right.units) unitsPerOne

/-- The quotient, rounded once; a nonzero number over zero is infinite. -/
def divide : Number → Number → Number
  | nan, _ => nan
  | _, nan => nan
  | infinite _, infinite _ => nan
  | infinite left, finite right _ => infinite (left ^^ right)
  | finite left _, infinite right => zero (left ^^ right)
  | finite leftNegative left, finite rightNegative right =>
    if right.units = 0 then
      if left.units = 0 then nan else infinite (leftNegative ^^ rightNegative)
    else
      ofRatio (leftNegative ^^ rightNegative) (left.units * unitsPerOne) right.units

/-- **Where a number stands** on the line of signed units, the infinities just beyond all finite
numbers; not-a-number stands nowhere. -/
def position : Number → Option Int
  | nan => none
  | infinite negative => some (signed negative unitLimit)
  | finite negative magnitude => some (signed negative magnitude.units)

/-- Two numbers compare by their positions; not-a-number compares with nothing. -/
def related (relation : Int → Int → Bool) (left right : Number) : Bool :=
  match left.position, right.position with
  | some leftPosition, some rightPosition => relation leftPosition rightPosition
  | _, _ => false

/-- Equality of numbers. -/
def equal : Number → Number → Bool := related fun left right => decide (left = right)

/-- Strict order of numbers. -/
def less : Number → Number → Bool := related fun left right => decide (left < right)

/-- Order of numbers. -/
def lessEqual : Number → Number → Bool := related fun left right => decide (left ≤ right)

end Number

end Scriptlet
