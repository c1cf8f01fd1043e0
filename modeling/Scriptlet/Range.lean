/-
**Ranges of 64-bit integers**, with or without their last bound.

* `Range.text`: the bounds with two or three dots between them.
* `Range.stop`: the first integer beyond the range, so that a range is a half-open interval.
-/

import Scriptlet.Number.Decimal

namespace Scriptlet

/-- Whether a range holds its last bound. -/
inductive RangeKind where
  | inclusive
  | exclusive
  deriving DecidableEq

/-- The dots between the bounds. -/
def RangeKind.dots : RangeKind → List Char
  | inclusive => ['.', '.']
  | exclusive => ['.', '.', '.']

/-- **A range of integers.** -/
structure Range where
  kind : RangeKind
  first : Int64
  last : Int64
  deriving DecidableEq

namespace Range

/-- The text of a range, as it is written and printed. -/
def text (range : Range) : String :=
  integerText range.first.toInt ++ String.ofList range.kind.dots ++ integerText range.last.toInt

/-- The first integer beyond a range that counts upwards. -/
def stop (range : Range) : Int :=
  match range.kind with
  | .inclusive => range.last.toInt + 1
  | .exclusive => range.last.toInt

end Range

end Scriptlet
