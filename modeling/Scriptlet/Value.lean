/-
**Values** of running programs.

* `Value.kind`: the kind of a value, by which errors name it.
* `Value.printed`: the printed form.
* `Value.same`: equality; numbers by their value, functions by their identity, and values of
  different kinds are never the same.
-/

import Scriptlet.Number.Decimal
import Scriptlet.Tree

namespace Scriptlet

/-- **A value.** -/
inductive Value where
  | number (value : Number)
  | text (value : String)
  | boolean (value : Bool)
  | range (value : Range)
  /-- A function, with the number of the definition's run that made it. -/
  | function (identity : Nat) (definition : Definition)
  | nil

/-- The kind of a value. -/
inductive ValueKind where
  | number
  | text
  | boolean
  | range
  | function
  | nil
  deriving DecidableEq

/-- The name of a kind. -/
def ValueKind.name : ValueKind → String
  | number => "Number"
  | text => "String"
  | boolean => "Boolean"
  | range => "Range"
  | function => "Function"
  | nil => "nil"

/-- The text of a truth value. -/
def truthText (value : Bool) : String := if value then "true" else "false"

namespace Value

instance : Inhabited Value := ⟨nil⟩

/-- The kind of a value. -/
def kind : Value → ValueKind
  | number _ => .number
  | text _ => .text
  | boolean _ => .boolean
  | range _ => .range
  | function _ _ => .function
  | nil => .nil

/-- **The printed form of a value.** -/
def printed : Value → String
  | number value => value.fixed
  | text value => value
  | boolean value => truthText value
  | range value => value.text
  | function _ definition => "#<def " ++ definition.name ++ ">"
  | nil => "nil"

/-- **Whether two values are the same.** -/
def same : Value → Value → Bool
  | number left, number right => left.equal right
  | text left, text right => left = right
  | boolean left, boolean right => left = right
  | range left, range right => left = right
  | function left _, function right _ => left = right
  | nil, nil => true
  | _, _ => false

end Value

end Scriptlet
