/-
**Errors of running programs.**

* `RuntimeFault`: what went wrong, apart from where.
* `RuntimeError.message`: the line and the fault in words.
-/

import Scriptlet.Number.Integer
import Scriptlet.ParseError
import Scriptlet.Sink
import Scriptlet.Value

namespace Scriptlet

/-- The number of calls that may be active at once. -/
def maximumDepth : Nat := 1000

/-- What went wrong in a running program. -/
inductive RuntimeFault where
  /-- The name has no value. -/
  | unknownName (name : String)
  /-- The function takes another number of arguments. -/
  | argumentCount (name : String) (given expected : Nat)
  /-- The value of the name is no function. -/
  | notCallable (name : String) (kind : ValueKind)
  /-- A condition must be a truth value. -/
  | expectedBoolean (found : ValueKind)
  /-- A loop must run over a range. -/
  | notIterable (kind : ValueKind)
  /-- A number and an integer do not convert. -/
  | conversion (fault : ConversionFault)
  /-- The operator does not take these operands. -/
  | unsupportedOperands (operator : BinaryOperator) (left right : ValueKind)
  /-- The operator does not take this operand. -/
  | unsupportedOperand (operator : UnaryOperator) (operand : ValueKind)
  /-- There is no remainder by zero. -/
  | divisionByZero
  /-- Too many calls are active. -/
  | tooDeep
  /-- The output was refused. -/
  | output (refusal : Refusal)
  deriving DecidableEq

/-- A fault of a conversion in words. -/
def ConversionFault.message : ConversionFault → String
  | notFinite value => "Cannot truncate non-finite value " ++ value.shortest ++ " to an integer"
  | tooLarge value => "Value " ++ value.shortest ++ " does not fit in an integer"
  | inexact integer =>
    "Integer " ++ integerText integer.toInt ++ " cannot be represented exactly as a number"

/-- A fault in words. -/
def RuntimeFault.message : RuntimeFault → String
  | unknownName name => "Undefined name '" ++ name ++ "'."
  | argumentCount name given expected =>
    "Wrong number of arguments for '" ++ name ++ "' (given " ++ decimalText given ++
      ", expected " ++ decimalText expected ++ ")."
  | notCallable name kind => "'" ++ name ++ "' is a " ++ kind.name ++ ", not a function."
  | expectedBoolean found => "Expected boolean condition but found " ++ found.name ++ "."
  | notIterable kind => "Type error: Cannot iterate over " ++ kind.name ++ "."
  | conversion fault => "Type error: " ++ fault.message ++ "."
  | unsupportedOperands operator left right =>
    "Operator '" ++ operator.text ++ "' is not defined for " ++ left.name ++ " and " ++
      right.name ++ "."
  | unsupportedOperand operator operand =>
    "Operator '" ++ operator.text ++ "' is not defined for " ++ operand.name ++ "."
  | divisionByZero => "Division by zero."
  | tooDeep =>
    "Stack level too deep (more than " ++ decimalText maximumDepth ++ " nested calls)."
  | output refusal => "Failed to write output: " ++ refusal.message ++ "."

/-- **A fault and its line.** -/
structure RuntimeError where
  line : Nat
  fault : RuntimeFault
  deriving DecidableEq

/-- An error in words. -/
def RuntimeError.message (error : RuntimeError) : String :=
  lineHeading error.line ++ error.fault.message

end Scriptlet
