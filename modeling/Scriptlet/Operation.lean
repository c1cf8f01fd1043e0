/-
**Operators on values.**

* `Value.arithmetic`: the operators on two numbers; a remainder is taken on truncated operands, the
  divisor first.
* `Value.comparison`: equality of any two values, order of two numbers.
* `Value.connective`: the truth operators with both operands known.
* `Value.binary`, `Value.unary`: any operator; `Value.truth`: a condition.
* `Value.kind_of_binary`, `Value.kind_of_unary`: no operator makes a function.
-/

import Scriptlet.RuntimeError

namespace Scriptlet

/-- **The remainder of two numbers**: both are truncated, and the remainder has the sign of the
dividend. -/
def Number.remainder (left right : Number) : Except RuntimeFault Number := do
  let divisor ← right.truncate.mapError .conversion
  if divisor = 0 then throw .divisionByZero
  let dividend ← left.truncate.mapError .conversion
  return .ofInt (dividend % divisor).toInt

/-- The answer of an equality operator, from whether its operands are the same. -/
def BinaryOperator.judge (operator : BinaryOperator) (same : Bool) : Bool :=
  match operator with
  | notEqual => !same
  | _ => same

namespace Value

/-- The fault of operands that an operator does not take. -/
def unsupported (operator : BinaryOperator) (left right : Value) : RuntimeFault :=
  .unsupportedOperands operator left.kind right.kind

/-- **An arithmetic operator on two numbers.** -/
def arithmetic (operator : BinaryOperator) (left right : Value) : Except RuntimeFault Value :=
  match left, right with
  | number first, number second =>
    match operator with
    | .add => .ok (number (first.add second))
    | .subtract => .ok (number (first.subtract second))
    | .multiply => .ok (number (first.multiply second))
    | .divide => .ok (number (first.divide second))
    | .modulo => (first.remainder second).map number
    | _ => .error (unsupported operator left right)
  | _, _ => .error (unsupported operator left right)

/-- **A comparison**: any two values may be equal, only numbers are ordered. -/
def comparison (operator : BinaryOperator) (left right : Value) : Except RuntimeFault Value :=
  match operator with
  | .equal | .notEqual => .ok (boolean (operator.judge (left.same right)))
  | _ =>
    match left, right with
    | number first, number second =>
      match operator with
      | .less => .ok (boolean (first.less second))
      | .greater => .ok (boolean (second.less first))
      | .lessEqual => .ok (boolean (first.lessEqual second))
      | .greaterEqual => .ok (boolean (second.lessEqual first))
      | _ => .error (unsupported operator left right)
    | _, _ => .error (unsupported operator left right)

/-- **A truth operator on two truth values.** -/
def connective (operator : BinaryOperator) (left right : Value) : Except RuntimeFault Value :=
  match left, right with
  | boolean first, boolean second =>
    .ok (boolean (if operator = .and then first && second else first || second))
  | _, _ => .error (unsupported operator left right)

/-- **Any operator between two values.** -/
def binary (operator : BinaryOperator) (left right : Value) : Except RuntimeFault Value :=
  match operator with
  | .add | .subtract | .multiply | .divide | .modulo => arithmetic operator left right
  | .less | .greater | .lessEqual | .greaterEqual | .equal | .notEqual =>
    comparison operator left right
  | .and | .or => connective operator left right

/-- **Any operator in front of a value.** -/
def unary (operator : UnaryOperator) (operand : Value) : Except RuntimeFault Value :=
  match operator, operand with
  | .negate, number value => .ok (number value.negate)
  | .not, boolean value => .ok (boolean !value)
  | _, _ => .error (.unsupportedOperand operator operand.kind)

/-- **The truth of a condition.** -/
def truth : Value → Except RuntimeFault Bool
  | boolean value => .ok value
  | other => .error (.expectedBoolean other.kind)

/-! ### Kinds of results -/

variable {operator : BinaryOperator} {left right result : Value}

theorem kind_of_arithmetic (computed : arithmetic operator left right = .ok result) :
    result.kind ≠ .function := by
  unfold arithmetic at computed
  split at computed
  · next first second =>
    generalize first.remainder second = remainder at computed
    split at computed
    case h_5 =>
      rcases remainder with fault | value <;> cases computed
      nofun
    all_goals cases computed
    all_goals nofun
  · cases computed

theorem kind_of_comparison (computed : comparison operator left right = .ok result) :
    result.kind ≠ .function := by
  unfold comparison at computed
  split at computed
  · cases computed
    nofun
  · cases computed
    nofun
  · split at computed
    · split at computed <;> cases computed <;> nofun
    · cases computed

theorem kind_of_connective (computed : connective operator left right = .ok result) :
    result.kind ≠ .function := by
  unfold connective at computed
  split at computed
  · cases computed
    nofun
  · cases computed

/-- **No operator makes a function.** -/
theorem kind_of_binary (computed : binary operator left right = .ok result) :
    result.kind ≠ .function := by
  unfold binary at computed
  cases operator with
  | add | subtract | multiply | divide | modulo => exact kind_of_arithmetic computed
  | and | or => exact kind_of_connective computed
  | _ => exact kind_of_comparison computed

theorem kind_of_unary {operator : UnaryOperator} {operand : Value}
    (computed : unary operator operand = .ok result) : result.kind ≠ .function := by
  unfold unary at computed
  split at computed <;> cases computed <;> nofun

end Value

end Scriptlet
