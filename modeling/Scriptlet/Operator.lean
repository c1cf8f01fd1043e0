/-
**Operators of expressions.**

* `BinaryOperator.precedence`: from `||`, which binds loosest, to `*`, `/` and `%`.
* `BinaryOperator.isLogical`: the two operators that may skip their right side.
-/

namespace Scriptlet

/-- An operator between two operands. -/
inductive BinaryOperator where
  | add
  | subtract
  | multiply
  | divide
  | modulo
  | less
  | greater
  | lessEqual
  | greaterEqual
  | equal
  | notEqual
  | and
  | or
  deriving DecidableEq

namespace BinaryOperator

/-- An operator as it is written. -/
def text : BinaryOperator → String
  | add => "+"
  | subtract => "-"
  | multiply => "*"
  | divide => "/"
  | modulo => "%"
  | less => "<"
  | greater => ">"
  | lessEqual => "<="
  | greaterEqual => ">="
  | equal => "=="
  | notEqual => "!="
  | and => "&&"
  | or => "||"

/-- **How tightly an operator binds**: a greater level binds tighter. -/
def precedence : BinaryOperator → Nat
  | or => 0
  | and => 1
  | equal | notEqual => 2
  | less | greater | lessEqual | greaterEqual => 3
  | add | subtract => 4
  | multiply | divide | modulo => 5

/-- The operators on truth values. -/
def isLogical : BinaryOperator → Bool
  | and | or => true
  | _ => false

end BinaryOperator

/-- An operator in front of one operand. -/
inductive UnaryOperator where
  | negate
  | not
  deriving DecidableEq

/-- An operator as it is written. -/
def UnaryOperator.text : UnaryOperator → String
  | negate => "-"
  | not => "!"

end Scriptlet
