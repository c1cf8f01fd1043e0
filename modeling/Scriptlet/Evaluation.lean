/-
**Running statements and expressions.**

Every function is given fuel, which bounds the depth of its recursion; a loop spends one unit for
each pass.

* `evaluate`, `execute`: an expression and a statement;
* `runBlock`: statements in order, with the value of the last one;
* `call`: the body of a function in a scope of its own;
* `interpret`: a whole program, up to its first error.
-/

import Scriptlet.Machine

namespace Scriptlet

/-- Whether the left side alone answers a truth operator. -/
def BinaryOperator.decides (operator : BinaryOperator) (left : Bool) : Bool :=
  match operator with
  | and => !left
  | _ => left

/-- The answer of a truth operator that its right side has to give. -/
def Value.rightAnswer (operator : BinaryOperator) (left right : Value) :
    Except RuntimeFault Value :=
  match right with
  | boolean answer => .ok (boolean answer)
  | _ => .error (unsupported operator left right)

theorem Value.kind_of_rightAnswer {operator : BinaryOperator} {left right result : Value}
    (computed : left.rightAnswer operator right = .ok result) : result.kind ≠ .function := by
  unfold Value.rightAnswer at computed
  split at computed <;> cases computed
  nofun

/-- The range that a loop runs over. -/
def Value.iterable : Value → Except RuntimeFault Range
  | range value => .ok value
  | other => .error (.notIterable other.kind)

/-- The number of the next pass of a loop. -/
def passNumber (index : Int) : Except RuntimeFault Number :=
  (Number.ofInt64 (.ofInt index)).mapError .conversion

mutual

/-- **The value of an expression.** -/
def evaluate : Nat → Expr → Machine → Outcome Value
  | 0, _, _ => .exhausted
  | fuel + 1, expression, machine =>
    match expression with
    | .number _ value => .done (.number value) machine
    | .text _ value => .done (.text value) machine
    | .boolean _ value => .done (.boolean value) machine
    | .range _ value => .done (.range value) machine
    | .identifier line name => .ofResult line (machine.lookup name) machine
    | .unary line operator operand =>
      (evaluate fuel operand machine).bind fun value machine =>
        .ofResult line (value.unary operator) machine
    | .binary line operator left right =>
      if operator.isLogical then evaluateLogical fuel line operator left right machine
      else
        (evaluate fuel left machine).bind fun leftValue machine =>
          (evaluate fuel right machine).bind fun rightValue machine =>
            .ofResult line (leftValue.binary operator rightValue) machine
    | .call line name arguments =>
      (Outcome.ofResult line (machine.callee name arguments.length) machine).bind
        fun definition machine =>
          (evaluateAll fuel arguments machine).bind fun values machine =>
            call fuel line definition values machine
    | .assign _ name expression =>
      (evaluate fuel expression machine).bind fun value machine =>
        .done value (machine.assign name value)

/-- A truth operator: the right side runs only if the left one does not answer. -/
def evaluateLogical : Nat → Nat → BinaryOperator → Expr → Expr → Machine → Outcome Value
  | 0, _, _, _, _, _ => .exhausted
  | fuel + 1, line, operator, left, right, machine =>
    (evaluate fuel left machine).bind fun leftValue machine =>
      (Outcome.ofResult line leftValue.truth machine).bind fun answer machine =>
        if operator.decides answer then .done (.boolean answer) machine
        else
          (evaluate fuel right machine).bind fun rightValue machine =>
            .ofResult line (leftValue.rightAnswer operator rightValue) machine

/-- The values of expressions, from left to right. -/
def evaluateAll : Nat → List Expr → Machine → Outcome (List Value)
  | 0, _, _ => .exhausted
  | _ + 1, [], machine => .done [] machine
  | fuel + 1, first :: rest, machine =>
    (evaluate fuel first machine).bind fun value machine =>
      (evaluateAll fuel rest machine).bind fun values machine =>
        .done (value :: values) machine

/-- **A call**: the body runs in a frame inside the root, and the caller's scope comes back. -/
def call : Nat → Nat → Definition → List Value → Machine → Outcome Value
  | 0, _, _, _, _ => .exhausted
  | fuel + 1, line, definition, arguments, machine =>
    if maximumDepth ≤ machine.depth then .failed ⟨line, .tooDeep⟩ machine
    else
      (runBlock fuel definition.body .nil (machine.enter definition arguments)).leave machine

/-- **Run a statement**; only an expression has a value. -/
def execute : Nat → Stmt → Machine → Outcome Value
  | 0, _, _ => .exhausted
  | fuel + 1, statement, machine =>
    match statement with
    | .print line expression =>
      (evaluate fuel expression machine).bind fun value machine =>
        (machine.print line value).bind fun _ machine => .done .nil machine
    | .conditional _ branches => runBranches fuel branches machine
    | .whileLoop _ condition body => runWhile fuel condition body machine
    | .forLoop line name iterand body =>
      (evaluate fuel iterand machine).bind fun value machine =>
        (Outcome.ofResult line value.iterable machine).bind fun range machine =>
          runFor fuel line name range.first.toInt range.stop body machine
    | .define _ name parameters body =>
      .done .nil (machine.define ⟨name, parameters, body⟩)
    | .expression _ expression => evaluate fuel expression machine

/-- Statements in order; the value of the last one, or the given value if there is none. -/
def runBlock : Nat → List Stmt → Value → Machine → Outcome Value
  | 0, _, _, _ => .exhausted
  | _ + 1, [], last, machine => .done last machine
  | fuel + 1, first :: rest, _, machine =>
    (execute fuel first machine).bind fun value machine => runBlock fuel rest value machine

/-- The first branch whose condition holds. -/
def runBranches : Nat → List Branch → Machine → Outcome Value
  | 0, _, _ => .exhausted
  | _ + 1, [], machine => .done .nil machine
  | fuel + 1, .guarded condition body :: rest, machine =>
    (evaluate fuel condition machine).bind fun value machine =>
      (Outcome.ofResult condition.line value.truth machine).bind fun holds machine =>
        if holds then
          (runBlock fuel body .nil machine).bind fun _ machine => .done .nil machine
        else runBranches fuel rest machine

/-- The body again and again, as long as the condition holds. -/
def runWhile : Nat → Expr → List Stmt → Machine → Outcome Value
  | 0, _, _, _ => .exhausted
  | fuel + 1, condition, body, machine =>
    (evaluate fuel condition machine).bind fun value machine =>
      (Outcome.ofResult condition.line value.truth machine).bind fun holds machine =>
        if holds then
          (runBlock fuel body .nil machine).bind fun _ machine =>
            runWhile fuel condition body machine
        else .done .nil machine

/-- The body for every integer from an index up to a stop, which is left out. -/
def runFor : Nat → Nat → String → Int → Int → List Stmt → Machine → Outcome Value
  | 0, _, _, _, _, _, _ => .exhausted
  | fuel + 1, line, name, index, stop, body, machine =>
    if index < stop then
      (Outcome.ofResult line (passNumber index) machine).bind fun number machine =>
        (runBlock fuel body .nil (machine.assign name (.number number))).bind fun _ machine =>
          runFor fuel line name (index + 1) stop body machine
    else .done .nil machine

end

/-- **Run a program** up to its first error. -/
def interpret (fuel : Nat) (program : Program) (machine : Machine) : Outcome Unit :=
  (runBlock fuel program .nil machine).bind fun _ machine => .done () machine

end Scriptlet
