/-
**Values and errors do not depend on lines.**

Only functions carry lines, in their bodies. No operator looks into a function and none makes one,
so every operation on values commutes with a change of all lines.

* `Definition.mapLines`, `Value.mapLines`, `RuntimeError.mapLines`;
* `Value.unary_mapLines`, `Value.binary_mapLines`, `Value.rightAnswer_mapLines`: **operators commute
  with every change of lines**;
* `Value.mapLines_id`, `Expr.mapLines_id`, `Stmt.mapLines_id`: the change that leaves lines alone.
-/

import Scriptlet.Evaluation
import Scriptlet.Proofs.Lines

namespace Scriptlet

/-! ### Values and errors -/

/-- A function with all lines changed. -/
def Definition.mapLines (change : Nat → Nat) (definition : Definition) : Definition :=
  { definition with body := Stmt.mapLinesAll change definition.body }

/-- The same fault on another line. -/
def RuntimeError.mapLines (change : Nat → Nat) (error : RuntimeError) : RuntimeError :=
  { error with line := change error.line }

namespace Value

/-- **A value with all lines changed**: only functions have any. -/
def mapLines (change : Nat → Nat) : Value → Value
  | function identity definition => function identity (definition.mapLines change)
  | other => other

variable (change : Nat → Nat)

theorem mapLines_of_kind {value : Value} (plain : value.kind ≠ .function) :
    value.mapLines change = value := by
  cases value with
  | function identity definition => exact absurd rfl plain
  | _ => rfl

/-- A result that is never a function stays as it is. -/
theorem map_mapLines {result : Except RuntimeFault Value}
    (plain : ∀ {value}, result = .ok value → value.kind ≠ .function) :
    result.map (mapLines change) = result := by
  rcases result with fault | value
  · rfl
  · exact congrArg Except.ok (mapLines_of_kind change (plain rfl))

/-! ### Operations -/

@[simp] theorem printed_mapLines (value : Value) :
    (value.mapLines change).printed = value.printed := by
  cases value <;> rfl

@[simp] theorem truth_mapLines (value : Value) : (value.mapLines change).truth = value.truth := by
  cases value <;> rfl

@[simp] theorem iterable_mapLines (value : Value) :
    (value.mapLines change).iterable = value.iterable := by
  cases value <;> rfl

/-- Functions are the same by their identity, which has no line. -/
@[simp] theorem same_mapLines (left right : Value) :
    (left.mapLines change).same (right.mapLines change) = left.same right := by
  cases left <;> cases right <;> rfl

theorem unary_mapLines (operator : UnaryOperator) (operand : Value) :
    (operand.mapLines change).unary operator =
      (operand.unary operator).map (mapLines change) := by
  rw [map_mapLines change kind_of_unary]
  cases operator <;> cases operand <;> rfl

section Binary

variable (operator : BinaryOperator) (left right : Value)

theorem arithmetic_mapLines :
    arithmetic operator (left.mapLines change) (right.mapLines change) =
      arithmetic operator left right := by
  cases left <;> cases right <;> rfl

theorem comparison_mapLines :
    comparison operator (left.mapLines change) (right.mapLines change) =
      comparison operator left right := by
  unfold comparison
  rw [same_mapLines]
  cases left <;> cases right <;> rfl

theorem connective_mapLines :
    connective operator (left.mapLines change) (right.mapLines change) =
      connective operator left right := by
  cases left <;> cases right <;> rfl

/-- **An operator between two values commutes with every change of lines.** -/
theorem binary_mapLines :
    (left.mapLines change).binary operator (right.mapLines change) =
      (left.binary operator right).map (mapLines change) := by
  rw [map_mapLines change kind_of_binary]
  unfold binary
  rw [arithmetic_mapLines, comparison_mapLines, connective_mapLines]

theorem rightAnswer_mapLines :
    (left.mapLines change).rightAnswer operator (right.mapLines change) =
      (left.rightAnswer operator right).map (mapLines change) := by
  rw [map_mapLines change kind_of_rightAnswer]
  cases left <;> cases right <;> rfl

end Binary

end Value

/-! ### Trees -/

@[simp] theorem Expr.line_mapLines (change : Nat → Nat) (expression : Expr) :
    (expression.mapLines change).line = change expression.line := by
  cases expression <;> rfl

@[simp] theorem Expr.length_mapLinesAll (change : Nat → Nat) (expressions : List Expr) :
    (Expr.mapLinesAll change expressions).length = expressions.length := by
  induction expressions with
  | nil => rfl
  | cons first rest hypothesis => exact congrArg (· + 1) hypothesis

mutual

@[simp] theorem Expr.mapLines_id : ∀ expression : Expr, expression.mapLines id = expression
  | .number _ _ | .text _ _ | .boolean _ _ | .range _ _ | .identifier _ _ => rfl
  | .unary _ _ operand => by rw [Expr.mapLines, operand.mapLines_id, id]
  | .binary _ _ left right => by rw [Expr.mapLines, left.mapLines_id, right.mapLines_id, id]
  | .call _ _ arguments => by rw [Expr.mapLines, Expr.mapLinesAll_id arguments, id]
  | .assign _ _ value => by rw [Expr.mapLines, value.mapLines_id, id]

theorem Expr.mapLinesAll_id :
    ∀ expressions : List Expr, Expr.mapLinesAll id expressions = expressions
  | [] => rfl
  | first :: rest => by rw [Expr.mapLinesAll, first.mapLines_id, Expr.mapLinesAll_id rest]

end

mutual

@[simp] theorem Stmt.mapLines_id : ∀ statement : Stmt, statement.mapLines id = statement
  | .print _ value | .expression _ value => by rw [Stmt.mapLines, value.mapLines_id, id]
  | .conditional _ branches => by rw [Stmt.mapLines, Branch.mapLinesAll_id branches, id]
  | .whileLoop _ condition body => by
    rw [Stmt.mapLines, condition.mapLines_id, Stmt.mapLinesAll_id body, id]
  | .forLoop _ _ iterand body => by
    rw [Stmt.mapLines, iterand.mapLines_id, Stmt.mapLinesAll_id body, id]
  | .define _ _ _ body => by rw [Stmt.mapLines, Stmt.mapLinesAll_id body, id]

theorem Stmt.mapLinesAll_id :
    ∀ statements : List Stmt, Stmt.mapLinesAll id statements = statements
  | [] => rfl
  | first :: rest => by rw [Stmt.mapLinesAll, first.mapLines_id, Stmt.mapLinesAll_id rest]

theorem Branch.mapLinesAll_id :
    ∀ branches : List Branch, Branch.mapLinesAll id branches = branches
  | [] => rfl
  | .guarded condition body :: rest => by
    rw [Branch.mapLinesAll, condition.mapLines_id, Stmt.mapLinesAll_id body,
      Branch.mapLinesAll_id rest]

end

@[simp] theorem Value.mapLines_id (value : Value) : value.mapLines id = value := by
  cases value with
  | function identity definition =>
    show function identity { definition with body := Stmt.mapLinesAll id definition.body } = _
    rw [Stmt.mapLinesAll_id]
  | _ => rfl

theorem Value.map_mapLines_id (stored : Option Value) :
    stored.map (Value.mapLines id) = stored := by
  rcases stored with _ | value
  · rfl
  · exact congrArg some value.mapLines_id

end Scriptlet
