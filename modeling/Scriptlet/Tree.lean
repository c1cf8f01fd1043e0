/-
**Syntax trees of programs.** Every node carries the line of the token that determines it.

* `Expr`, `Stmt`, `Branch`: expressions, statements and the branches of a conditional.
* `Definition`: a function as it is written.
-/

import Scriptlet.Number.Basic
import Scriptlet.Operator
import Scriptlet.Range

namespace Scriptlet

/-- **An expression.** -/
inductive Expr where
  | number (line : Nat) (value : Number)
  | text (line : Nat) (value : String)
  | boolean (line : Nat) (value : Bool)
  | range (line : Nat) (value : Range)
  | identifier (line : Nat) (name : String)
  | unary (line : Nat) (operator : UnaryOperator) (operand : Expr)
  | binary (line : Nat) (operator : BinaryOperator) (left right : Expr)
  | call (line : Nat) (name : String) (arguments : List Expr)
  | assign (line : Nat) (name : String) (value : Expr)

/-- The line of an expression. -/
def Expr.line : Expr → Nat
  | number line _ | text line _ | boolean line _ | range line _ | identifier line _
  | unary line _ _ | binary line _ _ _ | call line _ _ | assign line _ _ => line

mutual

/-- **A statement.** -/
inductive Stmt where
  | print (line : Nat) (value : Expr)
  | conditional (line : Nat) (branches : List Branch)
  | whileLoop (line : Nat) (condition : Expr) (body : List Stmt)
  | forLoop (line : Nat) (name : String) (iterand : Expr) (body : List Stmt)
  | define (line : Nat) (name : String) (parameters : List String) (body : List Stmt)
  | expression (line : Nat) (value : Expr)

/-- A condition and the statements that it guards. -/
inductive Branch where
  | guarded (condition : Expr) (body : List Stmt)

end

/-- The program is a list of statements. -/
abbrev Program := List Stmt

/-- **A function as it is written.** -/
structure Definition where
  name : String
  parameters : List String
  body : List Stmt

end Scriptlet
