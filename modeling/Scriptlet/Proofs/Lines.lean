/-
**Changing the lines** of tokens, streams, errors and syntax trees.

A change is any function on line numbers. The constant change makes two trees comparable that
differ only in their lines; a shift moves a text behind another one.

* `Token.mapLines`, `Stream.mapLines`, `ParseError.mapLines`;
* `Expr.mapLines`, `Stmt.mapLines`, `Stmt.mapLinesAll`: also the lines inside of a tree;
* `withoutLines`: a program with line zero everywhere.
-/

import Scriptlet.Parser

namespace Scriptlet

/-! ### Tokens and errors -/

/-- The same token on another line. -/
def Token.mapLines (change : Nat → Nat) (token : Token) : Token :=
  { token with line := change token.line }

/-- The same fault on another line. -/
def ParseError.mapLines (change : Nat → Nat) (error : ParseError) : ParseError :=
  { error with line := change error.line }

/-- A token or a fault on another line. -/
def ScanResult.mapLines (change : Nat → Nat) : ScanResult → ScanResult
  | .ok token => .ok (token.mapLines change)
  | .error error => .error (error.mapLines change)

/-- A stream with all lines changed. -/
def Stream.mapLines (change : Nat → Nat) (stream : Stream) : Stream :=
  ⟨stream.current.mapLines change, stream.rest.map (ScanResult.mapLines change)⟩

/-! ### Trees -/

mutual

/-- An expression with all lines changed. -/
def Expr.mapLines (change : Nat → Nat) : Expr → Expr
  | .number line value => .number (change line) value
  | .text line value => .text (change line) value
  | .boolean line value => .boolean (change line) value
  | .range line value => .range (change line) value
  | .identifier line name => .identifier (change line) name
  | .unary line operator operand => .unary (change line) operator (operand.mapLines change)
  | .binary line operator left right =>
    .binary (change line) operator (left.mapLines change) (right.mapLines change)
  | .call line name arguments => .call (change line) name (Expr.mapLinesAll change arguments)
  | .assign line name value => .assign (change line) name (value.mapLines change)

/-- Expressions with all lines changed. -/
def Expr.mapLinesAll (change : Nat → Nat) : List Expr → List Expr
  | [] => []
  | first :: rest => first.mapLines change :: Expr.mapLinesAll change rest

end

mutual

/-- A statement with all lines changed. -/
def Stmt.mapLines (change : Nat → Nat) : Stmt → Stmt
  | .print line value => .print (change line) (value.mapLines change)
  | .conditional line branches => .conditional (change line) (Branch.mapLinesAll change branches)
  | .whileLoop line condition body =>
    .whileLoop (change line) (condition.mapLines change) (Stmt.mapLinesAll change body)
  | .forLoop line name iterand body =>
    .forLoop (change line) name (iterand.mapLines change) (Stmt.mapLinesAll change body)
  | .define line name parameters body =>
    .define (change line) name parameters (Stmt.mapLinesAll change body)
  | .expression line value => .expression (change line) (value.mapLines change)

/-- Statements with all lines changed. -/
def Stmt.mapLinesAll (change : Nat → Nat) : List Stmt → List Stmt
  | [] => []
  | first :: rest => first.mapLines change :: Stmt.mapLinesAll change rest

/-- Branches with all lines changed. -/
def Branch.mapLinesAll (change : Nat → Nat) : List Branch → List Branch
  | [] => []
  | .guarded condition body :: rest =>
    .guarded (condition.mapLines change) (Stmt.mapLinesAll change body) ::
      Branch.mapLinesAll change rest

end

/-- **A program with line zero everywhere.** -/
def withoutLines (program : Program) : Program := Stmt.mapLinesAll (fun _ => 0) program

end Scriptlet
