/-
**The parser never looks at lines.**

Changing the lines of all tokens changes the lines of the tree, or of the error, in the same way
and nothing else. The change is arbitrary, so the statement covers both forgetting all lines and
shifting them.

* `Parser.relined`: the outcome of a reader with its lines changed.
* `Parser.relined_bind`, `Parser.relined_bind_both`, `Parser.relined_bind_accept`: a reader in two
  steps commutes with a change when both steps do.
* `Parser.program_mapLines`: **reading a program commutes with every change of lines.**
-/

import Scriptlet.Proofs.Lines

namespace Scriptlet

namespace Parser

/-- **The outcome of a reader with its lines changed.** -/
def relined {α β : Type} (change : Nat → Nat) (translate : α → β) : Except Stop α → Except Stop β
  | .ok value => .ok (translate value)
  | .error (.refused error) => .error (.refused (error.mapLines change))
  | .error .exhausted => .error .exhausted

/-- A reader in two steps commutes with a change of lines when both steps do. -/
theorem relined_bind {α β γ δ : Type} {change : Nat → Nat} {translate : α → β} {finish : γ → δ}
    {first : Except Stop α} {begun : Except Stop β} {next : α → Except Stop γ}
    {changed : β → Except Stop δ} (same : begun = relined change translate first)
    (later : ∀ value, changed (translate value) = relined change finish (next value)) :
    (begun >>= changed) = relined change finish (first >>= next) := by
  rw [same]
  rcases first with (error | _) | value
  · rfl
  · rfl
  · exact later value

/-- A reader that succeeds with changed lines succeeds without the change. -/
theorem exists_of_relined_eq_ok {α β : Type} {change : Nat → Nat} {translate : α → β}
    {outcome : Except Stop α} {value : β} (read : relined change translate outcome = .ok value) :
    ∃ original, outcome = .ok original ∧ translate original = value := by
  rcases outcome with (error | _) | original
  · cases read
  · cases read
  · exact ⟨original, rfl, Except.ok.inj read⟩

variable (change : Nat → Nat)

/-- The tree of a reader and the stream behind it. -/
abbrev both {α : Type} (translate : α → α) : α × Stream → α × Stream :=
  Prod.map translate (Stream.mapLines change)

/-- The same for a first step that returns a tree and the stream behind it. -/
theorem relined_bind_both {α β γ : Type} {change : Nat → Nat} {translate : α → α} {finish : β → γ}
    {first begun : Except Stop (α × Stream)} {next : α × Stream → Except Stop β}
    {changed : α × Stream → Except Stop γ}
    (same : begun = relined change (both change translate) first)
    (later : ∀ value behind, changed (translate value, behind.mapLines change) =
      relined change finish (next (value, behind))) :
    (begun >>= changed) = relined change finish (first >>= next) :=
  relined_bind same fun ⟨value, behind⟩ => later value behind

/-! ### Steps of a stream -/

section Steps

variable (stream : Stream) (kind : TokenKind)

theorem advance_mapLines :
    orStop (stream.mapLines change).advance =
      relined change (both change (Token.mapLines change)) (orStop stream.advance) := by
  obtain ⟨current, rest⟩ := stream
  rcases rest with _ | ⟨error | token, rest⟩ <;> rfl

theorem accept_mapLines :
    orStop ((stream.mapLines change).accept kind) =
      relined change (Option.map (Stream.mapLines change)) (orStop (stream.accept kind)) := by
  have same : (stream.mapLines change).check kind = stream.check kind := rfl
  unfold Stream.accept
  rw [same]
  cases stream.check kind with
  | false => rfl
  | true =>
    obtain ⟨current, rest⟩ := stream
    rcases rest with _ | ⟨error | token, rest⟩ <;> rfl

/-- A reader that may go on behind a token commutes when it does in both cases. -/
theorem relined_bind_accept {α β : Type} {finish : α → β} {next : Option Stream → Except Stop α}
    {changed : Option Stream → Except Stop β}
    (without : changed none = relined change finish (next none))
    (behind : ∀ rest, changed (some (rest.mapLines change)) =
      relined change finish (next (some rest))) :
    (orStop ((stream.mapLines change).accept kind) >>= changed) =
      relined change finish (orStop (stream.accept kind) >>= next) := by
  refine relined_bind (accept_mapLines change stream kind) fun accepted => ?_
  cases accepted with
  | none => exact without
  | some rest => exact behind rest

theorem missing_mapLines :
    (stream.mapLines change).missing kind = (stream.missing kind).mapLines change := by
  have ended : (stream.mapLines change).atEnd = stream.atEnd := rfl
  unfold Stream.missing
  rw [ended]
  cases stream.atEnd <;> rfl

theorem expect_mapLines :
    orStop ((stream.mapLines change).expect kind) =
      relined change (both change (Token.mapLines change)) (orStop (stream.expect kind)) := by
  have same : (stream.mapLines change).check kind = stream.check kind := rfl
  unfold Stream.expect
  rw [same, missing_mapLines]
  cases stream.check kind with
  | true => exact advance_mapLines change stream
  | false => rfl

end Steps

/-! ### Names and literals -/

section Literals

variable (stream : Stream)

theorem orRefuse_mapLines {α : Type} (line : Nat) (fault : ParseFault) (found : Option α) :
    orRefuse (change line) fault found = relined change id (orRefuse line fault found) := by
  cases found <;> rfl

theorem numberLiteral_mapLines (token : Token) :
    numberLiteral (token.mapLines change) = relined change id (numberLiteral token) :=
  orRefuse_mapLines change token.line _ _

theorem textLiteral_mapLines (token : Token) :
    textLiteral (token.mapLines change) = relined change id (textLiteral token) :=
  orRefuse_mapLines change token.line _ _

theorem rangeLiteral_mapLines (kind : RangeKind) (token : Token) :
    rangeLiteral kind (token.mapLines change) = relined change id (rangeLiteral kind token) :=
  relined_bind (orRefuse_mapLines change token.line _ _) fun _ =>
    orRefuse_mapLines change token.line _ _

theorem identifier_mapLines :
    identifier (stream.mapLines change) =
      relined change (both change id) (identifier stream) := by
  exact relined_bind_both (expect_mapLines change stream _) fun _ _ => rfl

theorem rangeToken_mapLines :
    rangeToken (stream.mapLines change) =
      relined change (both change (Expr.mapLines change)) (rangeToken stream) := by
  have same : (stream.mapLines change).current.kind = stream.current.kind := rfl
  unfold rangeToken
  rw [same, missing_mapLines]
  split
  · next kind _ =>
    refine relined_bind_both (advance_mapLines change stream) fun token rest => ?_
    exact relined_bind (rangeLiteral_mapLines change kind token) fun _ => rfl
  · rfl

theorem namesUntilClosed_mapLines (fuel : Nat) (stream : Stream) :
    namesUntilClosed fuel (stream.mapLines change) =
      relined change (both change id) (namesUntilClosed fuel stream) := by
  induction fuel generalizing stream with
  | zero => rfl
  | succ fuel hypothesis =>
    rw [namesUntilClosed, namesUntilClosed]
    refine relined_bind_both (identifier_mapLines change stream) fun name rest => ?_
    refine relined_bind_accept change rest _ ?_ fun behind => ?_
    · exact relined_bind_both (expect_mapLines change rest _) fun _ _ => rfl
    · exact relined_bind_both (hypothesis behind) fun _ _ => rfl

theorem parameters_mapLines (fuel : Nat) :
    parameters fuel (stream.mapLines change) =
      relined change (both change id) (parameters fuel stream) := by
  refine relined_bind_accept change stream _ rfl fun behind => ?_
  exact relined_bind_accept change behind _ (namesUntilClosed_mapLines change fuel behind)
    fun _ => rfl

end Literals

/-! ### Expressions -/

theorem assignTo_mapLines (target value : Expr) :
    assignTo (target.mapLines change) (value.mapLines change) =
      relined change (Expr.mapLines change) (assignTo target value) := by
  cases target <;> rfl

/-- **The readers of expressions commute with a change of lines**, up to a bound of the
recursion. -/
structure ExpressionsRelined (fuel : Nat) : Prop where
  expression : ∀ stream, expression fuel (stream.mapLines change) =
    relined change (both change (Expr.mapLines change)) (expression fuel stream)
  operation : ∀ level stream, operation fuel level (stream.mapLines change) =
    relined change (both change (Expr.mapLines change)) (operation fuel level stream)
  operations : ∀ level left stream,
    operations fuel level (left.mapLines change) (stream.mapLines change) =
      relined change (both change (Expr.mapLines change)) (operations fuel level left stream)
  operand : ∀ stream, operand fuel (stream.mapLines change) =
    relined change (both change (Expr.mapLines change)) (operand fuel stream)
  primary : ∀ stream, primary fuel (stream.mapLines change) =
    relined change (both change (Expr.mapLines change)) (primary fuel stream)
  arguments : ∀ stream, arguments fuel (stream.mapLines change) =
    relined change (both change (Expr.mapLinesAll change)) (arguments fuel stream)
  argumentsUntilClosed : ∀ stream, argumentsUntilClosed fuel (stream.mapLines change) =
    relined change (both change (Expr.mapLinesAll change)) (argumentsUntilClosed fuel stream)

variable {change} {fuel : Nat}

section ExpressionSteps

variable (relines : ExpressionsRelined change fuel) (stream : Stream)
include relines

theorem expression_relined_step :
    expression (fuel + 1) (stream.mapLines change) =
      relined change (both change (Expr.mapLines change)) (expression (fuel + 1) stream) := by
  rw [expression, expression]
  refine relined_bind_both (relines.operation 0 stream) fun target middle => ?_
  refine relined_bind_accept change middle _ rfl fun behind => ?_
  refine relined_bind_both (relines.expression behind) fun value rest => ?_
  exact relined_bind (assignTo_mapLines change target value) fun _ => rfl

theorem operation_relined_step (level : Nat) :
    operation (fuel + 1) level (stream.mapLines change) =
      relined change (both change (Expr.mapLines change)) (operation (fuel + 1) level stream) := by
  rw [operation, operation]
  exact relined_bind_both (relines.operand stream) fun left rest =>
    relines.operations level left rest

theorem operations_relined_step (level : Nat) (left : Expr) :
    operations (fuel + 1) level (left.mapLines change) (stream.mapLines change) =
      relined change (both change (Expr.mapLines change))
        (operations (fuel + 1) level left stream) := by
  have same : operatorFrom? level (stream.mapLines change) = operatorFrom? level stream := rfl
  rw [operations, operations, same]
  cases operatorFrom? level stream with
  | none => rfl
  | some operator =>
    refine relined_bind_both (advance_mapLines change stream) fun token middle => ?_
    exact relined_bind_both (relines.operation _ middle) fun right rest =>
      relines.operations level (.binary token.line operator left right) rest

theorem operand_relined_step :
    operand (fuel + 1) (stream.mapLines change) =
      relined change (both change (Expr.mapLines change)) (operand (fuel + 1) stream) := by
  have same : (stream.mapLines change).current.kind = stream.current.kind := rfl
  rw [operand, operand, same]
  cases stream.current.kind.unaryOperator? with
  | none => exact relines.primary stream
  | some operator =>
    refine relined_bind_both (advance_mapLines change stream) fun token middle => ?_
    exact relined_bind_both (relines.operand middle) fun _ _ => rfl

theorem primary_relined_step :
    primary (fuel + 1) (stream.mapLines change) =
      relined change (both change (Expr.mapLines change)) (primary (fuel + 1) stream) := by
  rw [primary, primary]
  refine relined_bind_both (advance_mapLines change stream) fun token middle => ?_
  have same : (token.mapLines change).kind = token.kind := rfl
  dsimp only
  rw [same]
  split
  · exact relined_bind (numberLiteral_mapLines change token) fun _ => rfl
  · exact relined_bind (textLiteral_mapLines change token) fun _ => rfl
  · next kind _ => exact relined_bind (rangeLiteral_mapLines change kind token) fun _ => rfl
  · rfl
  · rfl
  · refine relined_bind_accept change middle _ rfl fun behind => ?_
    exact relined_bind_both (relines.arguments behind) fun _ _ => rfl
  · refine relined_bind_both (relines.expression middle) fun value rest => ?_
    exact relined_bind_both (expect_mapLines change rest _) fun _ _ => rfl
  · rfl
  · rfl

theorem arguments_relined_step :
    arguments (fuel + 1) (stream.mapLines change) =
      relined change (both change (Expr.mapLinesAll change)) (arguments (fuel + 1) stream) := by
  rw [arguments, arguments]
  exact relined_bind_accept change stream _ (relines.argumentsUntilClosed stream) fun _ => rfl

theorem argumentsUntilClosed_relined_step :
    argumentsUntilClosed (fuel + 1) (stream.mapLines change) =
      relined change (both change (Expr.mapLinesAll change))
        (argumentsUntilClosed (fuel + 1) stream) := by
  rw [argumentsUntilClosed, argumentsUntilClosed]
  refine relined_bind_both (relines.expression stream) fun value middle => ?_
  refine relined_bind_accept change middle _ ?_ fun behind => ?_
  · exact relined_bind_both (expect_mapLines change middle _) fun _ _ => rfl
  · exact relined_bind_both (relines.argumentsUntilClosed behind) fun _ _ => rfl

end ExpressionSteps

theorem expressionsRelined (change : Nat → Nat) : ∀ fuel, ExpressionsRelined change fuel
  | 0 =>
    { expression := fun _ => rfl
      operation := fun _ _ => rfl
      operations := fun _ _ _ => rfl
      operand := fun _ => rfl
      primary := fun _ => rfl
      arguments := fun _ => rfl
      argumentsUntilClosed := fun _ => rfl }
  | fuel + 1 =>
    have relines := expressionsRelined change fuel
    { expression := expression_relined_step relines
      operation := fun level stream => operation_relined_step relines stream level
      operations := fun level left stream => operations_relined_step relines stream level left
      operand := operand_relined_step relines
      primary := primary_relined_step relines
      arguments := arguments_relined_step relines
      argumentsUntilClosed := argumentsUntilClosed_relined_step relines }

/-! ### Statements -/

variable (change) in
/-- **The readers of statements commute with a change of lines**, up to a bound of the
recursion. -/
structure StatementsRelined (fuel : Nat) : Prop where
  statement : ∀ stream, statement fuel (stream.mapLines change) =
    relined change (both change (Stmt.mapLines change)) (statement fuel stream)
  block : ∀ ends stream, block fuel ends (stream.mapLines change) =
    relined change (both change (Stmt.mapLinesAll change)) (block fuel ends stream)
  closedBlock : ∀ stream, closedBlock fuel (stream.mapLines change) =
    relined change (both change (Stmt.mapLinesAll change)) (closedBlock fuel stream)
  branches : ∀ stream, branches fuel (stream.mapLines change) =
    relined change (both change (Branch.mapLinesAll change)) (branches fuel stream)
  otherBranches : ∀ stream, otherBranches fuel (stream.mapLines change) =
    relined change (both change (Branch.mapLinesAll change)) (otherBranches fuel stream)

section StatementSteps

variable (relines : StatementsRelined change fuel) (stream : Stream)
include relines

theorem statement_relined_step :
    statement (fuel + 1) (stream.mapLines change) =
      relined change (both change (Stmt.mapLines change)) (statement (fuel + 1) stream) := by
  have expressions := expressionsRelined change fuel
  have same : (stream.mapLines change).current.kind = stream.current.kind := rfl
  have line : (stream.mapLines change).line = change stream.line := rfl
  rw [statement, statement]
  dsimp only
  rw [same, line]
  split
  · refine relined_bind_both (advance_mapLines change stream) fun _ middle => ?_
    exact relined_bind_both (expressions.expression middle) fun _ _ => rfl
  · refine relined_bind_both (advance_mapLines change stream) fun _ middle => ?_
    exact relined_bind_both (relines.branches middle) fun _ _ => rfl
  · refine relined_bind_both (advance_mapLines change stream) fun _ middle => ?_
    refine relined_bind_both (expressions.expression middle) fun condition rest => ?_
    exact relined_bind_both (relines.closedBlock rest) fun _ _ => rfl
  · refine relined_bind_both (advance_mapLines change stream) fun _ middle => ?_
    refine relined_bind_both (identifier_mapLines change middle) fun name behind => ?_
    refine relined_bind_both (expect_mapLines change behind _) fun _ rest => ?_
    refine relined_bind_both (rangeToken_mapLines change rest) fun iterand body => ?_
    exact relined_bind_both (relines.closedBlock body) fun _ _ => rfl
  · refine relined_bind_both (advance_mapLines change stream) fun _ middle => ?_
    refine relined_bind_both (identifier_mapLines change middle) fun name behind => ?_
    refine relined_bind_both (parameters_mapLines change behind fuel) fun names rest => ?_
    exact relined_bind_both (relines.closedBlock rest) fun _ _ => rfl
  · exact relined_bind_both (expressions.expression stream) fun _ _ => rfl

theorem block_relined_step (ends : List Keyword) :
    block (fuel + 1) ends (stream.mapLines change) =
      relined change (both change (Stmt.mapLinesAll change)) (block (fuel + 1) ends stream) := by
  have closes : endsBlock ends (stream.mapLines change) = endsBlock ends stream := rfl
  have ended : (stream.mapLines change).atEnd = stream.atEnd := rfl
  rw [block, block, closes, ended]
  split
  · rfl
  · split
    · rfl
    · refine relined_bind_both (relines.statement stream) fun first middle => ?_
      exact relined_bind_both (relines.block ends middle) fun _ _ => rfl

theorem closedBlock_relined_step :
    closedBlock (fuel + 1) (stream.mapLines change) =
      relined change (both change (Stmt.mapLinesAll change)) (closedBlock (fuel + 1) stream) := by
  rw [closedBlock, closedBlock]
  refine relined_bind_both (relines.block _ stream) fun body middle => ?_
  exact relined_bind_both (expect_mapLines change middle _) fun _ _ => rfl

theorem branches_relined_step :
    branches (fuel + 1) (stream.mapLines change) =
      relined change (both change (Branch.mapLinesAll change)) (branches (fuel + 1) stream) := by
  rw [branches, branches]
  refine relined_bind_both ((expressionsRelined change fuel).expression stream)
    fun condition middle => ?_
  refine relined_bind_both (relines.block _ middle) fun body rest => ?_
  exact relined_bind_both (relines.otherBranches rest) fun _ _ => rfl

theorem otherBranches_relined_step :
    otherBranches (fuel + 1) (stream.mapLines change) =
      relined change (both change (Branch.mapLinesAll change))
        (otherBranches (fuel + 1) stream) := by
  rw [otherBranches, otherBranches]
  refine relined_bind_accept change stream _ ?_ relines.branches
  refine relined_bind_accept change stream _ ?_ fun behind => ?_
  · exact relined_bind_both (expect_mapLines change stream _) fun _ _ => rfl
  · exact relined_bind_both (relines.closedBlock behind) fun _ _ => rfl

end StatementSteps

theorem statementsRelined (change : Nat → Nat) : ∀ fuel, StatementsRelined change fuel
  | 0 =>
    { statement := fun _ => rfl
      block := fun _ _ => rfl
      closedBlock := fun _ => rfl
      branches := fun _ => rfl
      otherBranches := fun _ => rfl }
  | fuel + 1 =>
    have relines := statementsRelined change fuel
    { statement := statement_relined_step relines
      block := fun ends stream => block_relined_step relines stream ends
      closedBlock := closedBlock_relined_step relines
      branches := branches_relined_step relines
      otherBranches := otherBranches_relined_step relines }

/-- **Reading a program commutes with every change of lines.** -/
theorem program_mapLines (change : Nat → Nat) (fuel : Nat) (stream : Stream) :
    program fuel (stream.mapLines change) =
      relined change (Stmt.mapLinesAll change) (program fuel stream) := by
  induction fuel generalizing stream with
  | zero => rfl
  | succ fuel hypothesis =>
    have ended : (stream.mapLines change).atEnd = stream.atEnd := rfl
    rw [program, program, ended]
    split
    · rfl
    · refine relined_bind_both ((statementsRelined change fuel).statement stream)
        fun first rest => ?_
      exact relined_bind (hypothesis rest) fun _ => rfl

end Parser

end Scriptlet
