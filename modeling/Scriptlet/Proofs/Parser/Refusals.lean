/-
**Where a parser refuses a text.**

An error of a parser is a fault of the scan that it came across, or it is about a token: one that is
missing, one that does not belong there, a literal, or the target of an assignment, whose line is
that of the token that determines it. So its line is never made up.

* `Blames results error`: the error is one of the results, or on the line of a token among them.
* `Within results holds outcome`: a reader stays within some results: it leaves a part of them, or
  its error blames one of them. All readers do (`expressionsWithin`, `statementsWithin`).
* `parse_eq_error`: a text is refused by the reader of its statements or by a fault in front of it.
* `blames_of_parse`: **the error of a text blames a result of its scan.**
-/

import Scriptlet.Proofs.Parser.Progress

namespace Scriptlet

/-- A token among the results is on a line. -/
def OnLine (results : List ScanResult) (line : Nat) : Prop :=
  ∃ token, .ok token ∈ results ∧ token.line = line

/-- **An error is one of the results**, or on the line of a token among them. -/
inductive Blames (results : List ScanResult) (error : ParseError) : Prop
  | fault (member : .error error ∈ results)
  | token (placed : OnLine results error.line)

namespace Parser

variable {results : List ScanResult} {stream : Stream}

/-! ### Readers within some results -/

/-- **A reader stays within some results**: it leaves a part of them, and what it returns has a
property, or its error blames one of them. -/
inductive Within {α : Type} (results : List ScanResult) (holds : α → Prop) :
    Except Stop (α × Stream) → Prop
  | ok {value : α} {after : Stream} (known : holds value) (inside : after.results ⊆ results) :
      Within results holds (.ok (value, after))
  | refused {error : ParseError} (blames : Blames results error) :
      Within results holds (.error (.refused error))
  | exhausted : Within results holds (.error .exhausted)

/-- The property of anything. -/
abbrev Anything {α : Type} : α → Prop := fun _ => True

/-- The property of an expression on the line of a token. -/
abbrev Placed (results : List ScanResult) : Expr → Prop := fun tree => OnLine results tree.line

section Steps

variable {α β : Type} {holds : α → Prop} {keeps : β → Prop}

/-- Readers in two steps stay within what both steps stay within. -/
theorem Within.bind {first : Except Stop (α × Stream)}
    {rest : α × Stream → Except Stop (β × Stream)} (within : Within results holds first)
    (later : ∀ value {after : Stream}, holds value → after.results ⊆ results →
      Within results keeps (rest (value, after))) :
    Within results keeps (first >>= rest) := by
  cases within with
  | ok known inside => exact later _ known inside
  | refused blames => exact .refused blames
  | exhausted => exact .exhausted

theorem Within.refuse {line : Nat} (placed : OnLine results line) (fault : ParseFault) :
    Within results holds (Parser.refuse line fault) :=
  .refused (.token placed)

variable (inside : stream.results ⊆ results)
include inside

/-- The token in front is one of the results. -/
theorem current_mem : .ok stream.current ∈ results :=
  inside List.mem_cons_self

theorem onLine_current : OnLine results stream.line :=
  ⟨stream.current, current_mem inside, rfl⟩

theorem advance_within :
    Within results (fun token => .ok token ∈ results) (orStop stream.advance) := by
  rcases stream with ⟨current, rest⟩
  have front : .ok current ∈ results := current_mem inside
  rcases rest with _ | ⟨fault | next, rest⟩
  · exact .ok front inside
  · exact .refused (.fault (inside (List.mem_cons_of_mem _ List.mem_cons_self)))
  · exact .ok front fun result member => inside (List.mem_cons_of_mem _ member)

theorem blames_missing (kind : TokenKind) : Blames results (stream.missing kind) := by
  unfold Stream.missing
  by_cases ended : stream.atEnd = true
  · rw [if_pos ended]
    exact .token (onLine_current inside)
  · rw [if_neg ended]
    exact .token (onLine_current inside)

theorem expect_within (kind : TokenKind) :
    Within results (fun token => .ok token ∈ results) (orStop (stream.expect kind)) := by
  unfold Stream.expect
  by_cases fits : stream.check kind = true
  · rw [if_pos fits]
    exact advance_within inside
  · rw [if_neg fits]
    exact .refused (blames_missing inside kind)

/-- Readers that may go on behind a token stay within the results in both cases. -/
theorem Within.bind_accept {kind : TokenKind} {rest : Option Stream → Except Stop (β × Stream)}
    (without : Within results keeps (rest none))
    (behind : ∀ {after : Stream}, after.results ⊆ results →
      Within results keeps (rest (some after))) :
    Within results keeps (orStop (stream.accept kind) >>= rest) := by
  unfold Stream.accept
  by_cases fits : stream.check kind = true
  · rw [if_pos fits]
    have within := advance_within inside
    generalize stream.advance = step at within ⊢
    rcases step with error | ⟨token, next⟩
    · cases within with
      | refused blames => exact .refused blames
    · cases within with
      | ok _ inside => exact behind inside
  · rw [if_neg fits]
    exact without

omit inside

/-- A literal is refused on the line of its token. -/
theorem Within.bind_literal {token : Token} {literal : Except Stop α}
    {rest : α → Except Stop (β × Stream)} (member : .ok token ∈ results)
    (decides : Decides token literal) (later : ∀ value, Within results keeps (rest value)) :
    Within results keeps (literal >>= rest) := by
  rcases decides with ⟨value, rfl⟩ | ⟨fault, rfl⟩
  · exact later value
  · exact .refuse ⟨token, member, rfl⟩ fault

/-- An assignment is on the line of its target, and so is the error if it is refused. -/
theorem Within.bind_assignTo {target value : Expr} {rest : Expr → Except Stop (β × Stream)}
    (placed : Placed results target)
    (later : ∀ assignment, Placed results assignment → Within results keeps (rest assignment)) :
    Within results keeps (assignTo target value >>= rest) := by
  cases target
  case identifier line name => exact later (.assign line name value) placed
  all_goals exact .refuse placed _

end Steps

/-! ### Names and ranges -/

theorem identifier_within (inside : stream.results ⊆ results) :
    Within results Anything (identifier stream) :=
  (expect_within inside _).bind fun _ _ _ inside => .ok trivial inside

theorem rangeToken_within (inside : stream.results ⊆ results) :
    Within results Anything (rangeToken stream) := by
  unfold rangeToken
  split
  · refine (advance_within inside).bind fun token _ member inside => ?_
    exact .bind_literal member (decides_rangeLiteral _ token) fun range => .ok trivial inside
  · exact .refused (blames_missing inside _)

theorem namesUntilClosed_within (fuel : Nat) (inside : stream.results ⊆ results) :
    Within results Anything (namesUntilClosed fuel stream) := by
  induction fuel generalizing stream with
  | zero => exact .exhausted
  | succ fuel hypothesis =>
    rw [namesUntilClosed]
    refine (identifier_within inside).bind fun name _ _ inside => ?_
    refine .bind_accept inside ?_ fun inside => ?_
    · exact (expect_within inside _).bind fun _ _ _ inside => .ok trivial inside
    · exact (hypothesis inside).bind fun _ _ _ inside => .ok trivial inside

theorem parameters_within (fuel : Nat) (inside : stream.results ⊆ results) :
    Within results Anything (parameters fuel stream) := by
  refine .bind_accept inside (.ok trivial inside) fun inside => ?_
  exact .bind_accept inside (namesUntilClosed_within fuel inside) fun inside => .ok trivial inside

/-! ### Expressions -/

/-- **The readers of expressions stay within the results**, and what they return is on the line of a
token, up to a bound of the recursion. -/
structure ExpressionsWithin (results : List ScanResult) (fuel : Nat) : Prop where
  expression : ∀ {stream : Stream}, stream.results ⊆ results →
    Within results (Placed results) (expression fuel stream)
  operation : ∀ {stream : Stream} level, stream.results ⊆ results →
    Within results (Placed results) (operation fuel level stream)
  operations : ∀ {stream : Stream} level {left}, Placed results left → stream.results ⊆ results →
    Within results (Placed results) (operations fuel level left stream)
  operand : ∀ {stream : Stream}, stream.results ⊆ results →
    Within results (Placed results) (operand fuel stream)
  primary : ∀ {stream : Stream}, stream.results ⊆ results →
    Within results (Placed results) (primary fuel stream)
  arguments : ∀ {stream : Stream}, stream.results ⊆ results →
    Within results Anything (arguments fuel stream)
  argumentsUntilClosed : ∀ {stream : Stream}, stream.results ⊆ results →
    Within results Anything (argumentsUntilClosed fuel stream)

section ExpressionSteps

variable {fuel : Nat} (within : ExpressionsWithin results fuel) (inside : stream.results ⊆ results)
include within inside

theorem expression_within_step :
    Within results (Placed results) (expression (fuel + 1) stream) := by
  rw [expression]
  refine (within.operation 0 inside).bind fun target _ placed inside => ?_
  refine .bind_accept inside (.ok placed inside) fun inside => ?_
  refine (within.expression inside).bind fun value _ _ inside => ?_
  exact .bind_assignTo placed fun assignment placed => .ok placed inside

theorem operation_within_step (level : Nat) :
    Within results (Placed results) (operation (fuel + 1) level stream) := by
  rw [operation]
  exact (within.operand inside).bind fun left _ placed inside =>
    within.operations level placed inside

theorem operations_within_step (level : Nat) {left : Expr} (placed : Placed results left) :
    Within results (Placed results) (operations (fuel + 1) level left stream) := by
  rw [operations]
  cases operatorFrom? level stream with
  | none => exact .ok placed inside
  | some operator =>
    refine (advance_within inside).bind fun token _ member inside => ?_
    refine (within.operation _ inside).bind fun right _ _ inside => ?_
    exact within.operations level ⟨token, member, rfl⟩ inside

theorem operand_within_step : Within results (Placed results) (operand (fuel + 1) stream) := by
  rw [operand]
  cases stream.current.kind.unaryOperator? with
  | none => exact within.primary inside
  | some operator =>
    refine (advance_within inside).bind fun token _ member inside => ?_
    exact (within.operand inside).bind fun value _ _ inside => .ok ⟨token, member, rfl⟩ inside

theorem primary_within_step : Within results (Placed results) (primary (fuel + 1) stream) := by
  rw [primary]
  refine (advance_within inside).bind fun token _ member inside => ?_
  have placed : OnLine results token.line := ⟨token, member, rfl⟩
  dsimp only
  split
  · exact .bind_literal member (decides_orRefuse token _ _) fun value => .ok placed inside
  · exact .bind_literal member (decides_orRefuse token _ _) fun contents => .ok placed inside
  · exact .bind_literal member (decides_rangeLiteral _ token) fun range => .ok placed inside
  · exact .ok placed inside
  · exact .ok placed inside
  · refine .bind_accept inside (.ok placed inside) fun inside => ?_
    exact (within.arguments inside).bind fun values _ _ inside => .ok placed inside
  · refine (within.expression inside).bind fun value _ placed inside => ?_
    exact (expect_within inside _).bind fun _ _ _ inside => .ok placed inside
  · exact .refuse placed _
  · exact .refuse placed _

theorem arguments_within_step : Within results Anything (arguments (fuel + 1) stream) := by
  rw [arguments]
  exact .bind_accept inside (within.argumentsUntilClosed inside) fun inside => .ok trivial inside

theorem argumentsUntilClosed_within_step :
    Within results Anything (argumentsUntilClosed (fuel + 1) stream) := by
  rw [argumentsUntilClosed]
  refine (within.expression inside).bind fun value _ _ inside => ?_
  refine .bind_accept inside ?_ fun inside => ?_
  · exact (expect_within inside _).bind fun _ _ _ inside => .ok trivial inside
  · exact (within.argumentsUntilClosed inside).bind fun _ _ _ inside => .ok trivial inside

end ExpressionSteps

/-- **The readers of expressions stay within the results.** -/
theorem expressionsWithin (results : List ScanResult) (fuel : Nat) :
    ExpressionsWithin results fuel := by
  induction fuel with
  | zero =>
    exact
      { expression := fun _ => .exhausted
        operation := fun _ _ => .exhausted
        operations := fun _ _ _ _ => .exhausted
        operand := fun _ => .exhausted
        primary := fun _ => .exhausted
        arguments := fun _ => .exhausted
        argumentsUntilClosed := fun _ => .exhausted }
  | succ fuel within =>
    exact
      { expression := expression_within_step within
        operation := fun level inside => operation_within_step within inside level
        operations := fun level _ placed inside => operations_within_step within inside level placed
        operand := operand_within_step within
        primary := primary_within_step within
        arguments := arguments_within_step within
        argumentsUntilClosed := argumentsUntilClosed_within_step within }

/-! ### Statements -/

/-- **The readers of statements stay within the results**, up to a bound of the recursion. -/
structure StatementsWithin (results : List ScanResult) (fuel : Nat) : Prop where
  statement : ∀ {stream : Stream}, stream.results ⊆ results →
    Within results Anything (statement fuel stream)
  block : ∀ {stream : Stream} closers, stream.results ⊆ results →
    Within results Anything (block fuel closers stream)
  closedBlock : ∀ {stream : Stream}, stream.results ⊆ results →
    Within results Anything (closedBlock fuel stream)
  branches : ∀ {stream : Stream}, stream.results ⊆ results →
    Within results Anything (branches fuel stream)
  otherBranches : ∀ {stream : Stream}, stream.results ⊆ results →
    Within results Anything (otherBranches fuel stream)

section StatementSteps

variable {fuel : Nat} (within : StatementsWithin results fuel) (inside : stream.results ⊆ results)
include within inside

theorem statement_within_step : Within results Anything (statement (fuel + 1) stream) := by
  have expressions := expressionsWithin results fuel
  rw [statement]
  dsimp only
  split
  · refine (advance_within inside).bind fun _ _ _ inside => ?_
    exact (expressions.expression inside).bind fun _ _ _ inside => .ok trivial inside
  · refine (advance_within inside).bind fun _ _ _ inside => ?_
    exact (within.branches inside).bind fun _ _ _ inside => .ok trivial inside
  · refine (advance_within inside).bind fun _ _ _ inside => ?_
    refine (expressions.expression inside).bind fun condition _ _ inside => ?_
    exact (within.closedBlock inside).bind fun _ _ _ inside => .ok trivial inside
  · refine (advance_within inside).bind fun _ _ _ inside => ?_
    refine (identifier_within inside).bind fun name _ _ inside => ?_
    refine (expect_within inside _).bind fun _ _ _ inside => ?_
    refine (rangeToken_within inside).bind fun iterand _ _ inside => ?_
    exact (within.closedBlock inside).bind fun _ _ _ inside => .ok trivial inside
  · refine (advance_within inside).bind fun _ _ _ inside => ?_
    refine (identifier_within inside).bind fun name _ _ inside => ?_
    refine (parameters_within fuel inside).bind fun names _ _ inside => ?_
    exact (within.closedBlock inside).bind fun _ _ _ inside => .ok trivial inside
  · exact (expressions.expression inside).bind fun _ _ _ inside => .ok trivial inside

theorem block_within_step (closers : List Keyword) :
    Within results Anything (block (fuel + 1) closers stream) := by
  rw [block]
  split
  · exact .ok trivial inside
  · split
    · exact .refuse (onLine_current inside) _
    · refine (within.statement inside).bind fun first _ _ inside => ?_
      exact (within.block closers inside).bind fun _ _ _ inside => .ok trivial inside

theorem closedBlock_within_step : Within results Anything (closedBlock (fuel + 1) stream) := by
  rw [closedBlock]
  refine (within.block _ inside).bind fun body _ _ inside => ?_
  exact (expect_within inside _).bind fun _ _ _ inside => .ok trivial inside

theorem branches_within_step : Within results Anything (branches (fuel + 1) stream) := by
  rw [branches]
  refine ((expressionsWithin results fuel).expression inside).bind fun condition _ _ inside => ?_
  refine (within.block _ inside).bind fun body _ _ inside => ?_
  exact (within.otherBranches inside).bind fun _ _ _ inside => .ok trivial inside

theorem otherBranches_within_step :
    Within results Anything (otherBranches (fuel + 1) stream) := by
  rw [otherBranches]
  refine .bind_accept inside ?_ within.branches
  refine .bind_accept inside ?_ fun inside => ?_
  · exact (expect_within inside _).bind fun _ _ _ inside => .ok trivial inside
  · exact (within.closedBlock inside).bind fun _ _ _ inside => .ok trivial inside

end StatementSteps

/-- **The readers of statements stay within the results.** -/
theorem statementsWithin (results : List ScanResult) (fuel : Nat) :
    StatementsWithin results fuel := by
  induction fuel with
  | zero =>
    exact
      { statement := fun _ => .exhausted
        block := fun _ _ => .exhausted
        closedBlock := fun _ => .exhausted
        branches := fun _ => .exhausted
        otherBranches := fun _ => .exhausted }
  | succ fuel within =>
    exact
      { statement := statement_within_step within
        block := fun closers inside => block_within_step within inside closers
        closedBlock := closedBlock_within_step within
        branches := branches_within_step within
        otherBranches := otherBranches_within_step within }

/-! ### Texts -/

/-- A reader in two steps stops where one of the steps does. -/
theorem stop_of_bind_eq_error {α β : Type} {first : Except Stop α} {next : α → Except Stop β}
    {stop : Stop} (run : (first >>= next) = .error stop) :
    first = .error stop ∨ ∃ value, first = .ok value ∧ next value = .error stop := by
  rcases first with other | value
  · cases run
    exact .inl rfl
  · exact .inr ⟨value, rfl, run⟩

/-- The error of a program blames one of the results. -/
theorem program_blames {fuel : Nat} {error : ParseError} (inside : stream.results ⊆ results)
    (refused : program fuel stream = .error (.refused error)) : Blames results error := by
  induction fuel generalizing stream with
  | zero => cases refused
  | succ fuel hypothesis =>
    rw [program] at refused
    split at refused
    · cases refused
    · have within := (statementsWithin results fuel).statement inside
      rcases stop_of_bind_eq_error refused with front | ⟨⟨first, after⟩, front, continued⟩
      · rw [front] at within
        cases within with
        | refused blames => exact blames
      · rw [front] at within
        cases within with
        | ok _ inside =>
          rcases stop_of_bind_eq_error continued with rest | ⟨others, -, returned⟩
          · exact hypothesis inside rest
          · cases returned

/-- **A text is refused by the fault in front of it or by the reader of its statements**, which has
an answer within its bound. -/
theorem parse_eq_error {source : String} {error : ParseError}
    (refused : parse source = .error error) :
    Stream.ofSource source = .error error ∨
      ∃ stream, Stream.ofSource source = .ok stream ∧
        program (budget stream) stream = .error (.refused error) := by
  cases begun : Stream.ofSource source with
  | error fault =>
    have stopped : parse source = .error fault := by simp only [parse, begun, bind, Except.bind]
    rw [stopped] at refused
    exact .inl (congrArg Except.error (Except.error.inj refused))
  | ok stream =>
    have scanned : Scanned stream.results := results_of_ofSource begun ▸ scan_scanned source
    have enough : 8 * stream.rest.length + 6 ≤ budget stream := by
      rw [budget]
      omega
    obtain ⟨answer, constant⟩ := program_answers scanned
    have read : program (budget stream) stream = orStop answer := constant _ enough
    have parsed : parse source = answer := by
      simp only [parse, begun, bind, Except.bind, read]
      cases answer <;> rfl
    rw [parsed] at refused
    rw [refused] at read
    exact .inr ⟨stream, rfl, read⟩

/-- **The error of a text blames a result of its scan.** -/
theorem blames_of_parse {source : String} {error : ParseError}
    (refused : parse source = .error error) : Blames (scan source) error := by
  rcases parse_eq_error refused with faulty | ⟨stream, begun, stopped⟩
  · unfold Stream.ofSource at faulty
    generalize scan source = results at faulty
    rcases results with _ | ⟨fault | token, rest⟩
    · cases faulty
    · cases faulty
      exact .fault List.mem_cons_self
    · cases faulty
  · rw [results_of_ofSource begun]
    exact program_blames (fun _ member => member) stopped

end Parser

end Scriptlet
