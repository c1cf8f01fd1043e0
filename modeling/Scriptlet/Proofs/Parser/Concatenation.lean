/-
**A program behind another program.**

A reader looks at one token behind what it reads. If that token is the end of the input, and another
text follows there, the same tree is read as long as the first token of that text continues nothing
(`EndsStatement`). Every token that begins a statement is of that kind, but for a minus and an
opening parenthesis.

* `Joined next short long`: the same tokens, once in front of the end of the input and once in front
  of `next`.
* `Persists next first second`: what the first reader returns, the second one returns, and they stop
  at joined streams. All readers persist, with any larger bound on their recursion
  (`expressionsPersist`, `statementsPersist`).
* `program_append`: the statements of `next` come behind those in front of them.
* `parse_append`: **two programs with a newline between them are one program**, the lines of the
  second moved behind those of the first.
-/

import Scriptlet.Proofs.Parser.Lines
import Scriptlet.Proofs.Parser.Soundness
import Scriptlet.Proofs.Token.Junction

namespace Scriptlet

namespace Parser

open Grammar

/-! ### Tokens that continue nothing -/

/-- The kinds of token that a reader takes if they are there. -/
def optionalKinds : List TokenKind :=
  [.symbol .assign, .symbol .leftParen, .symbol .rightParen, .symbol .comma, .keyword .elsifWord,
    .keyword .elseWord]

/-- **A stream in front of which a statement ends.** -/
structure EndsStatement (stream : Stream) : Prop where
  operator : stream.current.kind.binaryOperator? = none
  optional : stream.current.kind ∉ optionalKinds

theorem EndsStatement.of_atEnd {stream : Stream} (ended : stream.current.kind = .endOfInput) :
    EndsStatement stream := by
  refine ⟨?_, ?_⟩
  · rw [ended]
    rfl
  · rw [ended]
    decide

/-- **The beginning of a statement continues nothing**, but for a minus and a parenthesis. -/
theorem EndsStatement.of_begins {stream : Stream} (begins : beginsStatement stream.current.kind)
    (noMinus : stream.current.kind ≠ .symbol .minus)
    (noParen : stream.current.kind ≠ .symbol .leftParen) : EndsStatement stream := by
  have facts : ∀ kind, beginsStatement kind → kind ≠ .symbol .minus → kind ≠ .symbol .leftParen →
      kind.binaryOperator? = none ∧ kind ∉ optionalKinds := by
    rintro (mark | word | _ | _ | _ | _ | _) begins noMinus noParen
    · cases mark <;> simp_all [beginsStatement, optionalKinds, TokenKind.binaryOperator?,
        Symbol.binaryOperator?]
    · cases word <;> simp_all [beginsStatement, optionalKinds, TokenKind.binaryOperator?]
    all_goals simp [optionalKinds, TokenKind.binaryOperator?]
  obtain ⟨operator, optional⟩ := facts _ begins noMinus noParen
  exact ⟨operator, optional⟩

/-! ### Joined streams -/

/-- The stream that has come to its end, on a line. -/
abbrev endedOn (line : Nat) : Stream := ⟨.endOfInput line, []⟩

/-- **The same tokens, in front of the end of the input and in front of another stream.** -/
inductive Joined (next : Stream) : Stream → Stream → Prop
  | ended (line : Nat) : Joined next (endedOn line) next
  | token {token : Token} {short long : Stream} (inside : token.kind ≠ .endOfInput)
      (later : Joined next short long) :
      Joined next (short.prepend [token]) (long.prepend [token])

variable {next short long : Stream}

/-- Joined streams have the same token in front, unless the first one is at its end. -/
theorem Joined.ended_or_current (joined : Joined next short long) :
    (∃ line, short = endedOn line ∧ long = next) ∨
      (short.current.kind ≠ .endOfInput ∧ long.current = short.current) := by
  cases joined with
  | ended line => exact .inl ⟨line, rfl, rfl⟩
  | token inside later => exact .inr ⟨inside, rfl⟩

/-- A scanned stream without faults is joined to its tokens in front of any stream. -/
theorem joined_of_results {stream : Stream} {body : List Token} {last : Token}
    (scanned : Scanned stream.results) (results : stream.results = (body ++ [last]).map .ok)
    (next : Stream) : Joined next stream (next.prepend body) := by
  induction body generalizing stream with
  | nil =>
    rw [results] at scanned
    cases scanned with
    | endOfInput line =>
      obtain rfl : stream = endedOn line := Stream.results_injective results
      exact .ended line
    | token spelled inside later => cases later
  | cons first rest hypothesis =>
    obtain ⟨second, others, split⟩ : ∃ second others, rest ++ [last] = second :: others :=
      List.exists_cons_of_ne_nil (by simp)
    obtain rfl : stream = Stream.prepend ⟨second, others.map .ok⟩ [first] := by
      refine Stream.results_injective ?_
      rw [results, List.cons_append, split]
      rfl
    have same : (⟨second, others.map .ok⟩ : Stream).results = (rest ++ [last]).map .ok := by
      rw [split]
      rfl
    cases scanned with
    | token spelled inside later =>
      have joined := hypothesis later same
      have front : next.prepend (first :: rest) = (next.prepend rest).prepend [first] := rfl
      rw [front]
      exact .token inside joined

/-! ### Readers that persist -/

/-- **What the first reader returns, the second one returns**, and they stop at joined streams. -/
def Persists (next : Stream) {α : Type} (first second : Except Stop (α × Stream)) : Prop :=
  ∀ value after, first = .ok (value, after) →
    ∃ behind, second = .ok (value, behind) ∧ Joined next after behind

section Steps

variable {α β : Type}

theorem Persists.ok (joined : Joined next short long) (value : α) :
    Persists next (.ok (value, short)) (.ok (value, long)) := by
  rintro _ _ ⟨⟩
  exact ⟨long, rfl, joined⟩

theorem Persists.refused {second : Except Stop (α × Stream)} (stop : Stop) :
    Persists next (.error stop) second := nofun

/-- Readers in two steps persist when both steps do. -/
theorem Persists.bind {first begun : Except Stop (α × Stream)}
    {rest changed : α × Stream → Except Stop (β × Stream)} (same : Persists next first begun)
    (later : ∀ value {short long}, Joined next short long →
      Persists next (rest (value, short)) (changed (value, long))) :
    Persists next (first >>= rest) (begun >>= changed) := by
  intro value after run
  obtain ⟨⟨result, middle⟩, step, continued⟩ := exists_of_bind_eq_ok run
  obtain ⟨behind, read, joined⟩ := same result middle step
  rw [read]
  exact later result joined value after continued

/-- The same for a first step that reads nothing. -/
theorem Persists.bind_left (step : Except Stop α) {rest changed : α → Except Stop (β × Stream)}
    (later : ∀ value, Persists next (rest value) (changed value)) :
    Persists next (step >>= rest) (step >>= changed) := by
  intro value after run
  obtain ⟨result, done, continued⟩ := exists_of_bind_eq_ok run
  rw [done]
  exact later result value after continued

variable (joined : Joined next short long)
include joined

theorem advance_persists (inside : short.current.kind ≠ .endOfInput) :
    Persists next (orStop short.advance) (orStop long.advance) := by
  cases joined with
  | ended line => exact absurd rfl inside
  | @token token _ _ _ later => exact Persists.ok later token

theorem expect_persists {kind : TokenKind} (inside : kind ≠ .endOfInput) :
    Persists next (orStop (short.expect kind)) (orStop (long.expect kind)) := by
  cases joined with
  | ended line =>
    have missing : (endedOn line).check kind = false :=
      decide_eq_false inside.symm
    rw [Stream.expect, missing]
    exact Persists.refused _
  | @token token short long _ later =>
    by_cases same : token.kind = kind
    · rw [Stream.expect_prepend same, Stream.expect_prepend same]
      exact Persists.ok later token
    · have missing : (short.prepend [token]).check kind = false := decide_eq_false same
      rw [Stream.expect, missing]
      exact Persists.refused _

/-- Readers that may go on behind a token persist when they do in both cases. -/
theorem Persists.bind_accept (ends : EndsStatement next) {kind : TokenKind}
    (optional : kind ∈ optionalKinds) {rest changed : Option Stream → Except Stop (β × Stream)}
    (without : Persists next (rest none) (changed none))
    (behind : ∀ {short long}, Joined next short long →
      Persists next (rest (some short)) (changed (some long))) :
    Persists next (orStop (short.accept kind) >>= rest) (orStop (long.accept kind) >>= changed) := by
  cases joined with
  | ended line =>
    have inside : TokenKind.endOfInput ≠ kind := by
      rintro rfl
      exact absurd optional (by decide)
    have other : next.current.kind ≠ kind := by
      rintro rfl
      exact ends.optional optional
    have missing : (endedOn line).accept kind = .ok none :=
      Stream.accept_of_ne inside
    rw [missing, Stream.accept_of_ne other]
    exact without
  | @token token short long _ later =>
    by_cases same : token.kind = kind
    · rw [Stream.accept_prepend same, Stream.accept_prepend same]
      exact behind later
    · have missing : ∀ stream : Stream, (stream.prepend [token]).accept kind = .ok none :=
        fun _ => Stream.accept_of_ne same
      rw [missing, missing]
      exact without

end Steps

/-- The end of the input is scanned. -/
theorem scanned_ended (line : Nat) : Scanned (endedOn line).results :=
  .endOfInput line

/-- Nothing but an empty phrase is read at the end of the input. -/
theorem not_reads_ended {nonterminal : Nonterminal} {line : Nat} {tree : nonterminal.Tree}
    {after : Stream} (full : nonterminal.mayBeEmpty = false) :
    ¬ Reads nonterminal (endedOn line) tree after := by
  rintro ⟨tokens, split, derived⟩
  obtain ⟨first, others, rfl⟩ := List.exists_cons_of_ne_nil (derived.tokens_ne_nil full)
  cases congrArg Stream.rest split

/-! ### Names and ranges -/

theorem identifier_persists (joined : Joined next short long) :
    Persists next (identifier short) (identifier long) :=
  (expect_persists joined (by decide)).bind fun token _ _ joined => Persists.ok joined token.lexeme

theorem rangeToken_persists (joined : Joined next short long) :
    Persists next (rangeToken short) (rangeToken long) := by
  rcases joined.ended_or_current with ⟨line, rfl, rfl⟩ | ⟨inside, same⟩
  · exact Persists.refused _
  · rw [rangeToken, rangeToken, same]
    split
    · next kind _ =>
      refine (advance_persists joined inside).bind fun token _ _ joined => ?_
      exact Persists.bind_left (rangeLiteral kind token) fun range => Persists.ok joined _
    · exact Persists.refused _

theorem namesUntilClosed_persists (ends : EndsStatement next) {fuel more : Nat}
    (enough : fuel ≤ more) (joined : Joined next short long) :
    Persists next (namesUntilClosed fuel short) (namesUntilClosed more long) := by
  induction fuel generalizing more short long with
  | zero => exact Persists.refused _
  | succ fuel hypothesis =>
    obtain ⟨more, rfl⟩ : ∃ bound, more = bound + 1 := ⟨more - 1, by omega⟩
    rw [namesUntilClosed, namesUntilClosed]
    refine (identifier_persists joined).bind fun name _ _ joined => ?_
    refine Persists.bind_accept joined ends (by decide) ?_ fun joined => ?_
    · exact (expect_persists joined (by decide)).bind fun _ _ _ joined => Persists.ok joined _
    · exact (hypothesis (Nat.le_of_succ_le_succ enough) joined).bind
        fun _ _ _ joined => Persists.ok joined _

theorem parameters_persists (ends : EndsStatement next) {fuel more : Nat} (enough : fuel ≤ more)
    (joined : Joined next short long) :
    Persists next (parameters fuel short) (parameters more long) := by
  refine Persists.bind_accept joined ends (by decide) (Persists.ok joined _) fun joined => ?_
  refine Persists.bind_accept joined ends (by decide) ?_ fun joined => Persists.ok joined _
  exact namesUntilClosed_persists ends enough joined

/-! ### Expressions -/

/-- **The readers of expressions persist**, up to two bounds of the recursion. -/
structure ExpressionsPersist (next : Stream) (fuel more : Nat) : Prop where
  expression : ∀ {short long}, Joined next short long →
    Persists next (expression fuel short) (expression more long)
  operation : ∀ {short long} level, Joined next short long →
    Persists next (operation fuel level short) (operation more level long)
  operations : ∀ {short long} level left, Joined next short long →
    Persists next (operations fuel level left short) (operations more level left long)
  operand : ∀ {short long}, Joined next short long →
    Persists next (operand fuel short) (operand more long)
  primary : ∀ {short long}, Joined next short long →
    Persists next (primary fuel short) (primary more long)
  arguments : ∀ {short long}, Joined next short long →
    Persists next (arguments fuel short) (arguments more long)
  argumentsUntilClosed : ∀ {short long}, Joined next short long →
    Persists next (argumentsUntilClosed fuel short) (argumentsUntilClosed more long)

section ExpressionSteps

variable {fuel more : Nat} (persist : ExpressionsPersist next fuel more)
  (joined : Joined next short long)
include persist joined

theorem expression_persists_step (ends : EndsStatement next) :
    Persists next (expression (fuel + 1) short) (expression (more + 1) long) := by
  rw [expression, expression]
  refine (persist.operation 0 joined).bind fun target _ _ joined => ?_
  refine Persists.bind_accept joined ends (by decide) (Persists.ok joined _) fun joined => ?_
  refine (persist.expression joined).bind fun value _ _ joined => ?_
  exact Persists.bind_left (assignTo target value) fun assignment => Persists.ok joined assignment

theorem operation_persists_step (level : Nat) :
    Persists next (operation (fuel + 1) level short) (operation (more + 1) level long) := by
  rw [operation, operation]
  exact (persist.operand joined).bind fun left _ _ joined => persist.operations level left joined

theorem operations_persists_step (ends : EndsStatement next) (level : Nat) (left : Expr) :
    Persists next (operations (fuel + 1) level left short)
      (operations (more + 1) level left long) := by
  rw [operations, operations]
  rcases joined.ended_or_current with ⟨line, rfl, rfl⟩ | ⟨inside, same⟩
  · have stopped : operatorFrom? level long = none := by
      rw [operatorFrom?, ends.operator]
      rfl
    rw [stopped]
    exact Persists.ok joined left
  · have operators : operatorFrom? level long = operatorFrom? level short := by
      rw [operatorFrom?, operatorFrom?, same]
    rw [operators]
    cases operatorFrom? level short with
    | none => exact Persists.ok joined left
    | some operator =>
      refine (advance_persists joined inside).bind fun token _ _ joined => ?_
      refine (persist.operation _ joined).bind fun right _ _ joined => ?_
      exact persist.operations level _ joined

theorem operand_persists_step :
    Persists next (operand (fuel + 1) short) (operand (more + 1) long) := by
  rcases joined.ended_or_current with ⟨line, rfl, rfl⟩ | ⟨inside, same⟩
  · intro tree after run
    exact absurd ((expressionsSound _).operand (scanned_ended line) run) (not_reads_ended rfl)
  · rw [operand, operand, same]
    cases short.current.kind.unaryOperator? with
    | none => exact persist.primary joined
    | some operator =>
      refine (advance_persists joined inside).bind fun token _ _ joined => ?_
      exact (persist.operand joined).bind fun value _ _ joined => Persists.ok joined _

theorem primary_persists_step (ends : EndsStatement next) :
    Persists next (primary (fuel + 1) short) (primary (more + 1) long) := by
  rcases joined.ended_or_current with ⟨line, rfl, rfl⟩ | ⟨inside, -⟩
  · intro tree after run
    exact absurd ((expressionsSound _).primary (scanned_ended line) run) (not_reads_ended rfl)
  rw [primary, primary]
  refine (advance_persists joined inside).bind fun token _ _ joined => ?_
  dsimp only
  split
  · exact Persists.bind_left (numberLiteral token) fun value => Persists.ok joined _
  · exact Persists.bind_left (textLiteral token) fun contents => Persists.ok joined _
  · next kind _ =>
    exact Persists.bind_left (rangeLiteral kind token) fun range => Persists.ok joined _
  · exact Persists.ok joined _
  · exact Persists.ok joined _
  · refine Persists.bind_accept joined ends (by decide) (Persists.ok joined _) fun joined => ?_
    exact (persist.arguments joined).bind fun values _ _ joined => Persists.ok joined _
  · refine (persist.expression joined).bind fun value _ _ joined => ?_
    exact (expect_persists joined (by decide)).bind fun _ _ _ joined => Persists.ok joined value
  · exact Persists.refused _
  · exact Persists.refused _

theorem arguments_persists_step (ends : EndsStatement next) :
    Persists next (arguments (fuel + 1) short) (arguments (more + 1) long) := by
  rw [arguments, arguments]
  exact Persists.bind_accept joined ends (by decide) (persist.argumentsUntilClosed joined)
    fun joined => Persists.ok joined _

theorem argumentsUntilClosed_persists_step (ends : EndsStatement next) :
    Persists next (argumentsUntilClosed (fuel + 1) short)
      (argumentsUntilClosed (more + 1) long) := by
  rw [argumentsUntilClosed, argumentsUntilClosed]
  refine (persist.expression joined).bind fun value _ _ joined => ?_
  refine Persists.bind_accept joined ends (by decide) ?_ fun joined => ?_
  · exact (expect_persists joined (by decide)).bind fun _ _ _ joined => Persists.ok joined _
  · exact (persist.argumentsUntilClosed joined).bind fun _ _ _ joined => Persists.ok joined _

end ExpressionSteps

/-- **The readers of expressions persist** with every larger bound of the recursion. -/
theorem expressionsPersist (ends : EndsStatement next) :
    ∀ {fuel more : Nat}, fuel ≤ more → ExpressionsPersist next fuel more
  | 0, _, _ =>
    { expression := fun _ => Persists.refused _
      operation := fun _ _ => Persists.refused _
      operations := fun _ _ _ => Persists.refused _
      operand := fun _ => Persists.refused _
      primary := fun _ => Persists.refused _
      arguments := fun _ => Persists.refused _
      argumentsUntilClosed := fun _ => Persists.refused _ }
  | _ + 1, _ + 1, enough =>
    have persist := expressionsPersist ends (Nat.le_of_succ_le_succ enough)
    { expression := fun joined => expression_persists_step persist joined ends
      operation := fun level joined => operation_persists_step persist joined level
      operations := fun level left joined => operations_persists_step persist joined ends level left
      operand := operand_persists_step persist
      primary := fun joined => primary_persists_step persist joined ends
      arguments := fun joined => arguments_persists_step persist joined ends
      argumentsUntilClosed := fun joined => argumentsUntilClosed_persists_step persist joined ends }

/-! ### Statements -/

/-- **The readers of statements persist**, up to two bounds of the recursion. -/
structure StatementsPersist (next : Stream) (fuel more : Nat) : Prop where
  statement : ∀ {short long}, Joined next short long →
    Persists next (statement fuel short) (statement more long)
  block : ∀ {short long} closers, Joined next short long →
    Persists next (block fuel closers short) (block more closers long)
  closedBlock : ∀ {short long}, Joined next short long →
    Persists next (closedBlock fuel short) (closedBlock more long)
  branches : ∀ {short long}, Joined next short long →
    Persists next (branches fuel short) (branches more long)
  otherBranches : ∀ {short long}, Joined next short long →
    Persists next (otherBranches fuel short) (otherBranches more long)

section StatementSteps

variable {fuel more : Nat} (persist : StatementsPersist next fuel more)
  (joined : Joined next short long)
include persist joined

theorem statement_persists_step (ends : EndsStatement next) (enough : fuel ≤ more) :
    Persists next (statement (fuel + 1) short) (statement (more + 1) long) := by
  have expressions := expressionsPersist ends enough
  rcases joined.ended_or_current with ⟨line, rfl, rfl⟩ | ⟨inside, same⟩
  · intro tree after run
    exact absurd ((statementsSound _).statement (scanned_ended line) run) (not_reads_ended rfl)
  have line : long.line = short.line := congrArg Token.line same
  rw [statement, statement]
  dsimp only
  rw [same, line]
  have front := advance_persists joined inside
  split
  · refine front.bind fun _ _ _ joined => ?_
    exact (expressions.expression joined).bind fun _ _ _ joined => Persists.ok joined _
  · refine front.bind fun _ _ _ joined => ?_
    exact (persist.branches joined).bind fun _ _ _ joined => Persists.ok joined _
  · refine front.bind fun _ _ _ joined => ?_
    refine (expressions.expression joined).bind fun condition _ _ joined => ?_
    exact (persist.closedBlock joined).bind fun _ _ _ joined => Persists.ok joined _
  · refine front.bind fun _ _ _ joined => ?_
    refine (identifier_persists joined).bind fun name _ _ joined => ?_
    refine (expect_persists joined (by decide)).bind fun _ _ _ joined => ?_
    refine (rangeToken_persists joined).bind fun iterand _ _ joined => ?_
    exact (persist.closedBlock joined).bind fun _ _ _ joined => Persists.ok joined _
  · refine front.bind fun _ _ _ joined => ?_
    refine (identifier_persists joined).bind fun name _ _ joined => ?_
    refine (parameters_persists ends enough joined).bind fun names _ _ joined => ?_
    exact (persist.closedBlock joined).bind fun _ _ _ joined => Persists.ok joined _
  · exact (expressions.expression joined).bind fun _ _ _ joined => Persists.ok joined _

theorem block_persists_step (closers : List Keyword) :
    Persists next (block (fuel + 1) closers short) (block (more + 1) closers long) := by
  rw [block, block]
  rcases joined.ended_or_current with ⟨line, rfl, rfl⟩ | ⟨inside, same⟩
  · -- no word closes a block at the end of the input, so it is refused there
    have unclosed : endsBlock closers (endedOn line) = false := by
      simp [endsBlock, Stream.check, Token.endOfInput]
    rw [unclosed]
    exact Persists.refused _
  · have closes : endsBlock closers long = endsBlock closers short := by
      simp only [endsBlock, Stream.check, same]
    have ended : long.atEnd = short.atEnd := by
      simp only [Stream.atEnd, Stream.check, same]
    rw [closes, ended]
    split
    · exact Persists.ok joined _
    · split
      · exact Persists.refused _
      · refine (persist.statement joined).bind fun first _ _ joined => ?_
        exact (persist.block closers joined).bind fun _ _ _ joined => Persists.ok joined _

theorem closedBlock_persists_step :
    Persists next (closedBlock (fuel + 1) short) (closedBlock (more + 1) long) := by
  rw [closedBlock, closedBlock]
  refine (persist.block _ joined).bind fun body _ _ joined => ?_
  exact (expect_persists joined (by decide)).bind fun _ _ _ joined => Persists.ok joined body

theorem branches_persists_step (ends : EndsStatement next) (enough : fuel ≤ more) :
    Persists next (branches (fuel + 1) short) (branches (more + 1) long) := by
  rw [branches, branches]
  refine ((expressionsPersist ends enough).expression joined).bind fun condition _ _ joined => ?_
  refine (persist.block _ joined).bind fun body _ _ joined => ?_
  exact (persist.otherBranches joined).bind fun _ _ _ joined => Persists.ok joined _

theorem otherBranches_persists_step (ends : EndsStatement next) :
    Persists next (otherBranches (fuel + 1) short) (otherBranches (more + 1) long) := by
  rcases joined.ended_or_current with ⟨line, rfl, rfl⟩ | ⟨inside, same⟩
  · exact Persists.refused _
  have line : long.line = short.line := congrArg Token.line same
  rw [otherBranches, otherBranches, line]
  refine Persists.bind_accept joined ends (by decide) ?_ persist.branches
  refine Persists.bind_accept joined ends (by decide) ?_ fun joined => ?_
  · exact (expect_persists joined (by decide)).bind fun _ _ _ joined => Persists.ok joined _
  · exact (persist.closedBlock joined).bind fun _ _ _ joined => Persists.ok joined _

end StatementSteps

/-- **The readers of statements persist** with every larger bound of the recursion. -/
theorem statementsPersist (ends : EndsStatement next) :
    ∀ {fuel more : Nat}, fuel ≤ more → StatementsPersist next fuel more
  | 0, _, _ =>
    { statement := fun _ => Persists.refused _
      block := fun _ _ => Persists.refused _
      closedBlock := fun _ => Persists.refused _
      branches := fun _ => Persists.refused _
      otherBranches := fun _ => Persists.refused _ }
  | _ + 1, _ + 1, enough =>
    have less := Nat.le_of_succ_le_succ enough
    have persist := statementsPersist ends less
    { statement := fun joined => statement_persists_step persist joined ends less
      block := fun closers joined => block_persists_step persist joined closers
      closedBlock := closedBlock_persists_step persist
      branches := fun joined => branches_persists_step persist joined ends less
      otherBranches := fun joined => otherBranches_persists_step persist joined ends }

/-! ### Programs -/

/-- **The statements of a stream come behind those in front of it**, if the bound leaves enough for
them when the others are read. -/
theorem program_append (ends : EndsStatement next) {base : Nat} {later : Program}
    (read : ∀ more, base ≤ more → program more next = .ok later) {fuel more : Nat}
    {trees : Program} (joined : Joined next short long) (run : program fuel short = .ok trees)
    (enough : fuel ≤ more) (left : trees.length + base ≤ more) :
    program more long = .ok (trees ++ later) := by
  induction fuel generalizing more short long trees with
  | zero => cases run
  | succ fuel hypothesis =>
    rcases joined.ended_or_current with ⟨line, rfl, rfl⟩ | ⟨inside, same⟩
    · cases run
      exact read more (by simpa using left)
    obtain ⟨more, rfl⟩ : ∃ bound, more = bound + 1 := ⟨more - 1, by omega⟩
    have solid : short.atEnd = false := decide_eq_false inside
    have ended : long.atEnd = false := by
      rw [← solid, Stream.atEnd, Stream.atEnd, Stream.check, Stream.check, same]
    rw [program, solid] at run
    obtain ⟨⟨first, middle⟩, front, continued⟩ := exists_of_bind_eq_ok run
    obtain ⟨others, rest, returned⟩ := exists_of_bind_eq_ok continued
    cases returned
    have less : fuel ≤ more := Nat.le_of_succ_le_succ enough
    obtain ⟨behind, again, joined⟩ :=
      (statementsPersist ends less).statement joined first middle front
    have tail := hypothesis joined rest less (by simp at left; omega)
    rw [program, ended, if_neg (by decide), again]
    show (program more behind >>= _) = _
    rw [tail]
    rfl

/-- A program that is read within a bound is read within every larger one. -/
theorem program_mono {stream : Stream} {fuel more : Nat} {trees : Program}
    (scanned : Scanned stream.results) (run : program fuel stream = .ok trees)
    (enough : fuel ≤ more) (left : trees.length < more) : program more stream = .ok trees := by
  obtain ⟨body, last, results, ended, -⟩ := program_sound scanned run
  -- the stream is joined to itself at its own end
  have whole : Stream.prepend ⟨last, []⟩ body = stream := by
    refine Stream.results_injective ?_
    rw [Stream.results_prepend, results]
    simp [Stream.results]
  have joined := joined_of_results scanned results ⟨last, []⟩
  rw [whole] at joined
  have nothing : ∀ bound, 1 ≤ bound → program bound ⟨last, []⟩ = .ok [] := by
    intro bound positive
    obtain ⟨bound, rfl⟩ : ∃ smaller, bound = smaller + 1 := ⟨bound - 1, by omega⟩
    rw [program, Stream.atEnd, Stream.check, ended]
    rfl
  have read := program_append (.of_atEnd ended) nothing joined run enough left
  rwa [List.append_nil] at read

/-- **Where a program begins, the statement in front of it ends**, but for a minus and a
parenthesis. -/
theorem EndsStatement.of_program {stream : Stream} {fuel : Nat} {trees : Program}
    (scanned : Scanned stream.results) (run : program fuel stream = .ok trees)
    (noMinus : stream.current.kind ≠ .symbol .minus)
    (noParen : stream.current.kind ≠ .symbol .leftParen) : EndsStatement stream := by
  obtain ⟨body, last, results, ended, derived⟩ := program_sound scanned run
  rcases body with _ | ⟨first, rest⟩
  · have current : stream.current = last := Except.ok.inj (List.cons.inj results).1
    exact .of_atEnd (current ▸ ended)
  · have current : stream.current = first := Except.ok.inj (List.cons.inj results).1
    have begins : beginsStatement stream.current.kind := current ▸ derived.begins rfl first rfl
    exact .of_begins begins noMinus noParen

/-- A program has no more statements than tokens. -/
theorem length_le_of_program {stream : Stream} {fuel : Nat} {trees : Program}
    (scanned : Scanned stream.results) (run : program fuel stream = .ok trees) :
    trees.length ≤ stream.rest.length := by
  obtain ⟨tokens, _, same, -, derived⟩ := program_sound scanned run
  have count : stream.rest.length = tokens.length := by
    simpa [Stream.results] using congrArg List.length same
  exact count ▸ derived.length_le

/-- **The tokens of a program in front of another program** are read as both of them. -/
theorem program_prepend {stream : Stream} {trees later : Program} {body : List Token}
    {last : Token} (scanned : Scanned stream.results)
    (results : stream.results = (body ++ [last]).map .ok)
    (run : program (budget stream) stream = .ok trees) (ends : EndsStatement next)
    (behind : Scanned next.results) (read : program (budget next) next = .ok later) :
    program (budget (next.prepend body)) (next.prepend body) = .ok (trees ++ later) := by
  have size : stream.rest.length = body.length := by
    simpa [Stream.results] using congrArg List.length results
  have fewer := length_le_of_program scanned run
  have laterFewer := length_le_of_program behind read
  have again : ∀ more, budget next ≤ more → program more next = .ok later := by
    intro more enough
    have left : later.length < more := by
      rw [budget] at enough
      omega
    exact program_mono behind read enough left
  refine program_append ends again (joined_of_results scanned results next) run ?_ ?_
  · rw [budget, budget, Stream.length_rest_prepend, size]
    omega
  · rw [size] at fewer
    rw [budget, budget, Stream.length_rest_prepend]
    omega

/-! ### Texts -/

/-- **The stream of two texts with a newline between them**: the tokens of the first one in front of
the stream of the second one. -/
theorem ofSource_append {first second : String} {body : List Token} {last : Token}
    (scanned : scan first = (body ++ [last]).map .ok)
    (behind : next.results = scanFrom (1 + (first.toList.count '\n' + 1)) second.toList) :
    Stream.ofSource (first ++ "\n" ++ second) = .ok (next.prepend body) := by
  have closed : ∀ place, .error ⟨place, .unterminatedText⟩ ∉ scanFrom 1 first.toList := by
    intro place member
    rw [← scan, scanned] at member
    simp at member
  have characters : (first ++ "\n" ++ second).toList = first.toList ++ '\n' :: second.toList := by
    simp
  have whole : scan (first ++ "\n" ++ second) = (next.prepend body).results := by
    calc scan (first ++ "\n" ++ second)
      _ = (scan first).dropLast ++ scanFrom (1 + first.toList.count '\n' + 1) second.toList := by
        rw [scan, characters, scanFrom_append_newline _ _ _ closed, ← scan]
      _ = body.map .ok ++ next.results := by
        rw [scanned, behind, Nat.add_assoc]
        simp
      _ = (next.prepend body).results := (Stream.results_prepend body).symm
  rw [Stream.ofSource, whole]
  rfl

/-- **Two programs with a newline between them are one program**: the statements of the first, and
behind them those of the second, whose lines are moved by the newlines in front of it. The second
text may begin with any token but a minus or an opening parenthesis, which can continue the last
expression of the first. -/
theorem parse_append (first second : String) (program later : Program)
    (accepted : parse first = .ok program) (follows : parse second = .ok later)
    (apart : ∀ token, (scan second).head? = some (.ok token) →
      token.kind ≠ .symbol .minus ∧ token.kind ≠ .symbol .leftParen) :
    parse (first ++ "\n" ++ second) =
      .ok (program ++ Stmt.mapLinesAll (· + (first.toList.count '\n' + 1)) later) := by
  obtain ⟨stream, ofFirst, run⟩ := parse_eq_ok_iff.mp accepted
  obtain ⟨begun, ofSecond, read⟩ := parse_eq_ok_iff.mp follows
  have results := results_of_ofSource ofFirst
  have scanned : Scanned stream.results := results ▸ scan_scanned first
  obtain ⟨body, last, tokens, -, -⟩ := program_sound scanned run
  -- the second stream is read as it stands, with its lines moved
  obtain ⟨shift, lines⟩ : ∃ shift, shift = first.toList.count '\n' + 1 := ⟨_, rfl⟩
  rw [← lines]
  have begins := results_of_ofSource ofSecond
  have moved : (begun.mapLines (· + shift)).results = scanFrom (1 + shift) second.toList := by
    rw [scanFrom_add, ← scan, begins]
    rfl
  have behind : Scanned (begun.mapLines (· + shift)).results := moved ▸ scanFrom_scanned _ _
  have same : budget (begun.mapLines (· + shift)) = budget begun := by
    simp [budget, Stream.mapLines]
  have readBehind : Parser.program (budget (begun.mapLines (· + shift)))
      (begun.mapLines (· + shift)) = .ok (Stmt.mapLinesAll (· + shift) later) := by
    rw [same, program_mapLines, read]
    rfl
  obtain ⟨noMinus, noParen⟩ := apart begun.current (by rw [begins]; rfl)
  have ends : EndsStatement (begun.mapLines (· + shift)) :=
    .of_program behind readBehind noMinus noParen
  refine parse_eq_ok_iff.mpr ⟨(begun.mapLines (· + shift)).prepend body, ?_, ?_⟩
  · exact ofSource_append (results.trans tokens) (lines ▸ moved)
  · exact program_prepend scanned tokens run ends behind readBehind

/-- A comment at the end of the first text, and a string of two lines in the second. -/
theorem parse_append_commented :
    parse "x = 1..2\nx # (" = .ok
        [.expression 1 (.assign 1 "x" (.range 1 ⟨.inclusive, 1, 2⟩)),
          .expression 2 (.identifier 2 "x")] ∧
      parse "!x\nputs \"\n\"" = .ok
        [.expression 1 (.unary 1 .not (.identifier 1 "x")), .print 2 (.text 3 "\n")] ∧
      parse ("x = 1..2\nx # (" ++ "\n" ++ "!x\nputs \"\n\"") = .ok
        [.expression 1 (.assign 1 "x" (.range 1 ⟨.inclusive, 1, 2⟩)),
          .expression 2 (.identifier 2 "x"),
          .expression 3 (.unary 3 .not (.identifier 3 "x")), .print 4 (.text 5 "\n")] := by
  have scanned : scan "x = 1..2\nx # (" =
      [.ok ⟨.identifier, "x", 1⟩, .ok ⟨.symbol .assign, "=", 1⟩,
        .ok ⟨.range .inclusive, "1..2", 1⟩, .ok ⟨.identifier, "x", 2⟩, .ok (.endOfInput 2)] := by
    decide +kernel
  have behind : scan "!x\nputs \"\n\"" =
      [.ok ⟨.symbol .bang, "!", 1⟩, .ok ⟨.identifier, "x", 1⟩,
        .ok ⟨.keyword .putsWord, "puts", 2⟩, .ok ⟨.text, "\"\n\"", 3⟩, .ok (.endOfInput 3)] := by
    decide +kernel
  have accepted : parse "x = 1..2\nx # (" = .ok
      [.expression 1 (.assign 1 "x" (.range 1 ⟨.inclusive, 1, 2⟩)),
        .expression 2 (.identifier 2 "x")] := by
    rw [parse, Stream.ofSource, scanned]
    rfl
  have follows : parse "!x\nputs \"\n\"" = .ok
      [.expression 1 (.unary 1 .not (.identifier 1 "x")), .print 2 (.text 3 "\n")] := by
    rw [parse, Stream.ofSource, behind]
    rfl
  refine ⟨accepted, follows, ?_⟩
  refine parse_append _ _ _ _ accepted follows fun token first => ?_
  rw [behind] at first
  cases first
  decide

end Parser

end Scriptlet
