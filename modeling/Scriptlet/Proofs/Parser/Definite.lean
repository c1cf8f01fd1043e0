/-
**Errors that no further text can cure.**

A text that breaks off is read like the whole text as far as it goes: both readers return the same
and stop at the same place, or the first one has come to the end of the input before it could decide
(`Undecided`). An error that is not about the end of the input may be raised after that end was
looked at, as for the target of an assignment whose value is the last expression of the text. But
then the token or the tree that it is about has been read already, and the whole text has it, too.

* `Undecided`: a reader has stopped at the end of the input, or because of it.
* `Keeps first second`: what the second reader returns, the first one returns, or it is undecided.
  All readers keep what is returned for the whole text (`expressionsKeep`, `statementsKeep`).
* `program_premature`: if the whole text is a program, only its end can be wrong with a part of it.
* `parse_append_error`: **a definite error stays an error**, whatever text follows.
-/

import Scriptlet.Proofs.Parser.Concatenation
import Scriptlet.Proofs.Parser.Refusals

namespace Scriptlet

/-- The faults of a text that ends too early. -/
def ParseFault.isPremature : ParseFault → Bool
  | unexpectedEnd | unterminatedText => true
  | _ => false

namespace Parser

variable {short long : Stream}

/-! ### Undecided readers -/

/-- **A reader has stopped at the end of the input, or because of it.** -/
inductive Undecided {α : Type} : Except Stop (α × Stream) → Prop
  | ended (value : α) (line : Nat) : Undecided (.ok (value, endedOn line))
  | refused {error : ParseError} (premature : error.fault.isPremature = true) :
      Undecided (.error (.refused error))
  | exhausted : Undecided (.error .exhausted)

/-- Readers in two steps are undecided when the second step is at the end of the input. -/
theorem Undecided.bind {α β : Type} {first : Except Stop (α × Stream)}
    {rest : α × Stream → Except Stop (β × Stream)} (undecided : Undecided first)
    (ended : ∀ value line, Undecided (rest (value, endedOn line))) :
    Undecided (first >>= rest) := by
  cases undecided with
  | ended value line => exact ended value line
  | refused premature => exact .refused premature
  | exhausted => exact .exhausted

section Ended

variable {α : Type} (line : Nat)

/-- At the end of the input every token is missing. -/
theorem expect_ended {kind : TokenKind} (inside : kind ≠ .endOfInput) :
    (endedOn line).expect kind = .error ⟨line, .unexpectedEnd⟩ := by
  have missing : (endedOn line).check kind = false := decide_eq_false inside.symm
  rw [Stream.expect, missing]
  rfl

theorem accept_ended {kind : TokenKind} (inside : kind ≠ .endOfInput) :
    (endedOn line).accept kind = .ok none :=
  Stream.accept_of_ne inside.symm

theorem bindExpect_ended {kind : TokenKind} (inside : kind ≠ .endOfInput)
    (rest : Token × Stream → Except Stop (α × Stream)) :
    Undecided (orStop ((endedOn line).expect kind) >>= rest) := by
  rw [expect_ended line inside]
  exact .refused rfl

theorem rangeToken_ended : Undecided (rangeToken (endedOn line)) :=
  .refused rfl

variable (fuel : Nat)

theorem namesUntilClosed_ended : Undecided (namesUntilClosed fuel (endedOn line)) := by
  rcases fuel with _ | fuel
  · exact .exhausted
  · exact .refused rfl

theorem parameters_ended : Undecided (parameters fuel (endedOn line)) := by
  rw [parameters, accept_ended line (by decide)]
  exact .ended [] line

theorem primary_ended : Undecided (primary fuel (endedOn line)) := by
  rcases fuel with _ | fuel
  · exact .exhausted
  · exact .refused rfl

theorem operand_ended : Undecided (operand fuel (endedOn line)) := by
  rcases fuel with _ | fuel
  · exact .exhausted
  · exact primary_ended line fuel

theorem operations_ended (level : Nat) (left : Expr) :
    Undecided (operations fuel level left (endedOn line)) := by
  rcases fuel with _ | fuel
  · exact .exhausted
  · exact .ended left line

theorem operation_ended (level : Nat) : Undecided (operation fuel level (endedOn line)) := by
  rcases fuel with _ | fuel
  · exact .exhausted
  · exact (operand_ended line fuel).bind fun left line => operations_ended line fuel level left

theorem expression_ended : Undecided (expression fuel (endedOn line)) := by
  rcases fuel with _ | fuel
  · exact .exhausted
  · refine (operation_ended line fuel 0).bind fun target line => ?_
    exact .ended target line

theorem argumentsUntilClosed_ended : Undecided (argumentsUntilClosed fuel (endedOn line)) := by
  rcases fuel with _ | fuel
  · exact .exhausted
  · refine (expression_ended line fuel).bind fun value line => ?_
    exact .refused rfl

theorem statement_ended : Undecided (statement fuel (endedOn line)) := by
  rcases fuel with _ | fuel
  · exact .exhausted
  · exact (expression_ended line fuel).bind fun value _ => .ended _ _

theorem block_ended (closers : List Keyword) : Undecided (block fuel closers (endedOn line)) := by
  rcases fuel with _ | fuel
  · exact .exhausted
  · have unclosed : endsBlock closers (endedOn line) = false := by
      simp [endsBlock, Stream.check, Token.endOfInput]
    rw [block, unclosed]
    exact .refused rfl

theorem closedBlock_ended : Undecided (closedBlock fuel (endedOn line)) := by
  rcases fuel with _ | fuel
  · exact .exhausted
  · exact (block_ended line fuel _).bind fun _ line => bindExpect_ended line (by decide) _

theorem otherBranches_ended : Undecided (otherBranches fuel (endedOn line)) := by
  rcases fuel with _ | fuel
  · exact .exhausted
  · exact .refused rfl

end Ended

/-! ### Readers that keep what is returned for the whole text -/

/-- **What the second reader returns, the first one returns**, and they stop at the same place,
unless the first one is undecided. -/
def Keeps {α : Type} (first second : Except Stop (α × Stream)) : Prop :=
  ∀ value behind, second = .ok (value, behind) →
    Undecided first ∨
      ∃ after, first = .ok (value, after) ∧ BreaksOff after.results behind.results

section Steps

variable {α β : Type}

theorem Keeps.undecided {first second : Except Stop (α × Stream)} (undecided : Undecided first) :
    Keeps first second :=
  fun _ _ _ => .inl undecided

theorem Keeps.refused {first : Except Stop (α × Stream)} (stop : Stop) :
    Keeps first (.error stop) := by
  rintro _ _ ⟨⟩

theorem Keeps.ok (broken : BreaksOff short.results long.results) (value : α) :
    Keeps (.ok (value, short)) (.ok (value, long)) := by
  rintro _ _ ⟨⟩
  exact .inr ⟨short, rfl, broken⟩

/-- Readers in two steps keep what both steps keep, if the second one is undecided at the end of the
input. -/
theorem Keeps.bind {first begun : Except Stop (α × Stream)}
    {rest changed : α × Stream → Except Stop (β × Stream)} (kept : Keeps first begun)
    (ended : ∀ value line, Undecided (rest (value, endedOn line)))
    (later : ∀ value {short long : Stream}, BreaksOff short.results long.results →
      Keeps (rest (value, short)) (changed (value, long))) :
    Keeps (first >>= rest) (begun >>= changed) := by
  intro value behind run
  obtain ⟨⟨result, middle⟩, step, continued⟩ := exists_of_bind_eq_ok run
  rcases kept result middle step with undecided | ⟨after, same, broken⟩
  · exact .inl (undecided.bind ended)
  · rw [same]
    exact later result broken value behind continued

/-- The same for a first step that reads nothing. -/
theorem Keeps.bind_left (step : Except Stop α) {rest changed : α → Except Stop (β × Stream)}
    (later : ∀ value, Keeps (rest value) (changed value)) :
    Keeps (step >>= rest) (step >>= changed) := by
  intro value behind run
  obtain ⟨result, done, continued⟩ := exists_of_bind_eq_ok run
  rw [done]
  exact later result value behind continued

/-- A stream that breaks off is at its end, or has the token of the whole stream in front. -/
theorem ended_or_current (broken : BreaksOff short.results long.results) :
    (∃ line, short = endedOn line) ∨
      (short.current.kind ≠ .endOfInput ∧ long.current = short.current) := by
  rcases short with ⟨current, rest⟩
  rcases long with ⟨front, others⟩
  cases broken with
  | ended line => exact .inl ⟨line, rfl⟩
  | token inside later => exact .inr ⟨inside, rfl⟩

variable (broken : BreaksOff short.results long.results)
include broken

/-- **The token in front is the same for both readers**, and only a quote that is not closed can
stop the first one alone. -/
theorem Keeps.bind_advance (inside : short.current.kind ≠ .endOfInput)
    {rest changed : Token × Stream → Except Stop (β × Stream)}
    (later : ∀ {after behind : Stream}, BreaksOff after.results behind.results →
      Keeps (rest (short.current, after)) (changed (short.current, behind))) :
    Keeps (orStop short.advance >>= rest) (orStop long.advance >>= changed) := by
  rcases short with ⟨current, part⟩
  rcases long with ⟨front, whole⟩
  intro value behind run
  obtain ⟨⟨token, middle⟩, step, continued⟩ := exists_of_bind_eq_ok run
  have advanced := eq_ok_of_orStop step
  cases broken with
  | ended line => exact absurd rfl inside
  | token _ broken =>
    obtain rfl : token = current := Stream.current_of_advance advanced
    cases broken with
    | ended line =>
      have rest : BreaksOff (endedOn line).results middle.results := .ended line _
      exact later rest value behind continued
    | unclosed line last => exact .inl (.refused rfl)
    | @token next part whole solid broken =>
      cases advanced
      have rest : BreaksOff (Stream.mk next part).results (Stream.mk next whole).results :=
        .token solid broken
      exact later rest value behind continued
    | fault => cases advanced

/-- The same for a token that must be of some kind. -/
theorem Keeps.bind_expect {kind : TokenKind} (solid : kind ≠ .endOfInput)
    {rest changed : Token × Stream → Except Stop (β × Stream)}
    (later : ∀ {after behind : Stream}, BreaksOff after.results behind.results →
      Keeps (rest (short.current, after)) (changed (short.current, behind))) :
    Keeps (orStop (short.expect kind) >>= rest) (orStop (long.expect kind) >>= changed) := by
  rcases ended_or_current broken with ⟨line, rfl⟩ | ⟨inside, same⟩
  · exact .undecided (bindExpect_ended line solid rest)
  · have checked : long.check kind = short.check kind := by
      rw [Stream.check, Stream.check, same]
    rw [Stream.expect, Stream.expect, checked]
    by_cases fits : short.check kind = true
    · rw [if_pos fits, if_pos fits]
      exact Keeps.bind_advance broken inside later
    · rw [if_neg fits, if_neg fits]
      exact Keeps.refused _

/-- Readers that may go on behind a token keep what is returned in both cases. -/
theorem Keeps.bind_accept {kind : TokenKind} (solid : kind ≠ .endOfInput)
    {rest changed : Option Stream → Except Stop (β × Stream)}
    (ended : ∀ line, short = endedOn line → Undecided (rest none))
    (without : Keeps (rest none) (changed none))
    (behind : ∀ {after behind : Stream}, BreaksOff after.results behind.results →
      Keeps (rest (some after)) (changed (some behind))) :
    Keeps (orStop (short.accept kind) >>= rest) (orStop (long.accept kind) >>= changed) := by
  rcases ended_or_current broken with ⟨line, rfl⟩ | ⟨inside, same⟩
  · rw [accept_ended line solid]
    exact .undecided (ended line rfl)
  · by_cases fits : short.current.kind = kind
    · have front : ∀ stream : Stream, stream.current = short.current →
          orStop (stream.accept kind) =
            orStop stream.advance >>= fun read => .ok (some read.2) := by
        intro stream current
        have checked : stream.check kind = true := decide_eq_true (current ▸ fits)
        rw [Stream.accept, if_pos checked]
        rcases stream.advance with error | ⟨token, next⟩
        · rfl
        · rfl
      rw [front short rfl, front long same, bind_assoc, bind_assoc]
      exact Keeps.bind_advance broken inside behind
    · rw [Stream.accept_of_ne fits, Stream.accept_of_ne (same ▸ fits)]
      exact without

end Steps

/-! ### Names and ranges -/

theorem identifier_keeps (broken : BreaksOff short.results long.results) :
    Keeps (identifier short) (identifier long) :=
  Keeps.bind_expect broken (by decide) fun broken => Keeps.ok broken _

theorem rangeToken_keeps (broken : BreaksOff short.results long.results) :
    Keeps (rangeToken short) (rangeToken long) := by
  rcases ended_or_current broken with ⟨line, rfl⟩ | ⟨inside, same⟩
  · exact .undecided (rangeToken_ended line)
  · rw [rangeToken, rangeToken, same]
    split
    · next kind _ =>
      refine Keeps.bind_advance broken inside fun broken => ?_
      exact Keeps.bind_left (rangeLiteral kind short.current) fun range => Keeps.ok broken _
    · exact Keeps.refused _

theorem namesUntilClosed_keeps (fuel more : Nat) (broken : BreaksOff short.results long.results) :
    Keeps (namesUntilClosed fuel short) (namesUntilClosed more long) := by
  induction fuel generalizing more short long with
  | zero => exact .undecided .exhausted
  | succ fuel hypothesis =>
    rcases more with _ | more
    · exact Keeps.refused _
    rw [namesUntilClosed, namesUntilClosed]
    refine (identifier_keeps broken).bind (fun name line => .refused rfl) fun name _ _ broken => ?_
    refine Keeps.bind_accept broken (by decide) ?_ ?_ fun broken => ?_
    · rintro line rfl
      exact bindExpect_ended line (by decide) _
    · exact Keeps.bind_expect broken (by decide) fun broken => Keeps.ok broken _
    · exact (hypothesis more broken).bind (fun _ line => .ended _ line)
        fun _ _ _ broken => Keeps.ok broken _

theorem parameters_keeps (fuel more : Nat) (broken : BreaksOff short.results long.results) :
    Keeps (parameters fuel short) (parameters more long) := by
  refine Keeps.bind_accept broken (by decide) ?_ (Keeps.ok broken _) fun broken => ?_
  · rintro line rfl
    exact .ended [] line
  · refine Keeps.bind_accept broken (by decide) ?_ ?_ fun broken => Keeps.ok broken _
    · rintro line rfl
      exact namesUntilClosed_ended line fuel
    · exact namesUntilClosed_keeps fuel more broken

/-! ### Expressions -/

/-- **The readers of expressions keep what is returned for the whole text**, up to two bounds of the
recursion. -/
structure ExpressionsKeep (fuel more : Nat) : Prop where
  expression : ∀ {short long : Stream}, BreaksOff short.results long.results →
    Keeps (expression fuel short) (expression more long)
  operation : ∀ {short long : Stream} level, BreaksOff short.results long.results →
    Keeps (operation fuel level short) (operation more level long)
  operations : ∀ {short long : Stream} level left, BreaksOff short.results long.results →
    Keeps (operations fuel level left short) (operations more level left long)
  operand : ∀ {short long : Stream}, BreaksOff short.results long.results →
    Keeps (operand fuel short) (operand more long)
  primary : ∀ {short long : Stream}, BreaksOff short.results long.results →
    Keeps (primary fuel short) (primary more long)
  arguments : ∀ {short long : Stream}, BreaksOff short.results long.results →
    Keeps (arguments fuel short) (arguments more long)
  argumentsUntilClosed : ∀ {short long : Stream}, BreaksOff short.results long.results →
    Keeps (argumentsUntilClosed fuel short) (argumentsUntilClosed more long)

/-- **Whether a target can be assigned to does not depend on the value.** -/
theorem assignTo_cases (target : Expr) :
    (∀ value, ∃ assignment, assignTo target value = .ok assignment) ∨
      ∃ stop, ∀ value, assignTo target value = .error stop := by
  cases target
  case identifier line name => exact .inl fun value => ⟨_, rfl⟩
  all_goals exact .inr ⟨_, fun value => rfl⟩

section ExpressionSteps

variable {fuel more : Nat} (keep : ExpressionsKeep fuel more)
  (broken : BreaksOff short.results long.results)
include keep broken

theorem expression_keeps_step :
    Keeps (expression (fuel + 1) short) (expression (more + 1) long) := by
  rw [expression, expression]
  refine (keep.operation 0 broken).bind (fun target line => .ended target line)
    fun target _ _ broken => ?_
  refine Keeps.bind_accept broken (by decide) ?_ (Keeps.ok broken _) fun broken => ?_
  · rintro line rfl
    exact .ended target line
  -- the target is judged behind the value, which may go on in the whole text
  rcases assignTo_cases target with fits | ⟨stop, refused⟩
  · refine (keep.expression broken).bind (fun value line => ?_) fun value _ _ broken => ?_
    · obtain ⟨assignment, assigned⟩ := fits value
      dsimp only
      rw [assigned]
      exact .ended assignment line
    · exact Keeps.bind_left (assignTo target value) fun assignment => Keeps.ok broken assignment
  · intro tree behind run
    obtain ⟨⟨value, middle⟩, -, continued⟩ := exists_of_bind_eq_ok run
    dsimp only at continued
    rw [refused value] at continued
    cases continued

theorem operation_keeps_step (level : Nat) :
    Keeps (operation (fuel + 1) level short) (operation (more + 1) level long) := by
  rw [operation, operation]
  exact (keep.operand broken).bind (fun left line => operations_ended line fuel level left)
    fun left _ _ broken => keep.operations level left broken

theorem operations_keeps_step (level : Nat) (left : Expr) :
    Keeps (operations (fuel + 1) level left short) (operations (more + 1) level left long) := by
  rcases ended_or_current broken with ⟨line, rfl⟩ | ⟨inside, same⟩
  · exact .undecided (operations_ended line _ level left)
  have operators : operatorFrom? level long = operatorFrom? level short := by
    rw [operatorFrom?, operatorFrom?, same]
  rw [operations, operations, operators]
  cases operatorFrom? level short with
  | none => exact Keeps.ok broken left
  | some operator =>
    refine Keeps.bind_advance broken inside fun broken => ?_
    refine (keep.operation _ broken).bind (fun right line => operations_ended line fuel level _)
      fun right _ _ broken => ?_
    exact keep.operations level _ broken

theorem operand_keeps_step : Keeps (operand (fuel + 1) short) (operand (more + 1) long) := by
  rcases ended_or_current broken with ⟨line, rfl⟩ | ⟨inside, same⟩
  · exact .undecided (operand_ended line _)
  rw [operand, operand, same]
  cases short.current.kind.unaryOperator? with
  | none => exact keep.primary broken
  | some operator =>
    refine Keeps.bind_advance broken inside fun broken => ?_
    exact (keep.operand broken).bind (fun _ line => .ended _ line)
      fun value _ _ broken => Keeps.ok broken _

theorem primary_keeps_step : Keeps (primary (fuel + 1) short) (primary (more + 1) long) := by
  rcases ended_or_current broken with ⟨line, rfl⟩ | ⟨inside, -⟩
  · exact .undecided (primary_ended line _)
  rw [primary, primary]
  refine Keeps.bind_advance broken inside fun broken => ?_
  dsimp only
  split
  · exact Keeps.bind_left (numberLiteral short.current) fun value => Keeps.ok broken _
  · exact Keeps.bind_left (textLiteral short.current) fun contents => Keeps.ok broken _
  · next kind _ =>
    exact Keeps.bind_left (rangeLiteral kind short.current) fun range => Keeps.ok broken _
  · exact Keeps.ok broken _
  · exact Keeps.ok broken _
  · refine Keeps.bind_accept broken (by decide) ?_ (Keeps.ok broken _) fun broken => ?_
    · rintro line rfl
      exact .ended _ line
    · exact (keep.arguments broken).bind (fun _ line => .ended _ line)
        fun values _ _ broken => Keeps.ok broken _
  · refine (keep.expression broken).bind (fun _ line => bindExpect_ended line (by decide) _)
      fun value _ _ broken => ?_
    exact Keeps.bind_expect broken (by decide) fun broken => Keeps.ok broken value
  · exact Keeps.refused _
  · exact Keeps.refused _

theorem arguments_keeps_step :
    Keeps (arguments (fuel + 1) short) (arguments (more + 1) long) := by
  rw [arguments, arguments]
  refine Keeps.bind_accept broken (by decide) ?_ (keep.argumentsUntilClosed broken)
    fun broken => Keeps.ok broken _
  rintro line rfl
  exact argumentsUntilClosed_ended line fuel

theorem argumentsUntilClosed_keeps_step :
    Keeps (argumentsUntilClosed (fuel + 1) short) (argumentsUntilClosed (more + 1) long) := by
  rw [argumentsUntilClosed, argumentsUntilClosed]
  refine (keep.expression broken).bind (fun value line => .refused rfl) fun value _ _ broken => ?_
  refine Keeps.bind_accept broken (by decide) ?_ ?_ fun broken => ?_
  · rintro line rfl
    exact bindExpect_ended line (by decide) _
  · exact Keeps.bind_expect broken (by decide) fun broken => Keeps.ok broken _
  · exact (keep.argumentsUntilClosed broken).bind (fun _ line => .ended _ line)
      fun _ _ _ broken => Keeps.ok broken _

end ExpressionSteps

/-- **The readers of expressions keep what is returned for the whole text**, with any two bounds of
the recursion: a bound that is too small decides nothing. -/
theorem expressionsKeep : ∀ fuel more : Nat, ExpressionsKeep fuel more
  | 0, _ =>
    { expression := fun _ => .undecided .exhausted
      operation := fun _ _ => .undecided .exhausted
      operations := fun _ _ _ => .undecided .exhausted
      operand := fun _ => .undecided .exhausted
      primary := fun _ => .undecided .exhausted
      arguments := fun _ => .undecided .exhausted
      argumentsUntilClosed := fun _ => .undecided .exhausted }
  | _ + 1, 0 =>
    { expression := fun _ => Keeps.refused _
      operation := fun _ _ => Keeps.refused _
      operations := fun _ _ _ => Keeps.refused _
      operand := fun _ => Keeps.refused _
      primary := fun _ => Keeps.refused _
      arguments := fun _ => Keeps.refused _
      argumentsUntilClosed := fun _ => Keeps.refused _ }
  | fuel + 1, more + 1 =>
    have keep := expressionsKeep fuel more
    { expression := expression_keeps_step keep
      operation := fun level broken => operation_keeps_step keep broken level
      operations := fun level left broken => operations_keeps_step keep broken level left
      operand := operand_keeps_step keep
      primary := primary_keeps_step keep
      arguments := arguments_keeps_step keep
      argumentsUntilClosed := argumentsUntilClosed_keeps_step keep }

/-! ### Statements -/

/-- **The readers of statements keep what is returned for the whole text**, up to two bounds of the
recursion. -/
structure StatementsKeep (fuel more : Nat) : Prop where
  statement : ∀ {short long : Stream}, BreaksOff short.results long.results →
    Keeps (statement fuel short) (statement more long)
  block : ∀ {short long : Stream} closers, BreaksOff short.results long.results →
    Keeps (block fuel closers short) (block more closers long)
  closedBlock : ∀ {short long : Stream}, BreaksOff short.results long.results →
    Keeps (closedBlock fuel short) (closedBlock more long)
  branches : ∀ {short long : Stream}, BreaksOff short.results long.results →
    Keeps (branches fuel short) (branches more long)
  otherBranches : ∀ {short long : Stream}, BreaksOff short.results long.results →
    Keeps (otherBranches fuel short) (otherBranches more long)

section StatementSteps

variable {fuel more : Nat} (keep : StatementsKeep fuel more)
  (broken : BreaksOff short.results long.results)
include keep broken

theorem statement_keeps_step :
    Keeps (statement (fuel + 1) short) (statement (more + 1) long) := by
  have expressions := expressionsKeep fuel more
  rcases ended_or_current broken with ⟨line, rfl⟩ | ⟨inside, same⟩
  · exact .undecided (statement_ended line _)
  have line : long.line = short.line := congrArg Token.line same
  rw [statement, statement]
  dsimp only
  rw [same, line]
  split
  · refine Keeps.bind_advance broken inside fun broken => ?_
    exact (expressions.expression broken).bind (fun _ line => .ended _ line)
      fun _ _ _ broken => Keeps.ok broken _
  · refine Keeps.bind_advance broken inside fun broken => ?_
    exact (keep.branches broken).bind (fun _ line => .ended _ line)
      fun _ _ _ broken => Keeps.ok broken _
  · refine Keeps.bind_advance broken inside fun broken => ?_
    refine (expressions.expression broken).bind (fun condition line => ?_)
      fun condition _ _ broken => ?_
    · exact (closedBlock_ended line fuel).bind fun _ line => .ended _ line
    · exact (keep.closedBlock broken).bind (fun _ line => .ended _ line)
        fun _ _ _ broken => Keeps.ok broken _
  · refine Keeps.bind_advance broken inside fun broken => ?_
    refine (identifier_keeps broken).bind (fun _ line => bindExpect_ended line (by decide) _)
      fun name _ _ broken => ?_
    refine Keeps.bind_expect broken (by decide) fun broken => ?_
    refine (rangeToken_keeps broken).bind (fun iterand line => ?_) fun iterand _ _ broken => ?_
    · exact (closedBlock_ended line fuel).bind fun _ line => .ended _ line
    · exact (keep.closedBlock broken).bind (fun _ line => .ended _ line)
        fun _ _ _ broken => Keeps.ok broken _
  · refine Keeps.bind_advance broken inside fun broken => ?_
    refine (identifier_keeps broken).bind (fun name line => ?_) fun name _ _ broken => ?_
    · refine (parameters_ended line fuel).bind fun names line => ?_
      exact (closedBlock_ended line fuel).bind fun _ line => .ended _ line
    · refine (parameters_keeps fuel more broken).bind (fun names line => ?_)
        fun names _ _ broken => ?_
      · exact (closedBlock_ended line fuel).bind fun _ line => .ended _ line
      · exact (keep.closedBlock broken).bind (fun _ line => .ended _ line)
          fun _ _ _ broken => Keeps.ok broken _
  · exact (expressions.expression broken).bind (fun _ line => .ended _ line)
      fun _ _ _ broken => Keeps.ok broken _

theorem block_keeps_step (closers : List Keyword) :
    Keeps (block (fuel + 1) closers short) (block (more + 1) closers long) := by
  rcases ended_or_current broken with ⟨line, rfl⟩ | ⟨inside, same⟩
  · exact .undecided (block_ended line _ closers)
  have closes : endsBlock closers long = endsBlock closers short := by
    simp only [endsBlock, Stream.check, same]
  have ended : long.atEnd = short.atEnd := by
    simp only [Stream.atEnd, Stream.check, same]
  rw [block, block, closes, ended]
  split
  · exact Keeps.ok broken _
  · split
    · exact Keeps.refused _
    · refine (keep.statement broken).bind (fun first line => ?_) fun first _ _ broken => ?_
      · exact (block_ended line fuel closers).bind fun _ line => .ended _ line
      · exact (keep.block closers broken).bind (fun _ line => .ended _ line)
          fun _ _ _ broken => Keeps.ok broken _

theorem closedBlock_keeps_step :
    Keeps (closedBlock (fuel + 1) short) (closedBlock (more + 1) long) := by
  rw [closedBlock, closedBlock]
  refine (keep.block _ broken).bind (fun _ line => bindExpect_ended line (by decide) _)
    fun body _ _ broken => ?_
  exact Keeps.bind_expect broken (by decide) fun broken => Keeps.ok broken body

theorem branches_keeps_step :
    Keeps (branches (fuel + 1) short) (branches (more + 1) long) := by
  rw [branches, branches]
  refine ((expressionsKeep fuel more).expression broken).bind (fun condition line => ?_)
    fun condition _ _ broken => ?_
  · refine (block_ended line fuel _).bind fun body line => ?_
    exact (otherBranches_ended line fuel).bind fun _ line => .ended _ line
  refine (keep.block _ broken).bind (fun body line => ?_) fun body _ _ broken => ?_
  · exact (otherBranches_ended line fuel).bind fun _ line => .ended _ line
  · exact (keep.otherBranches broken).bind (fun _ line => .ended _ line)
      fun _ _ _ broken => Keeps.ok broken _

theorem otherBranches_keeps_step :
    Keeps (otherBranches (fuel + 1) short) (otherBranches (more + 1) long) := by
  rcases ended_or_current broken with ⟨line, rfl⟩ | ⟨inside, same⟩
  · exact .undecided (otherBranches_ended line _)
  have solid : ∀ line, short ≠ endedOn line := by
    rintro line rfl
    exact inside rfl
  have line : long.line = short.line := congrArg Token.line same
  rw [otherBranches, otherBranches, line]
  refine Keeps.bind_accept broken (by decide) (fun line ended => absurd ended (solid line)) ?_
    keep.branches
  refine Keeps.bind_accept broken (by decide) (fun line ended => absurd ended (solid line)) ?_
    fun broken => ?_
  · exact Keeps.bind_expect broken (by decide) fun broken => Keeps.ok broken _
  · exact (keep.closedBlock broken).bind (fun _ line => .ended _ line)
      fun _ _ _ broken => Keeps.ok broken _

end StatementSteps

/-- **The readers of statements keep what is returned for the whole text.** -/
theorem statementsKeep : ∀ fuel more : Nat, StatementsKeep fuel more
  | 0, _ =>
    { statement := fun _ => .undecided .exhausted
      block := fun _ _ => .undecided .exhausted
      closedBlock := fun _ => .undecided .exhausted
      branches := fun _ => .undecided .exhausted
      otherBranches := fun _ => .undecided .exhausted }
  | _ + 1, 0 =>
    { statement := fun _ => Keeps.refused _
      block := fun _ _ => Keeps.refused _
      closedBlock := fun _ => Keeps.refused _
      branches := fun _ => Keeps.refused _
      otherBranches := fun _ => Keeps.refused _ }
  | fuel + 1, more + 1 =>
    have keep := statementsKeep fuel more
    { statement := statement_keeps_step keep
      block := fun closers broken => block_keeps_step keep broken closers
      closedBlock := closedBlock_keeps_step keep
      branches := branches_keeps_step keep
      otherBranches := otherBranches_keeps_step keep }

/-! ### Programs -/

/-- **If the whole text is a program, only its end can be wrong with a part of it.** -/
theorem program_premature {fuel more : Nat} {trees : Program} {error : ParseError}
    (broken : BreaksOff short.results long.results) (whole : program more long = .ok trees)
    (refused : program fuel short = .error (.refused error)) : error.fault.isPremature = true := by
  induction fuel generalizing more short long trees with
  | zero => cases refused
  | succ fuel hypothesis =>
    rcases more with _ | more
    · cases whole
    rcases ended_or_current broken with ⟨line, rfl⟩ | ⟨inside, same⟩
    · cases refused
    have solid : short.atEnd = false := decide_eq_false inside
    have ended : long.atEnd = false := by
      rw [← solid, Stream.atEnd, Stream.atEnd, Stream.check, Stream.check, same]
    rw [program, ended] at whole
    rw [program, solid] at refused
    obtain ⟨⟨first, behind⟩, front, continued⟩ := exists_of_bind_eq_ok whole
    obtain ⟨others, later, -⟩ := exists_of_bind_eq_ok continued
    have kept := (statementsKeep fuel more).statement broken first behind front
    rcases stop_of_bind_eq_error refused with stopped | ⟨⟨tree, after⟩, read, rest⟩
    · rw [stopped] at kept
      rcases kept with undecided | ⟨after, read, -⟩
      · cases undecided with
        | refused premature => exact premature
      · cases read
    · rw [read] at kept
      rcases stop_of_bind_eq_error rest with stopped | ⟨trees, -, returned⟩
      · rcases kept with undecided | ⟨same, returned, broken⟩
        · cases undecided with
          | ended _ line =>
            rcases fuel with _ | fuel
            · cases stopped
            · cases stopped
        · cases returned
          exact hypothesis broken later stopped
      · cases returned

/-! ### Texts -/

/-- **A definite error stays an error.** If a text is refused for anything but its end, so is every
text that goes on behind it on the next line. -/
theorem parse_append_error (source more : String) (error : ParseError)
    (refused : parse source = .error error) (unended : error.fault ≠ .unexpectedEnd)
    (closed : error.fault ≠ .unterminatedText) :
    ∃ other, parse (source ++ "\n" ++ more) = .error other := by
  have definite : error.fault.isPremature = false := by
    rcases error with ⟨line, fault⟩
    cases fault <;> first | rfl | contradiction
  have characters : (source ++ "\n" ++ more).toList = source.toList ++ '\n' :: more.toList := by
    simp
  have broken : BreaksOff (scan source) (scan (source ++ "\n" ++ more)) := by
    rw [scan, scan, characters]
    exact scanFrom_breaksOff 1 source.toList more.toList
  cases whole : parse (source ++ "\n" ++ more) with
  | error other => exact ⟨other, rfl⟩
  | ok trees =>
    obtain ⟨long, opened, read⟩ := parse_eq_ok_iff.mp whole
    rw [results_of_ofSource opened] at broken
    rcases parse_eq_error refused with faulty | ⟨short, begun, stopped⟩
    · -- the fault in front of the text is in front of the whole text
      unfold Stream.ofSource at faulty
      generalize scan source = results at broken faulty
      cases broken with
      | ended line => cases faulty
      | unclosed line last =>
        cases faulty
        exact absurd rfl closed
      | token inside later => cases faulty
    · rw [results_of_ofSource begun] at broken
      have premature := program_premature broken read stopped
      rw [definite] at premature
      cases premature

/-- A truth value is assigned to. That is said when the value has been read, which goes on in the
text behind it. -/
theorem parse_append_error_target :
    parse "true = a" = .error ⟨1, .invalidTarget⟩ ∧
      ∃ other, parse ("true = a" ++ "\n" ++ "+ b") = .error other := by
  have scanned : scan "true = a" =
      [.ok ⟨.keyword .trueWord, "true", 1⟩, .ok ⟨.symbol .assign, "=", 1⟩,
        .ok ⟨.identifier, "a", 1⟩, .ok (.endOfInput 1)] := by
    decide +kernel
  have refused : parse "true = a" = .error ⟨1, .invalidTarget⟩ := by
    rw [parse, Stream.ofSource, scanned]
    rfl
  exact ⟨refused, parse_append_error _ _ _ refused (by decide) (by decide)⟩

end Parser

end Scriptlet
