/-
**The parser makes progress and comes to an answer.**

The end of the input is never used up, so a reader that takes it again and again would go on for
ever. None does: what a reader returns with has at least one token of its own in front of it, and
each pass of each loop reads such a token. Between two tokens the readers call one another along the
levels of the grammar, which are eight at most. So eight levels of recursion for each token are
enough, whatever the tokens are.

* `Consumes`: a stream behind at least one token.
* `Passes`: one pass of a loop; `Passes.consumes`: **a pass consumes a token.**
* `LoopsPass`: a loop that returns has gone through passes only; `loopsPass`: they all do.
* `Answers`: from a bound on, a reader has one answer, a tree or an error in the text.
* `expressionsAnswer`, `statementsAnswer`, `program_answers`: **every reader has an answer**, by
  induction on the tokens that are left.
* `parse_progresses`: **parsing terminates, and no reader and no loop returns without progress.**
-/

import Mathlib.Data.Bool.Basic
import Mathlib.Data.Nat.Init
import Mathlib.Logic.Relation
import Scriptlet.Proofs.Parser.Soundness

namespace Scriptlet

namespace Parser

open Grammar

/-! ### Consumed tokens -/

/-- **A stream behind at least one token** of another. -/
def Consumes (stream after : Stream) : Prop :=
  ∃ tokens, tokens ≠ [] ∧ stream = after.prepend tokens

section Consumed

variable {stream middle after : Stream}

theorem Consumes.length_lt (consumed : Consumes stream after) :
    after.rest.length < stream.rest.length := by
  obtain ⟨tokens, some, rfl⟩ := consumed
  have positive := List.length_pos_iff.mpr some
  rw [Stream.length_rest_prepend]
  omega

theorem Consumes.scanned (consumed : Consumes stream after) (scanned : Scanned stream.results) :
    Scanned after.results := by
  obtain ⟨tokens, -, rfl⟩ := consumed
  exact Stream.scanned_of_prepend scanned

theorem Consumes.trans (first : Consumes stream middle) (second : Consumes middle after) :
    Consumes stream after := by
  obtain ⟨front, some, rfl⟩ := first
  obtain ⟨tokens, -, rfl⟩ := second
  exact ⟨front ++ tokens, List.append_ne_nil_of_left_ne_nil some tokens, by simp⟩

theorem Consumes.single (token : Token) : Consumes (after.prepend [token]) after :=
  ⟨[token], List.cons_ne_nil _ _, rfl⟩

/-- A token in front of what a reader may have read. -/
theorem Consumes.prepend {tokens : List Token} (consumed : Consumes stream (after.prepend tokens)) :
    Consumes stream after := by
  obtain ⟨front, some, rfl⟩ := consumed
  exact ⟨front ++ tokens, List.append_ne_nil_of_left_ne_nil some tokens, by simp⟩

/-- What is read of a nonterminal that is never empty is consumed. -/
theorem Reads.consumes {nonterminal : Nonterminal} {tree : nonterminal.Tree}
    (reads : Reads nonterminal stream tree after) (full : nonterminal.mayBeEmpty = false) :
    Consumes stream after := by
  obtain ⟨tokens, split, derived⟩ := reads
  exact ⟨tokens, derived.tokens_ne_nil full, split⟩

end Consumed

section Readers

variable {fuel : Nat} {stream after : Stream} (scanned : Scanned stream.results)
include scanned

theorem advance_consumes {token : Token} (inside : stream.current.kind ≠ .endOfInput)
    (step : stream.advance = .ok (token, after)) : Consumes stream after := by
  rw [Stream.eq_prepend_of_advance scanned inside step]
  exact .single token

theorem accept_consumes {kind : TokenKind} (inside : kind ≠ .endOfInput)
    (step : stream.accept kind = .ok (some after)) : Consumes stream after := by
  obtain ⟨token, -, rfl⟩ := Stream.eq_prepend_of_accept scanned inside step
  exact .single token

theorem expect_consumes {kind : TokenKind} {token : Token} (inside : kind ≠ .endOfInput)
    (step : stream.expect kind = .ok (token, after)) : Consumes stream after := by
  rw [(Stream.eq_prepend_of_expect scanned inside step).2]
  exact .single token

theorem identifier_consumes {name : String} (run : identifier stream = .ok (name, after)) :
    Consumes stream after := by
  obtain ⟨token, -, -, rfl⟩ := identifier_sound scanned run
  exact .single token

theorem rangeToken_consumes {tree : Expr} (run : rangeToken stream = .ok (tree, after)) :
    Consumes stream after := by
  obtain ⟨token, -, -, -, -, -, -, rfl⟩ := rangeToken_sound scanned run
  exact .single token

/-- **An expression that is read has consumed a token.** -/
theorem expression_consumes {tree : Expr} (run : expression fuel stream = .ok (tree, after)) :
    Consumes stream after :=
  ((expressionsSound fuel).expression scanned run).consumes rfl

theorem operation_consumes {level : Nat} {tree : Expr}
    (run : operation fuel level stream = .ok (tree, after)) : Consumes stream after :=
  ((expressionsSound fuel).operation scanned run).1.consumes rfl

theorem operand_consumes {tree : Expr} (run : operand fuel stream = .ok (tree, after)) :
    Consumes stream after :=
  ((expressionsSound fuel).operand scanned run).consumes rfl

/-- **A statement that is read has consumed a token.** -/
theorem statement_consumes {tree : Stmt} (run : statement fuel stream = .ok (tree, after)) :
    Consumes stream after :=
  ((statementsSound fuel).statement scanned run).consumes rfl

end Readers

/-! ### Passes of loops -/

/-- **The loops of the parser**: all statements, the statements in front of a closing word, the
branches behind the first one, the operators of a level, parameters and arguments. -/
inductive Loop where
  | program
  | block (ends : List Keyword)
  | elsifs
  | operators (level : Nat)
  | names
  | arguments

/-- **A completed pass of a loop**, from the stream it begins at to the stream it ends at. -/
inductive Passes : Loop → Stream → Stream → Prop
  | program {fuel : Nat} {stream next : Stream} {first : Stmt} (more : stream.atEnd = false)
      (read : statement fuel stream = .ok (first, next)) : Passes .program stream next
  | block {fuel : Nat} {ends : List Keyword} {stream next : Stream} {first : Stmt}
      (opened : endsBlock ends stream = false) (more : stream.atEnd = false)
      (read : statement fuel stream = .ok (first, next)) : Passes (.block ends) stream next
  | elsifs {fuel : Nat} {stream middle behind next : Stream} {condition : Expr} {body : List Stmt}
      (opened : stream.accept (.keyword .elsifWord) = .ok (some middle))
      (tested : expression fuel middle = .ok (condition, behind))
      (guarded : Parser.block fuel branchEnds behind = .ok (body, next)) :
      Passes .elsifs stream next
  | operators {fuel level : Nat} {stream middle next : Stream} {operator : BinaryOperator}
      {mark : Token} {right : Expr} (found : operatorFrom? level stream = some operator)
      (taken : stream.advance = .ok (mark, middle))
      (read : operation fuel (operator.precedence + 1) middle = .ok (right, next)) :
      Passes (.operators level) stream next
  | name {stream middle next : Stream} {name : String}
      (read : identifier stream = .ok (name, middle))
      (divided : middle.accept (.symbol .comma) = .ok (some next)) : Passes .names stream next
  | lastName {stream middle next : Stream} {name : String} {closing : Token}
      (read : identifier stream = .ok (name, middle))
      (closed : middle.expect (.symbol .rightParen) = .ok (closing, next)) :
      Passes .names stream next
  | argument {fuel : Nat} {stream middle next : Stream} {value : Expr}
      (read : expression fuel stream = .ok (value, middle))
      (divided : middle.accept (.symbol .comma) = .ok (some next)) : Passes .arguments stream next
  | lastArgument {fuel : Nat} {stream middle next : Stream} {value : Expr} {closing : Token}
      (read : expression fuel stream = .ok (value, middle))
      (closed : middle.expect (.symbol .rightParen) = .ok (closing, next)) :
      Passes .arguments stream next

/-- The end of the input is no operator. -/
theorem kind_ne_of_operatorFrom? {level : Nat} {stream : Stream} {operator : BinaryOperator}
    (found : operatorFrom? level stream = some operator) : stream.current.kind ≠ .endOfInput := by
  intro ended
  rw [operatorFrom?, ended] at found
  cases found

/-- **A pass of a loop consumes a token.** -/
theorem Passes.consumes {loop : Loop} {stream next : Stream} (scanned : Scanned stream.results)
    (pass : Passes loop stream next) : Consumes stream next := by
  cases pass with
  | program _ read => exact statement_consumes scanned read
  | block _ _ read => exact statement_consumes scanned read
  | elsifs opened tested guarded =>
    have word := accept_consumes scanned (by decide) opened
    have condition := expression_consumes (word.scanned scanned) tested
    have behind := (word.trans condition).scanned scanned
    obtain ⟨tokens, rfl, -⟩ := (statementsSound _).block behind guarded
    exact (word.trans condition).prepend
  | operators found taken read =>
    have mark := advance_consumes scanned (kind_ne_of_operatorFrom? found) taken
    exact mark.trans (operation_consumes (mark.scanned scanned) read)
  | name read divided =>
    have front := identifier_consumes scanned read
    exact front.trans (accept_consumes (front.scanned scanned) (by decide) divided)
  | lastName read closed =>
    have front := identifier_consumes scanned read
    exact front.trans (expect_consumes (front.scanned scanned) (by decide) closed)
  | argument read divided =>
    have front := expression_consumes scanned read
    exact front.trans (accept_consumes (front.scanned scanned) (by decide) divided)
  | lastArgument read closed =>
    have front := expression_consumes scanned read
    exact front.trans (expect_consumes (front.scanned scanned) (by decide) closed)

/-! ### Loops that return -/

open Relation (ReflTransGen)

section Loops

variable {fuel : Nat} {stream after : Stream}

theorem program_passes : ∀ {fuel : Nat} {stream : Stream} {trees : Program},
    program fuel stream = .ok trees →
      ∃ last, ReflTransGen (Passes .program) stream last ∧ last.atEnd
  | 0, _, _, run => by cases run
  | fuel + 1, stream, trees, run => by
    rw [program] at run
    split at run
    · next ended => exact ⟨stream, .refl, ended⟩
    · next more =>
      obtain ⟨⟨first, next⟩, read, later⟩ := exists_of_bind_eq_ok run
      obtain ⟨rest, tail, -⟩ := exists_of_bind_eq_ok later
      obtain ⟨last, passes, ended⟩ := program_passes tail
      exact ⟨last, passes.head (.program (Bool.eq_false_of_not_eq_true more) read), ended⟩

theorem block_passes {ends : List Keyword} {trees : List Stmt}
    (run : block fuel ends stream = .ok (trees, after)) :
    ReflTransGen (Passes (.block ends)) stream after ∧ endsBlock ends after := by
  induction fuel generalizing stream trees with
  | zero => cases run
  | succ fuel hypothesis =>
    rw [block] at run
    split at run
    · next ended =>
      cases run
      exact ⟨.refl, ended⟩
    · next opened =>
      split at run
      · cases run
      · next more =>
        obtain ⟨⟨first, next⟩, read, later⟩ := exists_of_bind_eq_ok run
        obtain ⟨⟨rest, last⟩, tail, returned⟩ := exists_of_bind_eq_ok later
        cases returned
        obtain ⟨passes, ended⟩ := hypothesis tail
        have pass : Passes (.block ends) stream next :=
          .block (Bool.eq_false_of_not_eq_true opened) (Bool.eq_false_of_not_eq_true more) read
        exact ⟨passes.head pass, ended⟩

/-- The branches behind the first one are read pass by pass, an `else` apart. -/
theorem elsifs_passes : ∀ {fuel : Nat} {stream : Stream} {others : List Branch},
    otherBranches fuel stream = .ok (others, after) →
      ∃ last, ReflTransGen (Passes .elsifs) stream last ∧
        last.accept (.keyword .elsifWord) = .ok none
  | 0, _, _, run => by cases run
  | fuel + 1, stream, others, run => by
    rw [otherBranches] at run
    obtain ⟨accepted, step, later⟩ := exists_of_bind_eq_ok run
    have word := eq_ok_of_orStop step
    cases accepted with
    | none => exact ⟨stream, .refl, word⟩
    | some middle =>
      -- a pass is the condition and the body of one branch, two levels further down
      cases fuel with
      | zero => cases later
      | succ fuel =>
        replace later : branches (fuel + 1) middle = .ok (others, after) := later
        rw [branches] at later
        obtain ⟨⟨condition, behind⟩, tested, later⟩ := exists_of_bind_eq_ok later
        obtain ⟨⟨body, next⟩, guarded, later⟩ := exists_of_bind_eq_ok later
        obtain ⟨⟨rest, behind⟩, tail, returned⟩ := exists_of_bind_eq_ok later
        cases returned
        obtain ⟨last, passes, ended⟩ := elsifs_passes tail
        exact ⟨last, passes.head (.elsifs word tested guarded), ended⟩

theorem operators_passes {level : Nat} {left tree : Expr}
    (run : operations fuel level left stream = .ok (tree, after)) :
    ReflTransGen (Passes (.operators level)) stream after ∧ operatorFrom? level after = none := by
  induction fuel generalizing stream left with
  | zero => cases run
  | succ fuel hypothesis =>
    rw [operations] at run
    cases found : operatorFrom? level stream with
    | none =>
      rw [found] at run
      cases run
      exact ⟨.refl, found⟩
    | some operator =>
      rw [found] at run
      obtain ⟨⟨mark, middle⟩, step, later⟩ := exists_of_bind_eq_ok run
      obtain ⟨⟨right, next⟩, read, tail⟩ := exists_of_bind_eq_ok later
      obtain ⟨passes, ended⟩ := hypothesis tail
      exact ⟨passes.head (.operators found (eq_ok_of_orStop step) read), ended⟩

theorem names_passes {names : List String}
    (run : namesUntilClosed fuel stream = .ok (names, after)) :
    ReflTransGen (Passes .names) stream after := by
  induction fuel generalizing stream names with
  | zero => cases run
  | succ fuel hypothesis =>
    rw [namesUntilClosed] at run
    obtain ⟨⟨name, middle⟩, read, later⟩ := exists_of_bind_eq_ok run
    obtain ⟨accepted, step, later⟩ := exists_of_bind_eq_ok later
    cases accepted with
    | some next =>
      obtain ⟨⟨others, last⟩, tail, returned⟩ := exists_of_bind_eq_ok later
      cases returned
      exact (hypothesis tail).head (.name read (eq_ok_of_orStop step))
    | none =>
      obtain ⟨⟨closing, last⟩, closed, returned⟩ := exists_of_bind_eq_ok later
      cases returned
      exact .single (.lastName read (eq_ok_of_orStop closed))

theorem arguments_passes {values : List Expr}
    (run : argumentsUntilClosed fuel stream = .ok (values, after)) :
    ReflTransGen (Passes .arguments) stream after := by
  induction fuel generalizing stream values with
  | zero => cases run
  | succ fuel hypothesis =>
    rw [argumentsUntilClosed] at run
    obtain ⟨⟨value, middle⟩, read, later⟩ := exists_of_bind_eq_ok run
    obtain ⟨accepted, step, later⟩ := exists_of_bind_eq_ok later
    cases accepted with
    | some next =>
      obtain ⟨⟨others, last⟩, tail, returned⟩ := exists_of_bind_eq_ok later
      cases returned
      exact (hypothesis tail).head (.argument read (eq_ok_of_orStop step))
    | none =>
      obtain ⟨⟨closing, last⟩, closed, returned⟩ := exists_of_bind_eq_ok later
      cases returned
      exact .single (.lastArgument read (eq_ok_of_orStop closed))

end Loops

/-- **A loop that returns from a stream has gone through passes only**, and has stopped where no
further one begins. -/
structure LoopsPass (stream : Stream) : Prop where
  program : ∀ fuel trees, program fuel stream = .ok trees →
    ∃ last, ReflTransGen (Passes .program) stream last ∧ last.atEnd
  block : ∀ fuel ends trees after, block fuel ends stream = .ok (trees, after) →
    ReflTransGen (Passes (.block ends)) stream after ∧ endsBlock ends after
  elsifs : ∀ fuel others after, otherBranches fuel stream = .ok (others, after) →
    ∃ last, ReflTransGen (Passes .elsifs) stream last ∧
      last.accept (.keyword .elsifWord) = .ok none
  operators : ∀ fuel level left tree after,
    operations fuel level left stream = .ok (tree, after) →
      ReflTransGen (Passes (.operators level)) stream after ∧ operatorFrom? level after = none
  names : ∀ fuel names after, namesUntilClosed fuel stream = .ok (names, after) →
    ReflTransGen (Passes .names) stream after
  arguments : ∀ fuel values after, argumentsUntilClosed fuel stream = .ok (values, after) →
    ReflTransGen (Passes .arguments) stream after

theorem loopsPass (stream : Stream) : LoopsPass stream where
  program := fun _ _ run => program_passes run
  block := fun _ _ _ _ run => block_passes run
  elsifs := fun _ _ _ run => elsifs_passes run
  operators := fun _ _ _ _ _ run => operators_passes run
  names := fun _ _ _ run => names_passes run
  arguments := fun _ _ _ run => arguments_passes run

/-! ### Readers that answer -/

section Answers

variable {α β : Type} {bound more : Nat}

/-- **From a bound on, a reader has one and the same answer**: a result or an error in the text. -/
def Answers (reader : Nat → Except Stop α) (bound : Nat) : Prop :=
  ∃ answer : Except ParseError α, ∀ fuel, bound ≤ fuel → reader fuel = orStop answer

theorem Answers.orStop (answer : Except ParseError α) (bound : Nat) :
    Answers (fun _ => orStop answer) bound :=
  ⟨answer, fun _ _ => rfl⟩

theorem Answers.ok (value : α) (bound : Nat) : Answers (fun _ => .ok value) bound :=
  .orStop (.ok value) bound

theorem Answers.refused (error : ParseError) (bound : Nat) :
    Answers (α := α) (fun _ => .error (.refused error)) bound :=
  .orStop (.error error) bound

theorem Answers.mono {reader : Nat → Except Stop α} (answers : Answers reader bound)
    (less : bound ≤ more) : Answers reader more := by
  obtain ⟨answer, constant⟩ := answers
  exact ⟨answer, fun fuel enough => constant fuel (Nat.le_trans less enough)⟩

/-- A reader answers if it does one level further down. -/
theorem Answers.succ {reader later : Nat → Except Stop α} (answers : Answers later bound)
    (step : ∀ fuel, reader (fuel + 1) = later fuel) : Answers reader (bound + 1) := by
  obtain ⟨answer, constant⟩ := answers
  refine ⟨answer, fun fuel enough => ?_⟩
  obtain ⟨less, rfl⟩ : ∃ less, fuel = less + 1 := ⟨fuel - 1, by omega⟩
  rw [step, constant less (by omega)]

/-- **A reader in two steps answers if both steps do.** -/
theorem Answers.bind {first : Nat → Except Stop α} {next : Nat → α → Except Stop β}
    (begun : Answers first bound)
    (later : ∀ fuel value, first fuel = .ok value → Answers (fun fuel => next fuel value) bound) :
    Answers (fun fuel => first fuel >>= next fuel) bound := by
  obtain ⟨answer, constant⟩ := begun
  rcases answer with error | value
  · refine ⟨.error error, fun fuel enough => ?_⟩
    show first fuel >>= next fuel = _
    rw [constant fuel enough]
    rfl
  · obtain ⟨result, settled⟩ := later bound value (constant bound (Nat.le_refl _))
    refine ⟨result, fun fuel enough => ?_⟩
    show first fuel >>= next fuel = _
    rw [constant fuel enough]
    exact settled fuel enough

/-- A reader gives a result together with the stream behind it. -/
theorem Answers.bindPair {α β : Type} {first : Nat → Except Stop (α × Stream)}
    {next : Nat → α × Stream → Except Stop β} {bound : Nat} (begun : Answers first bound)
    (later : ∀ fuel value stream, first fuel = .ok (value, stream) →
      Answers (fun fuel => next fuel (value, stream)) bound) :
    Answers (fun fuel => first fuel >>= next fuel) bound :=
  begun.bind fun fuel pair read => later fuel pair.1 pair.2 read

theorem literal_answers {α : Type} {token : Token} {literal : Except Stop α}
    (decides : Decides token literal) (bound : Nat) : Answers (fun _ => literal) bound := by
  rcases decides with ⟨value, rfl⟩ | ⟨fault, rfl⟩
  · exact .ok value bound
  · exact .refused _ bound

theorem assignTo_answers (target value : Expr) (bound : Nat) :
    Answers (fun _ => assignTo target value) bound := by
  cases target with
  | identifier line name => exact .ok _ bound
  | _ => exact .refused _ bound

end Answers

/-- **A reader answers on all streams with fewer tokens than a given number**, eight levels of
recursion for each of them. -/
def AnswersBelow {α : Type} (size : Nat) (reader : Nat → Stream → Except Stop α) : Prop :=
  ∀ stream : Stream, Scanned stream.results → stream.rest.length < size →
    Answers (fun fuel => reader fuel stream) (8 * size)

theorem AnswersBelow.of_consumes {α : Type} {reader : Nat → Stream → Except Stop α}
    {stream after : Stream} (below : AnswersBelow stream.rest.length reader)
    (scanned : Scanned stream.results) (consumed : Consumes stream after) :
    Answers (fun fuel => reader fuel after) (8 * stream.rest.length) :=
  below after (consumed.scanned scanned) consumed.length_lt

/-- **The readers of expressions answer** on all streams with fewer tokens. -/
structure ExpressionsAnswer (size : Nat) : Prop where
  expression : AnswersBelow size expression
  operation : ∀ level, AnswersBelow size fun fuel => operation fuel level
  operations : ∀ level left, AnswersBelow size fun fuel => operations fuel level left
  operand : AnswersBelow size operand
  arguments : AnswersBelow size arguments
  argumentsUntilClosed : AnswersBelow size argumentsUntilClosed

section ExpressionSteps

variable {stream : Stream} (below : ExpressionsAnswer stream.rest.length)
  (scanned : Scanned stream.results)
include below scanned

theorem primary_answers :
    Answers (fun fuel => primary fuel stream) (8 * stream.rest.length + 1) := by
  refine Answers.succ ?_ fun _ => rfl
  refine (Answers.orStop stream.advance _).bindPair fun _ token middle step => ?_
  replace step := eq_ok_of_orStop step
  by_cases ended : stream.current.kind = .endOfInput
  · obtain ⟨kind, lexeme, line⟩ := token
    obtain rfl : kind = .endOfInput := by
      rw [← ended, ← Stream.current_of_advance step]
    exact .refused _ _
  have front := advance_consumes scanned ended step
  obtain ⟨kind, lexeme, line⟩ := token
  cases kind with
  | number => exact (literal_answers (decides_orRefuse _ _ _) _).bind fun _ value _ => .ok _ _
  | text => exact (literal_answers (decides_orRefuse _ _ _) _).bind fun _ contents _ => .ok _ _
  | range kind =>
    exact (literal_answers (decides_rangeLiteral kind _) _).bind fun _ range _ => .ok _ _
  | identifier =>
    refine (Answers.orStop (middle.accept _) _).bind fun _ accepted opened => ?_
    cases accepted with
    | none => exact .ok _ _
    | some behind =>
      have list := front.trans
        (accept_consumes (front.scanned scanned) (by decide) (eq_ok_of_orStop opened))
      exact (below.arguments.of_consumes scanned list).bind fun _ _ _ => .ok _ _
  | symbol mark =>
    cases mark with
    | leftParen =>
      refine (below.expression.of_consumes scanned front).bindPair fun _ value behind _ => ?_
      exact (Answers.orStop (behind.expect _) _).bind fun _ _ _ => .ok _ _
    | _ => exact .refused _ _
  | keyword word =>
    cases word with
    | trueWord | falseWord => exact .ok _ _
    | _ => exact .refused _ _
  | endOfInput => exact .refused _ _

theorem operand_answers :
    Answers (fun fuel => operand fuel stream) (8 * stream.rest.length + 2) := by
  cases found : stream.current.kind.unaryOperator? with
  | none =>
    refine Answers.succ (primary_answers below scanned) fun fuel => ?_
    rw [operand, found]
  | some operator =>
    have inside : stream.current.kind ≠ .endOfInput := by
      intro ended
      rw [ended] at found
      cases found
    refine Answers.succ ?_ fun fuel => by rw [operand, found]
    refine (Answers.orStop stream.advance _).bindPair fun _ token middle step => ?_
    have front := advance_consumes scanned inside (eq_ok_of_orStop step)
    exact ((below.operand.of_consumes scanned front).mono (by omega)).bind fun _ _ _ => .ok _ _

theorem operations_answers (level : Nat) (left : Expr) :
    Answers (fun fuel => operations fuel level left stream) (8 * stream.rest.length + 1) := by
  cases found : operatorFrom? level stream with
  | none =>
    refine Answers.succ (.ok (left, stream) _) fun fuel => ?_
    rw [operations, found]
  | some operator =>
    refine Answers.succ ?_ fun fuel => by rw [operations, found]
    refine (Answers.orStop stream.advance _).bindPair fun _ mark middle step => ?_
    have front := advance_consumes scanned (kind_ne_of_operatorFrom? found) (eq_ok_of_orStop step)
    refine ((below.operation _).of_consumes scanned front).bindPair fun _ right behind read => ?_
    exact (below.operations level _).of_consumes scanned
      (front.trans (operation_consumes (front.scanned scanned) read))

theorem operation_answers (level : Nat) :
    Answers (fun fuel => operation fuel level stream) (8 * stream.rest.length + 3) := by
  refine Answers.succ ?_ fun _ => rfl
  refine (operand_answers below scanned).bindPair fun _ left middle read => ?_
  exact ((below.operations level left).of_consumes scanned
    (operand_consumes scanned read)).mono (by omega)

theorem expression_answers :
    Answers (fun fuel => expression fuel stream) (8 * stream.rest.length + 4) := by
  refine Answers.succ ?_ fun _ => rfl
  refine (operation_answers below scanned 0).bindPair fun _ target middle read => ?_
  have front := operation_consumes scanned read
  refine (Answers.orStop (middle.accept _) _).bind fun _ accepted step => ?_
  cases accepted with
  | none => exact .ok _ _
  | some behind =>
    have mark := front.trans
      (accept_consumes (front.scanned scanned) (by decide) (eq_ok_of_orStop step))
    refine ((below.expression.of_consumes scanned mark).mono (by omega)).bindPair
      fun _ value last _ => ?_
    exact (assignTo_answers target value _).bind fun _ _ _ => .ok _ _

theorem argumentsUntilClosed_answers :
    Answers (fun fuel => argumentsUntilClosed fuel stream) (8 * stream.rest.length + 5) := by
  refine Answers.succ ?_ fun _ => rfl
  refine (expression_answers below scanned).bindPair fun _ value middle read => ?_
  have front := expression_consumes scanned read
  refine (Answers.orStop (middle.accept _) _).bind fun _ accepted step => ?_
  cases accepted with
  | none => exact (Answers.orStop (middle.expect _) _).bind fun _ _ _ => .ok _ _
  | some behind =>
    have comma := front.trans
      (accept_consumes (front.scanned scanned) (by decide) (eq_ok_of_orStop step))
    exact ((below.argumentsUntilClosed.of_consumes scanned comma).mono (by omega)).bind
      fun _ _ _ => .ok _ _

theorem arguments_answers :
    Answers (fun fuel => arguments fuel stream) (8 * stream.rest.length + 6) := by
  refine Answers.succ ?_ fun _ => rfl
  refine (Answers.orStop (stream.accept _) _).bind fun _ accepted _ => ?_
  cases accepted with
  | none => exact argumentsUntilClosed_answers below scanned
  | some behind => exact .ok _ _

end ExpressionSteps

/-- **The readers of expressions answer**, by induction on the number of tokens. -/
theorem expressionsAnswer (size : Nat) : ExpressionsAnswer size := by
  induction size using Nat.strong_induction_on with
  | _ size hypothesis =>
    -- a stream with fewer tokens is read by the readers at its own number of tokens
    exact {
      expression := fun _ scanned less =>
        (expression_answers (hypothesis _ less) scanned).mono (by omega)
      operation := fun level _ scanned less =>
        (operation_answers (hypothesis _ less) scanned level).mono (by omega)
      operations := fun level left _ scanned less =>
        (operations_answers (hypothesis _ less) scanned level left).mono (by omega)
      operand := fun _ scanned less =>
        (operand_answers (hypothesis _ less) scanned).mono (by omega)
      arguments := fun _ scanned less =>
        (arguments_answers (hypothesis _ less) scanned).mono (by omega)
      argumentsUntilClosed := fun _ scanned less =>
        (argumentsUntilClosed_answers (hypothesis _ less) scanned).mono (by omega) }

/-! ### Names, ranges and statements -/

section Lists

variable {stream : Stream}

theorem identifier_answers (stream : Stream) (bound : Nat) :
    Answers (fun _ => identifier stream) bound :=
  (Answers.orStop (stream.expect .identifier) bound).bind fun _ _ _ => .ok _ _

theorem rangeToken_answers (stream : Stream) (bound : Nat) :
    Answers (fun _ => rangeToken stream) bound := by
  unfold rangeToken
  split
  · next kind _ =>
    refine (Answers.orStop stream.advance bound).bindPair fun _ token middle _ => ?_
    exact (literal_answers (decides_rangeLiteral kind token) bound).bind fun _ _ _ => .ok _ _
  · exact .refused _ _

theorem namesUntilClosed_answers (scanned : Scanned stream.results) :
    Answers (fun fuel => namesUntilClosed fuel stream) (8 * stream.rest.length + 1) := by
  induction size : stream.rest.length using Nat.strong_induction_on generalizing stream with
  | _ size hypothesis =>
    subst size
    refine Answers.succ ?_ fun _ => rfl
    refine (identifier_answers stream _).bindPair fun _ name middle read => ?_
    have front := identifier_consumes scanned read
    refine (Answers.orStop (middle.accept _) _).bind fun _ accepted step => ?_
    cases accepted with
    | none => exact (Answers.orStop (middle.expect _) _).bind fun _ _ _ => .ok _ _
    | some behind =>
      have comma := front.trans
        (accept_consumes (front.scanned scanned) (by decide) (eq_ok_of_orStop step))
      have less := comma.length_lt
      exact ((hypothesis _ less (comma.scanned scanned) rfl).mono (by omega)).bind
        fun _ _ _ => .ok _ _

theorem parameters_answers (scanned : Scanned stream.results) :
    Answers (fun fuel => parameters fuel stream) (8 * stream.rest.length + 1) := by
  refine (Answers.orStop (stream.accept _) _).bind fun _ accepted step => ?_
  cases accepted with
  | none => exact .ok _ _
  | some behind =>
    have opening := accept_consumes scanned (by decide) (eq_ok_of_orStop step)
    have less := opening.length_lt
    refine (Answers.orStop (behind.accept _) _).bind fun _ accepted _ => ?_
    cases accepted with
    | none => exact (namesUntilClosed_answers (opening.scanned scanned)).mono (by omega)
    | some last => exact .ok _ _

/-- Behind parameters there may be as many tokens as before, or fewer. -/
theorem Consumes.parameters {fuel : Nat} {front after : Stream} {names : List String}
    (consumed : Consumes stream front) (scanned : Scanned stream.results)
    (read : Parser.parameters fuel front = .ok (names, after)) : Consumes stream after := by
  obtain ⟨tokens, rfl, -⟩ := parameters_sound (consumed.scanned scanned) read
  exact consumed.prepend

/-- The same behind the statements of a block. -/
theorem Consumes.block {fuel : Nat} {ends : List Keyword} {front after : Stream}
    {trees : List Stmt} (consumed : Consumes stream front) (scanned : Scanned stream.results)
    (read : Parser.block fuel ends front = .ok (trees, after)) : Consumes stream after := by
  obtain ⟨tokens, rfl, -⟩ := (statementsSound fuel).block (consumed.scanned scanned) read
  exact consumed.prepend

end Lists

/-- **The readers of statements answer** on all streams with fewer tokens. -/
structure StatementsAnswer (size : Nat) : Prop where
  block : ∀ ends, AnswersBelow size fun fuel => block fuel ends
  closedBlock : AnswersBelow size closedBlock
  branches : AnswersBelow size branches
  otherBranches : AnswersBelow size otherBranches

section StatementSteps

variable {stream : Stream} (below : StatementsAnswer stream.rest.length)
  (scanned : Scanned stream.results)
include below scanned

theorem statement_answers :
    Answers (fun fuel => statement fuel stream) (8 * stream.rest.length + 5) := by
  have inner := expressionsAnswer stream.rest.length
  -- behind the word that opens a statement there are fewer tokens
  have behind : ∀ {word : Keyword} {token : Token} {middle : Stream},
      stream.current.kind = .keyword word → orStop stream.advance = .ok (token, middle) →
        Consumes stream middle := by
    intro word _ _ opened step
    exact advance_consumes scanned (by rw [opened]; rintro ⟨⟩) (eq_ok_of_orStop step)
  refine Answers.succ ?_ fun fuel => by rw [statement]
  dsimp only
  split
  · next opened =>
    refine (Answers.orStop stream.advance _).bindPair fun _ _ middle step => ?_
    have word := behind opened step
    exact ((inner.expression.of_consumes scanned word).mono (by omega)).bind
      fun _ _ _ => .ok _ _
  · next opened =>
    refine (Answers.orStop stream.advance _).bindPair fun _ _ middle step => ?_
    have word := behind opened step
    exact ((below.branches.of_consumes scanned word).mono (by omega)).bind
      fun _ _ _ => .ok _ _
  · next opened =>
    refine (Answers.orStop stream.advance _).bindPair fun _ _ middle step => ?_
    have word := behind opened step
    refine ((inner.expression.of_consumes scanned word).mono (by omega)).bindPair
      fun _ condition front tested => ?_
    have tail := word.trans (expression_consumes (word.scanned scanned) tested)
    exact ((below.closedBlock.of_consumes scanned tail).mono (by omega)).bind
      fun _ _ _ => .ok _ _
  · next opened =>
    refine (Answers.orStop stream.advance _).bindPair fun _ _ middle step => ?_
    have word := behind opened step
    refine (identifier_answers middle _).bindPair fun _ name front named => ?_
    have counter := word.trans (identifier_consumes (word.scanned scanned) named)
    refine (Answers.orStop (front.expect _) _).bindPair fun _ _ rest within => ?_
    have inWord := counter.trans
      (expect_consumes (counter.scanned scanned) (by decide) (eq_ok_of_orStop within))
    refine (rangeToken_answers rest _).bindPair fun _ iterand last ranged => ?_
    have tail := inWord.trans (rangeToken_consumes (inWord.scanned scanned) ranged)
    exact ((below.closedBlock.of_consumes scanned tail).mono (by omega)).bind
      fun _ _ _ => .ok _ _
  · next opened =>
    refine (Answers.orStop stream.advance _).bindPair fun _ _ middle step => ?_
    have word := behind opened step
    refine (identifier_answers middle _).bindPair fun _ name front named => ?_
    have title := word.trans (identifier_consumes (word.scanned scanned) named)
    have less := title.length_lt
    refine ((parameters_answers (title.scanned scanned)).mono (by omega)).bindPair
      fun _ names rest listed => ?_
    exact ((below.closedBlock.of_consumes scanned (title.parameters scanned listed)).mono
      (by omega)).bind fun _ _ _ => .ok _ _
  · exact (expression_answers inner scanned).bind fun _ _ _ => .ok _ _

theorem block_answers (ends : List Keyword) :
    Answers (fun fuel => block fuel ends stream) (8 * stream.rest.length + 6) := by
  refine Answers.succ ?_ fun fuel => by rw [block]
  split
  · exact .ok _ _
  · split
    · exact .refused _ _
    · refine (statement_answers below scanned).bindPair fun _ first middle read => ?_
      have front := statement_consumes scanned read
      exact (((below.block ends).of_consumes scanned front).mono (by omega)).bind
        fun _ _ _ => .ok _ _

theorem closedBlock_answers :
    Answers (fun fuel => closedBlock fuel stream) (8 * stream.rest.length + 7) := by
  refine Answers.succ ?_ fun _ => rfl
  refine (block_answers below scanned _).bindPair fun _ body middle _ => ?_
  exact (Answers.orStop (middle.expect _) _).bind fun _ _ _ => .ok _ _

theorem branches_answers :
    Answers (fun fuel => branches fuel stream) (8 * stream.rest.length + 5) := by
  refine Answers.succ ?_ fun _ => rfl
  refine (expression_answers (expressionsAnswer _) scanned).bindPair
    fun _ condition middle tested => ?_
  have front := expression_consumes scanned tested
  refine (((below.block _).of_consumes scanned front).mono (by omega)).bindPair
    fun _ body behind guarded => ?_
  exact ((below.otherBranches.of_consumes scanned (front.block scanned guarded)).mono
    (by omega)).bind fun _ _ _ => .ok _ _

theorem otherBranches_answers :
    Answers (fun fuel => otherBranches fuel stream) (8 * stream.rest.length + 1) := by
  refine Answers.succ ?_ fun _ => rfl
  refine (Answers.orStop (stream.accept _) _).bind fun _ accepted step => ?_
  cases accepted with
  | some middle =>
    exact below.branches.of_consumes scanned
      (accept_consumes scanned (by decide) (eq_ok_of_orStop step))
  | none =>
    refine (Answers.orStop (stream.accept _) _).bind fun _ accepted step => ?_
    cases accepted with
    | some middle =>
      have word := accept_consumes scanned (by decide) (eq_ok_of_orStop step)
      exact (below.closedBlock.of_consumes scanned word).bind fun _ _ _ => .ok _ _
    | none => exact (Answers.orStop (stream.expect _) _).bind fun _ _ _ => .ok _ _

end StatementSteps

/-- **The readers of statements answer**, by induction on the number of tokens. -/
theorem statementsAnswer (size : Nat) : StatementsAnswer size := by
  induction size using Nat.strong_induction_on with
  | _ size hypothesis =>
    exact {
      block := fun ends _ scanned less =>
        (block_answers (hypothesis _ less) scanned ends).mono (by omega)
      closedBlock := fun _ scanned less =>
        (closedBlock_answers (hypothesis _ less) scanned).mono (by omega)
      branches := fun _ scanned less =>
        (branches_answers (hypothesis _ less) scanned).mono (by omega)
      otherBranches := fun _ scanned less =>
        (otherBranches_answers (hypothesis _ less) scanned).mono (by omega) }

/-- **The statements of a stream have an answer**, whatever the tokens are. -/
theorem program_answers {stream : Stream} (scanned : Scanned stream.results) :
    Answers (fun fuel => program fuel stream) (8 * stream.rest.length + 6) := by
  induction size : stream.rest.length using Nat.strong_induction_on generalizing stream with
  | _ size hypothesis =>
    subst size
    refine Answers.succ ?_ fun fuel => by rw [program]
    split
    · exact .ok _ _
    · refine (statement_answers (statementsAnswer _) scanned).bindPair
        fun _ first middle read => ?_
      have front := statement_consumes scanned read
      have less := front.length_lt
      exact ((hypothesis _ less (front.scanned scanned) rfl).mono (by omega)).bind
        fun _ _ _ => .ok _ _

/-! ### Texts -/

/-- What a scan comes to from some place on is scanned, too. -/
theorem scanned_of_suffix {results rest : List ScanResult} (scanned : Scanned results)
    (suffix : rest <:+ results) (some : rest ≠ []) : Scanned rest := by
  induction scanned with
  | endOfInput line =>
    rcases List.suffix_cons_iff.mp suffix with rfl | none
    · exact .endOfInput line
    · exact absurd (List.suffix_nil.mp none) some
  | token spelled inside later hypothesis =>
    rcases List.suffix_cons_iff.mp suffix with rfl | behind
    · exact .token spelled inside later
    · exact hypothesis behind
  | fault later hypothesis =>
    rcases List.suffix_cons_iff.mp suffix with rfl | behind
    · exact .fault later
    · exact hypothesis behind

/-- **Parsing terminates and makes progress.** The bound that `parse` supplies is never used up:
with it and with every larger one the statements of a text come to the same answer, a program or an
error. At every place of the text a statement and an expression have an answer, too, and one that is
read has consumed at least one token; so has every completed pass of every loop, and a loop that
returns has gone through such passes only. All that although the end of the input can be taken again
and again. -/
theorem parse_progresses (source : String) :
    (∀ stream, Stream.ofSource source = .ok stream → ∀ fuel, budget stream ≤ fuel →
      program fuel stream = orStop (parse source)) ∧
    ∀ stream : Stream, stream.results <:+ scan source →
      Answers (fun fuel => statement fuel stream) (budget stream) ∧
      Answers (fun fuel => expression fuel stream) (budget stream) ∧
      (∀ fuel tree after, statement fuel stream = .ok (tree, after) → Consumes stream after) ∧
      (∀ fuel tree after, expression fuel stream = .ok (tree, after) → Consumes stream after) ∧
      (∀ loop next, Passes loop stream next → Consumes stream next) ∧
      LoopsPass stream ∧
      (stream.atEnd → stream.advance = .ok (stream.current, stream)) := by
  refine ⟨?_, ?_⟩
  · intro stream begun
    have scanned : Scanned stream.results := results_of_ofSource begun ▸ scan_scanned source
    have enough : 8 * stream.rest.length + 6 ≤ budget stream := by
      rw [budget]
      omega
    obtain ⟨answer, constant⟩ := (program_answers scanned).mono enough
    have read : program (budget stream) stream = orStop answer := constant _ (Nat.le_refl _)
    have parsed : parse source = answer := by
      simp only [parse, begun, bind, Except.bind, read]
      cases answer <;> rfl
    rw [parsed]
    exact constant
  · intro stream place
    have scanned := scanned_of_suffix (scan_scanned source) place (List.cons_ne_nil _ _)
    have enough : 8 * stream.rest.length + 5 ≤ budget stream := by
      rw [budget]
      omega
    refine ⟨(statement_answers (statementsAnswer _) scanned).mono enough,
      (expression_answers (expressionsAnswer _) scanned).mono (by omega),
      fun _ _ _ => statement_consumes scanned, fun _ _ _ => expression_consumes scanned,
      fun _ _ => Passes.consumes scanned, loopsPass stream, fun ended => ?_⟩
    have nothing : stream.rest = [] := by
      simpa [Stream.results] using Stream.results_of_atEnd scanned ended
    rw [Stream.advance, nothing]

/-- A statement is read, and behind it an expression is missing. -/
theorem parse_progresses_unclosed :
    ∃ stream tree after, Stream.ofSource "puts x\nputs (" = .ok stream ∧
      (∀ fuel, budget stream ≤ fuel →
        program fuel stream = .error (.refused ⟨2, .unexpectedEnd⟩)) ∧
      statement 9 stream = .ok (tree, after) ∧ Consumes stream after := by
  have scanned : scan "puts x\nputs (" =
      [.ok ⟨.keyword .putsWord, "puts", 1⟩, .ok ⟨.identifier, "x", 1⟩,
        .ok ⟨.keyword .putsWord, "puts", 2⟩, .ok ⟨.symbol .leftParen, "(", 2⟩,
        .ok (.endOfInput 2)] := by
    decide +kernel
  have begun : Stream.ofSource "puts x\nputs (" = .ok
      ⟨⟨.keyword .putsWord, "puts", 1⟩, [.ok ⟨.identifier, "x", 1⟩,
        .ok ⟨.keyword .putsWord, "puts", 2⟩, .ok ⟨.symbol .leftParen, "(", 2⟩,
        .ok (.endOfInput 2)]⟩ := by
    rw [Stream.ofSource, scanned]
    rfl
  have refused : parse "puts x\nputs (" = .error ⟨2, .unexpectedEnd⟩ := by
    rw [parse, begun]
    rfl
  obtain ⟨terminates, progresses⟩ := parse_progresses "puts x\nputs ("
  have place : Stream.results _ <:+ scan _ := ⟨[], (results_of_ofSource begun).symm⟩
  refine ⟨_, .print 1 (.identifier 1 "x"), _, begun, fun fuel enough => ?_, rfl, ?_⟩
  · rw [terminates _ begun fuel enough, refused]
    rfl
  · exact (progresses _ place).2.2.1 9 _ _ rfl

end Parser

end Scriptlet
