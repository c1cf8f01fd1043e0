/-
**More fuel never changes an answer.**

Fuel bounds the depth of the recursion and has no other influence. So an outcome that is a result or
an error stays the same with one unit more, and then with any number of units more.

* `Outcome.Kept`: the second outcome is the first one, unless that is no answer.
* `Outcome.Kept.bind`: an outcome in two parts is kept part by part.
* `steady`: **every function of the evaluator keeps its answers with one unit more**, by induction
  on the fuel.
* `execute_mono`, `runBlock_mono`, `evaluate_mono`, `runFor_mono`: statements, expressions and loops
  keep their answers with any larger fuel.
-/

import Scriptlet.Evaluation

namespace Scriptlet

namespace Outcome

variable {α β : Type}

/-- **An answer is kept**: the second outcome is the first one, unless that is no answer. -/
def Kept (first second : Outcome α) : Prop := first = .exhausted ∨ second = first

theorem Kept.refl (outcome : Outcome α) : outcome.Kept outcome := .inr rfl

theorem Kept.trans {first second third : Outcome α} (early : first.Kept second)
    (late : second.Kept third) : first.Kept third := by
  rcases early with none | rfl
  · exact .inl none
  · exact late

theorem Kept.bind {first second : Outcome α} {next changed : α → Machine → Outcome β}
    (kept : first.Kept second) (later : ∀ value machine, (next value machine).Kept
      (changed value machine)) : (first.bind next).Kept (second.bind changed) := by
  rcases kept with rfl | rfl
  · exact .inl rfl
  · cases second with
    | done value machine => exact later value machine
    | failed error machine => exact .refl _
    | exhausted => exact .refl _

theorem Kept.leave {first second : Outcome α} (kept : first.Kept second) (caller : Machine) :
    (first.leave caller).Kept (second.leave caller) := by
  rcases kept with rfl | rfl
  · exact .inl rfl
  · exact .refl _

end Outcome

open Outcome

/-! ### All functions of the evaluator -/

/-- **Every function of the evaluator keeps its answers** with one unit of fuel more. -/
structure Steady (fuel : Nat) : Prop where
  evaluate : ∀ {expression machine},
    (evaluate fuel expression machine).Kept (evaluate (fuel + 1) expression machine)
  evaluateLogical : ∀ {line operator left right machine},
    (evaluateLogical fuel line operator left right machine).Kept
      (evaluateLogical (fuel + 1) line operator left right machine)
  evaluateAll : ∀ {expressions machine},
    (evaluateAll fuel expressions machine).Kept (evaluateAll (fuel + 1) expressions machine)
  call : ∀ {line definition arguments machine},
    (call fuel line definition arguments machine).Kept
      (call (fuel + 1) line definition arguments machine)
  execute : ∀ {statement machine},
    (execute fuel statement machine).Kept (execute (fuel + 1) statement machine)
  runBlock : ∀ {statements last machine},
    (runBlock fuel statements last machine).Kept (runBlock (fuel + 1) statements last machine)
  runBranches : ∀ {branches machine},
    (runBranches fuel branches machine).Kept (runBranches (fuel + 1) branches machine)
  runWhile : ∀ {condition body machine},
    (runWhile fuel condition body machine).Kept (runWhile (fuel + 1) condition body machine)
  runFor : ∀ {line name index stop body machine},
    (runFor fuel line name index stop body machine).Kept
      (runFor (fuel + 1) line name index stop body machine)

section Steps

variable {fuel : Nat} {machine : Machine}

theorem Steady.zero : Steady 0 := by
  constructor
  all_goals intros; exact .inl rfl

variable (previous : Steady fuel)
include previous

theorem Steady.evaluate_succ {expression : Expr} :
    (Scriptlet.evaluate (fuel + 1) expression machine).Kept
      (Scriptlet.evaluate (fuel + 2) expression machine) := by
  cases expression with
  | number | text | boolean | range | identifier => exact .refl _
  | unary => exact previous.evaluate.bind fun _ _ => .refl _
  | binary line operator left right =>
    rw [Scriptlet.evaluate, Scriptlet.evaluate]
    by_cases logical : operator.isLogical
    · rw [if_pos logical, if_pos logical]
      exact previous.evaluateLogical
    · rw [if_neg logical, if_neg logical]
      exact previous.evaluate.bind fun _ _ => previous.evaluate.bind fun _ _ => .refl _
  | call =>
    refine Kept.bind (.refl _) fun definition _ => ?_
    exact previous.evaluateAll.bind fun _ _ => previous.call
  | assign => exact previous.evaluate.bind fun _ _ => .refl _

theorem Steady.evaluateLogical_succ {line : Nat} {operator : BinaryOperator} {left right : Expr} :
    (Scriptlet.evaluateLogical (fuel + 1) line operator left right machine).Kept
      (Scriptlet.evaluateLogical (fuel + 2) line operator left right machine) := by
  refine previous.evaluate.bind fun leftValue _ => ?_
  refine Kept.bind (.refl _) fun answer _ => ?_
  split
  · exact .refl _
  · exact previous.evaluate.bind fun _ _ => .refl _

theorem Steady.evaluateAll_succ {expressions : List Expr} :
    (Scriptlet.evaluateAll (fuel + 1) expressions machine).Kept
      (Scriptlet.evaluateAll (fuel + 2) expressions machine) := by
  cases expressions with
  | nil => exact .refl _
  | cons first rest =>
    exact previous.evaluate.bind fun _ _ => previous.evaluateAll.bind fun _ _ => .refl _

theorem Steady.call_succ {line : Nat} {definition : Definition} {arguments : List Value} :
    (Scriptlet.call (fuel + 1) line definition arguments machine).Kept
      (Scriptlet.call (fuel + 2) line definition arguments machine) := by
  unfold Scriptlet.call
  by_cases deep : maximumDepth ≤ machine.depth
  · rw [if_pos deep, if_pos deep]
    exact .refl _
  · rw [if_neg deep, if_neg deep]
    exact previous.runBlock.leave machine

theorem Steady.execute_succ {statement : Stmt} :
    (Scriptlet.execute (fuel + 1) statement machine).Kept
      (Scriptlet.execute (fuel + 2) statement machine) := by
  cases statement with
  | print => exact previous.evaluate.bind fun _ _ => .refl _
  | conditional => exact previous.runBranches
  | whileLoop => exact previous.runWhile
  | forLoop =>
    refine previous.evaluate.bind fun value _ => ?_
    exact Kept.bind (.refl _) fun range _ => previous.runFor
  | define => exact .refl _
  | expression => exact previous.evaluate

theorem Steady.runBlock_succ {statements : List Stmt} {last : Value} :
    (Scriptlet.runBlock (fuel + 1) statements last machine).Kept
      (Scriptlet.runBlock (fuel + 2) statements last machine) := by
  cases statements with
  | nil => exact .refl _
  | cons first rest => exact previous.execute.bind fun _ _ => previous.runBlock

theorem Steady.runBranches_succ {branches : List Branch} :
    (Scriptlet.runBranches (fuel + 1) branches machine).Kept
      (Scriptlet.runBranches (fuel + 2) branches machine) := by
  rcases branches with _ | ⟨⟨condition, body⟩, rest⟩
  · exact .refl _
  · refine previous.evaluate.bind fun value _ => ?_
    refine Kept.bind (.refl _) fun taken _ => ?_
    split
    · exact previous.runBlock.bind fun _ _ => .refl _
    · exact previous.runBranches

theorem Steady.runWhile_succ {condition : Expr} {body : List Stmt} :
    (Scriptlet.runWhile (fuel + 1) condition body machine).Kept
      (Scriptlet.runWhile (fuel + 2) condition body machine) := by
  refine previous.evaluate.bind fun value _ => ?_
  refine Kept.bind (.refl _) fun taken _ => ?_
  split
  · exact previous.runBlock.bind fun _ _ => previous.runWhile
  · exact .refl _

theorem Steady.runFor_succ {line : Nat} {name : String} {index stop : Int} {body : List Stmt} :
    (Scriptlet.runFor (fuel + 1) line name index stop body machine).Kept
      (Scriptlet.runFor (fuel + 2) line name index stop body machine) := by
  unfold Scriptlet.runFor
  by_cases inside : index < stop
  · rw [if_pos inside, if_pos inside]
    refine Kept.bind (.refl _) fun number _ => ?_
    exact previous.runBlock.bind fun _ _ => previous.runFor
  · rw [if_neg inside, if_neg inside]
    exact .refl _

end Steps

/-- **Every function of the evaluator keeps its answers**, whatever the fuel is. -/
theorem steady : ∀ fuel, Steady fuel
  | 0 => .zero
  | fuel + 1 =>
    have previous := steady fuel
    { evaluate := previous.evaluate_succ
      evaluateLogical := previous.evaluateLogical_succ
      evaluateAll := previous.evaluateAll_succ
      call := previous.call_succ
      execute := previous.execute_succ
      runBlock := previous.runBlock_succ
      runBranches := previous.runBranches_succ
      runWhile := previous.runWhile_succ
      runFor := previous.runFor_succ }

/-! ### Any larger fuel -/

/-- What one unit more keeps, any number of units more keeps. -/
theorem Outcome.kept_of_le {α : Type} {run : Nat → Outcome α}
    (step : ∀ fuel, (run fuel).Kept (run (fuel + 1))) {fuel more : Nat} (enough : fuel ≤ more) :
    (run fuel).Kept (run more) := by
  induction enough with
  | refl => exact .refl _
  | step _ hypothesis => exact hypothesis.trans (step _)

/-- **A statement keeps its answer** with any larger fuel. -/
theorem execute_mono {fuel more : Nat} (enough : fuel ≤ more) (statement : Stmt)
    (machine : Machine) :
    (execute fuel statement machine).Kept (execute more statement machine) :=
  Outcome.kept_of_le (fun fuel => (steady fuel).execute) enough

theorem runBlock_mono {fuel more : Nat} (enough : fuel ≤ more) (statements : List Stmt)
    (last : Value) (machine : Machine) :
    (runBlock fuel statements last machine).Kept (runBlock more statements last machine) :=
  Outcome.kept_of_le (fun fuel => (steady fuel).runBlock) enough

theorem evaluate_mono {fuel more : Nat} (enough : fuel ≤ more) (expression : Expr)
    (machine : Machine) :
    (evaluate fuel expression machine).Kept (evaluate more expression machine) :=
  Outcome.kept_of_le (fun fuel => (steady fuel).evaluate) enough

theorem runFor_mono {fuel more : Nat} (enough : fuel ≤ more) {line : Nat} {name : String}
    {index stop : Int} {body : List Stmt} {machine : Machine} :
    (runFor fuel line name index stop body machine).Kept
      (runFor more line name index stop body machine) :=
  Outcome.kept_of_le (fun fuel => (steady fuel).runFor) enough

end Scriptlet
