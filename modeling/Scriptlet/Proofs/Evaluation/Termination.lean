/-
**Programs without `while` come to an end.**

A function is called with more active calls than its caller runs with, and there is a limit of
these; within one call the evaluator follows the text, and a loop over a range has finitely many
passes. So the fuel that a run needs is found by induction, first on the calls that are still
allowed, then on the text, then on the passes. The functions that are called come from the tables,
so these must hold functions without `while` only, which a run without `while` keeps.

* `Stmt.whileFree`, `WhileFree`: no `while` in a statement, in a function, at any depth.
* `Settles`: from some fuel on, a run has one and the same result or error.
* `Expr.settles`, `Stmt.settles`: what is written settles, if the calls do that it makes.
* `callsSettle`: **every call settles**, by induction on the calls still allowed.
* `whileFree_terminates`: **programs, statements and expressions without `while` terminate.**
-/

import Scriptlet.Proofs.Evaluation.Provenance
import Scriptlet.Proofs.Stepping.Depth

namespace Scriptlet

/-! ### Texts without `while` -/

mutual

/-- **No `while` in a statement**, at any depth and also in the functions it defines. -/
def Stmt.whileFree : Stmt → Bool
  | .print .. | .expression .. => true
  | .conditional _ branches => Branch.whileFreeAll branches
  | .whileLoop .. => false
  | .forLoop _ _ _ body => Stmt.whileFreeAll body
  | .define _ _ _ body => Stmt.whileFreeAll body

def Stmt.whileFreeAll : List Stmt → Bool
  | [] => true
  | first :: rest => first.whileFree && Stmt.whileFreeAll rest

def Branch.whileFreeAll : List Branch → Bool
  | [] => true
  | .guarded _ body :: rest => Stmt.whileFreeAll body && Branch.whileFreeAll rest

end

/-- No `while` in a function. -/
def WhileFree (definition : Definition) : Prop := Stmt.whileFreeAll definition.body

mutual

theorem Stmt.whileFree_definitions :
    ∀ statement : Stmt, statement.whileFree → ∀ inner ∈ statement.definitions, WhileFree inner
  | .print .., _, inner, member | .expression .., _, inner, member =>
    absurd member List.not_mem_nil
  | .conditional _ branches, free, inner, member =>
    Branch.whileFreeAll_definitions branches free inner member
  | .forLoop _ _ _ body, free, inner, member =>
    Stmt.whileFreeAll_definitions body free inner member
  | .define _ _ _ body, free, inner, member => by
    obtain rfl := List.mem_singleton.mp member
    exact free

theorem Stmt.whileFreeAll_definitions :
    ∀ statements : List Stmt, Stmt.whileFreeAll statements →
      ∀ inner ∈ Stmt.definitionsAll statements, WhileFree inner
  | [], _, inner, member => absurd member List.not_mem_nil
  | first :: rest, free, inner, member => by
    obtain ⟨here, later⟩ := Bool.and_eq_true_iff.mp free
    rcases List.mem_append.mp member with member | member
    · exact Stmt.whileFree_definitions first here inner member
    · exact Stmt.whileFreeAll_definitions rest later inner member

theorem Branch.whileFreeAll_definitions :
    ∀ branches : List Branch, Branch.whileFreeAll branches →
      ∀ inner ∈ Branch.definitionsAll branches, WhileFree inner
  | [], _, inner, member => absurd member List.not_mem_nil
  | .guarded _ body :: rest, free, inner, member => by
    obtain ⟨here, later⟩ := Bool.and_eq_true_iff.mp free
    rcases List.mem_append.mp member with member | member
    · exact Stmt.whileFreeAll_definitions body here inner member
    · exact Branch.whileFreeAll_definitions rest later inner member

end

/-- A run without `while` keeps all functions without `while`. -/
theorem whileFree_carries (fuel : Nat) : Carries WhileFree fuel :=
  carries (fun outer free => Stmt.whileFreeAll_definitions outer.body free) fuel

/-! ### Enough fuel -/

section Fuel

variable {α β : Type} {run after : Nat → Outcome α}

/-- **From some fuel on, a run has one and the same result or error.** -/
def Settles (run : Nat → Outcome α) : Prop :=
  ∃ fuel outcome, outcome ≠ .exhausted ∧ ∀ more, fuel ≤ more → run more = outcome

theorem Settles.done (value : α) (machine : Machine) : Settles fun _ => .done value machine :=
  ⟨0, .done value machine, nofun, fun _ _ => rfl⟩

theorem Settles.failed (error : RuntimeError) (machine : Machine) :
    Settles (α := α) fun _ => .failed error machine :=
  ⟨0, .failed error machine, nofun, fun _ _ => rfl⟩

theorem Settles.ofResult (line : Nat) (result : Except RuntimeFault α) (machine : Machine) :
    Settles fun _ => Outcome.ofResult line result machine := by
  rcases result with fault | value
  · exact .failed _ machine
  · exact .done value machine

theorem Settles.print (machine : Machine) (line : Nat) (value : Value) :
    Settles fun _ => machine.print line value := by
  unfold Machine.print
  split
  · exact .done () _
  · exact .failed _ _

/-- A run settles if it does with one unit of fuel taken off. -/
theorem Settles.succ (later : Settles after) (step : ∀ fuel, run (fuel + 1) = after fuel) :
    Settles run := by
  obtain ⟨fuel, outcome, ended, same⟩ := later
  refine ⟨fuel + 1, outcome, ended, fun more enough => ?_⟩
  obtain ⟨less, rfl⟩ : ∃ less, more = less + 1 := ⟨more - 1, by omega⟩
  rw [step, same less (by omega)]

/-- **A run in two parts settles part by part.** -/
theorem Settles.bind {good : α → Prop} {kept : Machine → Prop}
    {next : Nat → α → Machine → Outcome β} (first : Settles run)
    (yields : ∀ fuel, (run fuel).Yields good kept)
    (later : ∀ value machine, good value → kept machine →
      Settles fun fuel => next fuel value machine) :
    Settles fun fuel => (run fuel).bind (next fuel) := by
  obtain ⟨fuel, outcome, ended, same⟩ := first
  have facts : outcome.Yields good kept := same fuel (Nat.le_refl _) ▸ yields fuel
  match outcome, facts, same with
  | .done value machine, ⟨holds, held⟩, same =>
    obtain ⟨other, result, settled, constant⟩ := later value machine holds held
    refine ⟨max fuel other, result, settled, fun more enough => ?_⟩
    show (run more).bind (next more) = result
    rw [same more (by omega), Outcome.done_bind]
    exact constant more (by omega)
  | .failed error machine, _, same =>
    refine ⟨fuel, .failed error machine, nofun, fun more enough => ?_⟩
    show (run more).bind (next more) = _
    rw [same more enough, Outcome.failed_bind]
  | .exhausted, _, _ => exact absurd rfl ended

/-- A call settles when its body does. -/
theorem Settles.leave (body : Settles run) (caller : Machine) :
    Settles fun fuel => (run fuel).leave caller := by
  obtain ⟨fuel, outcome, ended, same⟩ := body
  refine ⟨fuel, outcome.leave caller, ?_, fun more enough => ?_⟩
  rotate_left
  · show (run more).leave caller = _
    rw [same more enough]
  match outcome, ended with
  | .done value machine, _ => nofun
  | .failed error machine, _ => nofun
  | .exhausted, ended => exact absurd rfl ended

end Fuel

/-! ### Machines without `while` -/

/-- All functions in sight are without `while`, and so many calls are active. -/
structure Ready (depth : Nat) (machine : Machine) : Prop where
  free : machine.Of WhileFree
  depth : machine.depth = depth

/-- What a run keeps and where it leads, together. -/
theorem Outcome.Yields.ready {α : Type} {good : α → Prop} {depth : Nat} {machine : Machine}
    {outcome : Outcome α} (yields : outcome.Yields good (Machine.Of WhileFree))
    (ends : outcome.Ends fun after => after.depth = machine.depth) (ready : Ready depth machine) :
    outcome.Yields good (Ready depth) := by
  match outcome, yields, ends with
  | .done value after, ⟨holds, held⟩, same => exact ⟨holds, held, same.trans ready.depth⟩
  | .failed error after, held, same => exact ⟨held, same.trans ready.depth⟩
  | .exhausted, _, _ => trivial

section Ready

variable {depth : Nat} {machine : Machine} (ready : Ready depth machine)
include ready

theorem Ready.evaluate (expression : Expr) (fuel : Nat) :
    (evaluate fuel expression machine).Yields (Value.Of WhileFree) (Ready depth) :=
  ((whileFree_carries fuel).evaluate ready.free).ready
    (evaluate_ends_depth fuel machine expression) ready

theorem Ready.evaluateAll (expressions : List Expr) (fuel : Nat) :
    (evaluateAll fuel expressions machine).Yields
      (fun values => ∀ value ∈ values, value.Of WhileFree) (Ready depth) :=
  ((whileFree_carries fuel).evaluateAll ready.free).ready
    (evaluateAll_ends_depth fuel machine expressions) ready

theorem Ready.execute {statement : Stmt} (free : statement.whileFree) (fuel : Nat) :
    (execute fuel statement machine).Yields (Value.Of WhileFree) (Ready depth) :=
  ((whileFree_carries fuel).execute (Stmt.whileFree_definitions statement free) ready.free).ready
    (execute_ends_depth fuel machine statement) ready

theorem Ready.runBlock {statements : List Stmt} (free : Stmt.whileFreeAll statements) (fuel : Nat) :
    (runBlock fuel statements .nil machine).Yields (Value.Of WhileFree) (Ready depth) :=
  ((whileFree_carries fuel).runBlock (Stmt.whileFreeAll_definitions statements free) .nil
    ready.free).ready (runBlock_ends_depth fuel machine statements .nil) ready

theorem Ready.ofResult {α : Type} (line : Nat) (result : Except RuntimeFault α) :
    (Outcome.ofResult line result machine).Yields (fun _ => True) (Ready depth) :=
  Outcome.yields_ofPlain ready

end Ready

/-! ### What is written settles -/

/-- Calls that are made with so many calls active settle. -/
def CallsSettle (depth : Nat) : Prop :=
  ∀ line definition arguments machine, WhileFree definition →
    (∀ value ∈ arguments, value.Of WhileFree) → Ready depth machine →
      Settles fun fuel => call fuel line definition arguments machine

section Written

variable {depth : Nat}

theorem settles_logical {left right : Expr}
    (leftSettles : ∀ machine, Ready depth machine →
      Settles fun fuel => evaluate fuel left machine)
    (rightSettles : ∀ machine, Ready depth machine →
      Settles fun fuel => evaluate fuel right machine)
    (line : Nat) (operator : BinaryOperator) {machine : Machine} (ready : Ready depth machine) :
    Settles fun fuel => evaluateLogical fuel line operator left right machine := by
  refine Settles.succ ?_ fun _ => rfl
  refine (leftSettles machine ready).bind (ready.evaluate left) fun leftValue middle _ inner => ?_
  refine (Settles.ofResult line leftValue.truth middle).bind (fun _ => inner.ofResult line _)
    fun answer after _ known => ?_
  split
  · exact .done _ after
  · refine (rightSettles after known).bind (known.evaluate right) fun rightValue last _ _ => ?_
    exact .ofResult line _ last

mutual

theorem Expr.settles (calls : CallsSettle depth) :
    ∀ (expression : Expr) (machine : Machine), Ready depth machine →
      Settles fun fuel => evaluate fuel expression machine
  | .number _ _, machine, _ | .text _ _, machine, _ | .boolean _ _, machine, _
  | .range _ _, machine, _ => Settles.succ (.done _ machine) fun _ => rfl
  | .identifier line name, machine, _ => Settles.succ (.ofResult line _ machine) fun _ => rfl
  | .unary line operator operand, machine, ready => by
    refine Settles.succ ?_ fun _ => rfl
    refine (operand.settles calls machine ready).bind (ready.evaluate operand)
      fun value after _ _ => ?_
    exact .ofResult line _ after
  | .binary line operator left right, machine, ready => by
    refine Settles.succ ?_ fun fuel => by rw [evaluate]
    split
    · exact settles_logical (left.settles calls) (right.settles calls) line operator ready
    · refine (left.settles calls machine ready).bind (ready.evaluate left)
        fun leftValue middle _ inner => ?_
      refine (right.settles calls middle inner).bind (inner.evaluate right)
        fun rightValue after _ _ => ?_
      exact .ofResult line _ after
  | .call line name arguments, machine, ready => by
    refine Settles.succ ?_ fun _ => rfl
    refine (Settles.ofResult line _ machine).bind
      (fun _ => Outcome.yields_ofResult (fun _ found => ready.free.callee found) ready)
      fun definition middle free known => ?_
    refine (Expr.settlesAll calls arguments middle known).bind (known.evaluateAll arguments)
      fun values after all inner => ?_
    exact calls line definition values after free all inner
  | .assign _ name value, machine, ready => by
    refine Settles.succ ?_ fun _ => rfl
    refine (value.settles calls machine ready).bind (ready.evaluate value)
      fun result after _ _ => ?_
    exact .done result _

theorem Expr.settlesAll (calls : CallsSettle depth) :
    ∀ (expressions : List Expr) (machine : Machine), Ready depth machine →
      Settles fun fuel => evaluateAll fuel expressions machine
  | [], machine, _ => Settles.succ (.done [] machine) fun _ => rfl
  | first :: rest, machine, ready => by
    refine Settles.succ ?_ fun _ => rfl
    refine (first.settles calls machine ready).bind (ready.evaluate first)
      fun value middle _ inner => ?_
    refine (Expr.settlesAll calls rest middle inner).bind (inner.evaluateAll rest)
      fun values after _ _ => ?_
    exact .done _ after

end

/-- A loop over integers settles if its body does: there are finitely many passes. -/
theorem settles_runFor {body : List Stmt} (free : Stmt.whileFreeAll body)
    (bodySettles : ∀ machine, Ready depth machine →
      Settles fun fuel => runBlock fuel body .nil machine)
    (line : Nat) (name : String) (stop : Int) (passes : Nat) {index : Int} {machine : Machine}
    (left : (stop - index).toNat ≤ passes) (ready : Ready depth machine) :
    Settles fun fuel => runFor fuel line name index stop body machine := by
  induction passes generalizing index machine with
  | zero =>
    have passed : ¬ index < stop := by omega
    refine Settles.succ (.done Value.nil machine) fun fuel => ?_
    rw [runFor, if_neg passed]
  | succ passes hypothesis =>
    refine Settles.succ ?_ fun fuel => by rw [runFor]
    split
    · next below =>
      refine (Settles.ofResult line _ machine).bind (fun _ => ready.ofResult line _)
        fun number middle _ known => ?_
      have begun : Ready depth (middle.assign name (.number number)) :=
        ⟨known.free.assign name trivial, known.depth⟩
      refine (bodySettles _ begun).bind (begun.runBlock free) fun _ after _ inner => ?_
      exact hypothesis (by omega) inner
    · exact .done Value.nil machine

mutual

theorem Stmt.settles (calls : CallsSettle depth) :
    ∀ (statement : Stmt) (machine : Machine), statement.whileFree → Ready depth machine →
      Settles fun fuel => execute fuel statement machine
  | .print line value, machine, _, ready => by
    refine Settles.succ ?_ fun _ => rfl
    refine (value.settles calls machine ready).bind (ready.evaluate value)
      fun result middle _ inner => ?_
    have printed : Settles fun _ => middle.print line result := .print middle line result
    exact printed.bind (fun _ => inner.free.print line result)
      fun _ after _ _ => .done Value.nil after
  | .conditional _ branches, machine, free, ready =>
    Settles.succ (Branch.settlesAll calls branches machine free ready) fun _ => rfl
  | .forLoop line name iterand body, machine, free, ready => by
    refine Settles.succ ?_ fun _ => rfl
    refine (iterand.settles calls machine ready).bind (ready.evaluate iterand)
      fun value middle _ inner => ?_
    refine (Settles.ofResult line _ middle).bind (fun _ => inner.ofResult line _)
      fun range after _ known => ?_
    exact settles_runFor free (fun machine => Stmt.settlesAll calls body .nil machine free)
      line name range.stop _ (Nat.le_refl _) known
  | .define _ name parameters body, machine, _, _ =>
    Settles.succ (.done Value.nil (machine.define ⟨name, parameters, body⟩)) fun _ => rfl
  | .expression _ value, machine, _, ready =>
    Settles.succ (value.settles calls machine ready) fun _ => rfl

theorem Stmt.settlesAll (calls : CallsSettle depth) :
    ∀ (statements : List Stmt) (last : Value) (machine : Machine), Stmt.whileFreeAll statements →
      Ready depth machine → Settles fun fuel => runBlock fuel statements last machine
  | [], last, machine, _, _ => Settles.succ (.done last machine) fun _ => rfl
  | first :: rest, _, machine, free, ready => by
    obtain ⟨here, later⟩ := Bool.and_eq_true_iff.mp free
    refine Settles.succ ?_ fun _ => rfl
    exact (first.settles calls machine here ready).bind (ready.execute here)
      fun value after _ inner => Stmt.settlesAll calls rest value after later inner

theorem Branch.settlesAll (calls : CallsSettle depth) :
    ∀ (branches : List Branch) (machine : Machine), Branch.whileFreeAll branches →
      Ready depth machine → Settles fun fuel => runBranches fuel branches machine
  | [], machine, _, _ => Settles.succ (.done Value.nil machine) fun _ => rfl
  | .guarded condition body :: rest, machine, free, ready => by
    obtain ⟨here, later⟩ := Bool.and_eq_true_iff.mp free
    refine Settles.succ ?_ fun _ => rfl
    refine (condition.settles calls machine ready).bind (ready.evaluate condition)
      fun value middle _ inner => ?_
    refine (Settles.ofResult condition.line _ middle).bind (fun _ => inner.ofResult _ _)
      fun taken after _ known => ?_
    split
    · refine (Stmt.settlesAll calls body .nil after here known).bind (known.runBlock here)
        fun _ last _ _ => ?_
      exact .done Value.nil last
    · exact Branch.settlesAll calls rest after later known

end

end Written

/-! ### Calls settle -/

/-- **Every call settles**: its body runs with fewer calls left to make. -/
theorem callsSettle (depth : Nat) : CallsSettle depth := by
  -- On the calls still allowed; the text of a body says nothing about the bodies that it calls.
  induction left : maximumDepth - depth generalizing depth with
  | zero =>
    intro line definition arguments machine _ _ ready
    have deep : maximumDepth ≤ machine.depth := by
      rw [ready.depth]
      omega
    refine Settles.succ (.failed ⟨line, .tooDeep⟩ machine) fun fuel => ?_
    rw [call, if_pos deep]
  | succ remaining hypothesis =>
    intro line definition arguments machine free all ready
    have shallow : ¬ maximumDepth ≤ machine.depth := by
      rw [ready.depth]
      omega
    have entered : Ready (depth + 1) (machine.enter definition arguments) :=
      ⟨Scope.Of.frame ready.free definition.parameters all, congrArg (· + 1) ready.depth⟩
    have body := Stmt.settlesAll (hypothesis (depth + 1) (by omega)) definition.body .nil _ free
      entered
    refine Settles.succ (body.leave machine) fun fuel => ?_
    rw [call, if_neg shallow]

/-- **Programs without `while` terminate**, whatever they call and however they nest their loops:
from some fuel on, a fresh interpreter comes to the same result or error. So do expressions and
statements without `while` at every depth, in every scope whose functions are without `while`. -/
theorem whileFree_terminates :
    (∀ program sink, Stmt.whileFreeAll program →
      Settles fun fuel => interpret fuel program (.start sink)) ∧
    ∀ machine, machine.Of WhileFree →
      (∀ expression, Settles fun fuel => evaluate fuel expression machine) ∧
      ∀ statement, statement.whileFree → Settles fun fuel => execute fuel statement machine := by
  refine ⟨?_, ?_⟩
  · intro program sink free
    have ready : Ready 0 (.start sink) := ⟨Scope.of_empty, rfl⟩
    have block := Stmt.settlesAll (callsSettle 0) program .nil (.start sink) free ready
    exact block.bind (ready.runBlock free) fun _ after _ _ => .done () after
  · intro machine held
    have ready : Ready machine.depth machine := ⟨held, rfl⟩
    refine ⟨?_, ?_⟩
    · intro expression
      exact expression.settles (callsSettle machine.depth) machine ready
    · intro statement free
      exact statement.settles (callsSettle machine.depth) machine free ready

/-- A function that calls itself in every pass of a loop, and a call of it. -/
def runawayLoop : Program :=
  [.define 1 "f" [] [.forLoop 2 "i" (.range 2 ⟨.exclusive, 0, 2⟩)
    [.expression 3 (.call 3 "f" [])]], .expression 6 (.call 6 "f" [])]

/-- Even a function that calls itself without an end comes to one, with an error. -/
theorem whileFree_terminates_runaway :
    Stmt.whileFreeAll runawayLoop ∧
      Settles fun fuel => interpret fuel runawayLoop (.start .unlimited) :=
  ⟨rfl, whileFree_terminates.1 runawayLoop .unlimited rfl⟩

end Scriptlet
