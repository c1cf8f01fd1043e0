/-
**A run one step at a time.**

The evaluator says where a run leads; it does not show the states in between. Here a run is a
sequence of states. A state has something in focus, a list of what waits for its value, and a
machine. A value in focus goes to the first that waits; an error drops it, and if that was a call,
the call is left just as after a value.

* `State.next`: the state after one step; a value or an error that nothing waits for is the end.
* `State.calls`: the number of calls that have been entered and not yet left.
* `State.Reaches`, `State.Lasts`: what steps lead to, and that there are at least so many of them.
* `State.Reaches.final_unique`: a run has at most one end.
-/

import Mathlib.Logic.Relation
import Scriptlet.Evaluation

namespace Scriptlet

/-- **What a run is about to do**, or the value or error it has come to. -/
inductive Focus where
  | evaluate (expression : Expr)
  | logical (line : Nat) (operator : BinaryOperator) (left right : Expr)
  | arguments (line : Nat) (definition : Definition) (values : List Value) (rest : List Expr)
  | call (line : Nat) (definition : Definition) (values : List Value)
  | execute (statement : Stmt)
  | block (statements : List Stmt) (last : Value)
  | branches (branches : List Branch)
  | whileLoop (condition : Expr) (body : List Stmt)
  | forLoop (line : Nat) (name : String) (index stop : Int) (body : List Stmt)
  | value (value : Value)
  | error (error : RuntimeError)

/-- **What waits for a value.** -/
inductive Waiting where
  | unary (line : Nat) (operator : UnaryOperator)
  | left (line : Nat) (operator : BinaryOperator) (right : Expr)
  | right (line : Nat) (operator : BinaryOperator) (left : Value)
  | logicalLeft (line : Nat) (operator : BinaryOperator) (right : Expr)
  | logicalRight (line : Nat) (operator : BinaryOperator) (left : Value)
  | argument (line : Nat) (definition : Definition) (values : List Value) (rest : List Expr)
  | assign (name : String)
  | print (line : Nat)
  | iterand (line : Nat) (name : String) (body : List Stmt)
  | statement (rest : List Stmt)
  | condition (line : Nat) (body : List Stmt) (others : List Branch)
  /-- What has no value of its own, whatever the focus has. -/
  | discard
  | whileCondition (condition : Expr) (body : List Stmt)
  | whileBody (condition : Expr) (body : List Stmt)
  | forBody (line : Nat) (name : String) (index stop : Int) (body : List Stmt)
  /-- A call, with the state of its caller. -/
  | call (caller : Machine)

/-- Whether a call waits for its body. -/
def Waiting.isCall : Waiting → Bool
  | call _ => true
  | _ => false

/-- The state of the machine when an error drops what waits. -/
def Waiting.dropped (machine : Machine) : Waiting → Machine
  | call caller => machine.leave caller
  | _ => machine

/-- **A state of a run.** -/
structure State where
  focus : Focus
  /-- What waits for the focus, the nearest first. -/
  waiting : List Waiting
  machine : Machine

namespace State

/-- The number of calls that have been entered and not yet left. -/
def callsOf (waiting : List Waiting) : Nat := waiting.countP Waiting.isCall

/-- **The number of active calls.** -/
def calls (state : State) : Nat := callsOf state.waiting

/-! ### One step -/

/-- Go on with a result, or stop with a fault on a line. -/
def settle {α : Type} (line : Nat) (result : Except RuntimeFault α) (waiting : List Waiting)
    (machine : Machine) (next : α → State) : State :=
  match result with
  | .ok value => next value
  | .error fault => ⟨.error ⟨line, fault⟩, waiting, machine⟩

/-- The first step of an expression. -/
def ofExpr (expression : Expr) (waiting : List Waiting) (machine : Machine) : State :=
  match expression with
  | .number _ value => ⟨.value (.number value), waiting, machine⟩
  | .text _ value => ⟨.value (.text value), waiting, machine⟩
  | .boolean _ value => ⟨.value (.boolean value), waiting, machine⟩
  | .range _ value => ⟨.value (.range value), waiting, machine⟩
  | .identifier line name =>
    settle line (machine.lookup name) waiting machine fun value => ⟨.value value, waiting, machine⟩
  | .unary line operator operand => ⟨.evaluate operand, .unary line operator :: waiting, machine⟩
  | .binary line operator left right =>
    if operator.isLogical then ⟨.logical line operator left right, waiting, machine⟩
    else ⟨.evaluate left, .left line operator right :: waiting, machine⟩
  | .call line name arguments =>
    settle line (machine.callee name arguments.length) waiting machine fun definition =>
      ⟨.arguments line definition [] arguments, waiting, machine⟩
  | .assign _ name value => ⟨.evaluate value, .assign name :: waiting, machine⟩

/-- The first step of a statement. -/
def ofStmt (statement : Stmt) (waiting : List Waiting) (machine : Machine) : State :=
  match statement with
  | .print line value => ⟨.evaluate value, .print line :: waiting, machine⟩
  | .conditional _ branches => ⟨.branches branches, waiting, machine⟩
  | .whileLoop _ condition body => ⟨.whileLoop condition body, waiting, machine⟩
  | .forLoop line name iterand body =>
    ⟨.evaluate iterand, .iterand line name body :: waiting, machine⟩
  | .define _ name parameters body =>
    ⟨.value .nil, waiting, machine.define ⟨name, parameters, body⟩⟩
  | .expression _ value => ⟨.evaluate value, waiting, machine⟩

/-- The first step of a call: its body in a frame of its own, unless too many calls are active. -/
def ofCall (line : Nat) (definition : Definition) (values : List Value) (waiting : List Waiting)
    (machine : Machine) : State :=
  if maximumDepth ≤ machine.depth then ⟨.error ⟨line, .tooDeep⟩, waiting, machine⟩
  else ⟨.block definition.body .nil, .call machine :: waiting, machine.enter definition values⟩

/-- The next pass of a loop over integers, or its end. -/
def ofPass (line : Nat) (name : String) (index stop : Int) (body : List Stmt)
    (waiting : List Waiting) (machine : Machine) : State :=
  if index < stop then
    settle line (passNumber index) waiting machine fun number =>
      ⟨.block body .nil, .forBody line name (index + 1) stop body :: waiting,
        machine.assign name (.number number)⟩
  else ⟨.value .nil, waiting, machine⟩

/-- A value has been printed, or the output was refused. -/
def ofPrint (line : Nat) (value : Value) (waiting : List Waiting) (machine : Machine) : State :=
  match machine.sink.writeLine value.printed with
  | (sink, none) => ⟨.value .nil, waiting, { machine with sink := sink }⟩
  | (sink, some refusal) => ⟨.error ⟨line, .output refusal⟩, waiting, { machine with sink := sink }⟩

/-- **The value of the focus goes to the first that waits for it.** -/
def resume (value : Value) (first : Waiting) (waiting : List Waiting) (machine : Machine) : State :=
  match first with
  | .unary line operator =>
    settle line (value.unary operator) waiting machine fun result =>
      ⟨.value result, waiting, machine⟩
  | .left line operator right => ⟨.evaluate right, .right line operator value :: waiting, machine⟩
  | .right line operator left =>
    settle line (left.binary operator value) waiting machine fun result =>
      ⟨.value result, waiting, machine⟩
  | .logicalLeft line operator right =>
    settle line value.truth waiting machine fun answer =>
      if operator.decides answer then ⟨.value (.boolean answer), waiting, machine⟩
      else ⟨.evaluate right, .logicalRight line operator value :: waiting, machine⟩
  | .logicalRight line operator left =>
    settle line (left.rightAnswer operator value) waiting machine fun result =>
      ⟨.value result, waiting, machine⟩
  | .argument line definition values rest =>
    ⟨.arguments line definition (values ++ [value]) rest, waiting, machine⟩
  | .assign name => ⟨.value value, waiting, machine.assign name value⟩
  | .print line => ofPrint line value waiting machine
  | .iterand line name body =>
    settle line value.iterable waiting machine fun range =>
      ⟨.forLoop line name range.first.toInt range.stop body, waiting, machine⟩
  | .statement rest => ⟨.block rest value, waiting, machine⟩
  | .condition line body others =>
    settle line value.truth waiting machine fun holds =>
      if holds then ⟨.block body .nil, .discard :: waiting, machine⟩
      else ⟨.branches others, waiting, machine⟩
  | .discard => ⟨.value .nil, waiting, machine⟩
  | .whileCondition condition body =>
    settle condition.line value.truth waiting machine fun holds =>
      if holds then ⟨.block body .nil, .whileBody condition body :: waiting, machine⟩
      else ⟨.value .nil, waiting, machine⟩
  | .whileBody condition body => ⟨.whileLoop condition body, waiting, machine⟩
  | .forBody line name index stop body => ⟨.forLoop line name index stop body, waiting, machine⟩
  | .call caller => ⟨.value value, waiting, machine.leave caller⟩

/-- **The state after one step**; none if the run has ended. -/
def next : State → Option State
  | ⟨.evaluate expression, waiting, machine⟩ => some (ofExpr expression waiting machine)
  | ⟨.logical line operator left right, waiting, machine⟩ =>
    some ⟨.evaluate left, .logicalLeft line operator right :: waiting, machine⟩
  | ⟨.arguments line definition values [], waiting, machine⟩ =>
    some ⟨.call line definition values, waiting, machine⟩
  | ⟨.arguments line definition values (first :: rest), waiting, machine⟩ =>
    some ⟨.evaluate first, .argument line definition values rest :: waiting, machine⟩
  | ⟨.call line definition values, waiting, machine⟩ =>
    some (ofCall line definition values waiting machine)
  | ⟨.execute statement, waiting, machine⟩ => some (ofStmt statement waiting machine)
  | ⟨.block [] last, waiting, machine⟩ => some ⟨.value last, waiting, machine⟩
  | ⟨.block (first :: rest) _, waiting, machine⟩ =>
    some ⟨.execute first, .statement rest :: waiting, machine⟩
  | ⟨.branches [], waiting, machine⟩ => some ⟨.value .nil, waiting, machine⟩
  | ⟨.branches (.guarded condition body :: rest), waiting, machine⟩ =>
    some ⟨.evaluate condition, .condition condition.line body rest :: waiting, machine⟩
  | ⟨.whileLoop condition body, waiting, machine⟩ =>
    some ⟨.evaluate condition, .whileCondition condition body :: waiting, machine⟩
  | ⟨.forLoop line name index stop body, waiting, machine⟩ =>
    some (ofPass line name index stop body waiting machine)
  | ⟨.value value, first :: waiting, machine⟩ => some (resume value first waiting machine)
  | ⟨.error error, first :: waiting, machine⟩ =>
    some ⟨.error error, waiting, first.dropped machine⟩
  | ⟨.value _, [], _⟩ => none
  | ⟨.error _, [], _⟩ => none

/-! ### Many steps -/

/-- One step as a relation. -/
abbrev Step (state after : State) : Prop := state.next = some after

/-- **Some number of steps.** -/
abbrev Reaches : State → State → Prop := Relation.ReflTransGen Step

/-- The run has ended. -/
def Final (state : State) : Prop := state.next = none

/-- **There are at least so many steps.** -/
def Lasts : Nat → State → Prop
  | 0, _ => True
  | count + 1, state => ∃ after, Step state after ∧ Lasts count after

theorem Lasts.pred {count : Nat} {state : State} (lasts : Lasts (count + 1) state) :
    Lasts count state := by
  induction count generalizing state with
  | zero => trivial
  | succ count hypothesis =>
    obtain ⟨after, step, later⟩ := lasts
    exact ⟨after, step, hypothesis later⟩

/-- What lasts from a later state on lasts from an earlier one on. -/
theorem Lasts.of_reaches {count : Nat} {state after : State} (reaches : Reaches state after)
    (lasts : Lasts count after) : Lasts count state := by
  induction reaches using Relation.ReflTransGen.head_induction_on with
  | refl => exact lasts
  | head step _ hypothesis => exact Lasts.pred ⟨_, step, hypothesis⟩

/-- A run that comes to its end does not last for ever. -/
theorem Reaches.exists_not_lasts {state after : State} (reaches : Reaches state after)
    (final : Final after) : ∃ count, ¬ Lasts count state := by
  induction reaches using Relation.ReflTransGen.head_induction_on with
  | refl =>
    refine ⟨1, ?_⟩
    rintro ⟨other, step, -⟩
    rw [Step, show after.next = none from final] at step
    cases step
  | @head state middle step _ hypothesis =>
    obtain ⟨count, short⟩ := hypothesis
    refine ⟨count + 1, ?_⟩
    rintro ⟨other, same, lasts⟩
    obtain rfl : middle = other := Option.some.inj (step.symm.trans same)
    exact short lasts

/-- **A run has at most one end.** -/
theorem Reaches.final_unique {state first second : State} (left : Reaches state first)
    (right : Reaches state second) (leftFinal : Final first) (rightFinal : Final second) :
    first = second := by
  induction left using Relation.ReflTransGen.head_induction_on with
  | refl =>
    rcases right.cases_head with same | ⟨middle, step, -⟩
    · exact same
    · exact absurd (leftFinal.symm.trans step) nofun
  | head step _ hypothesis =>
    rcases right.cases_head with rfl | ⟨middle, other, later⟩
    · exact absurd (rightFinal.symm.trans step) nofun
    · obtain rfl := Option.some.inj (step.symm.trans other)
      exact hypothesis later

end State

end Scriptlet
