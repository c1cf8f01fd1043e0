/-
**The evaluator and the steps agree.**

A function of the evaluator and the focus of the same name do the same thing: where the one comes
to a result, the other reaches that value with the same list waiting, and where the one fails, the
error arrives there with everything in between dropped. If the fuel is used up, there are at least
as many steps as there was fuel, so a run that ends has an answer with enough fuel.

* `Realizes`: steps lead where an outcome says.
* `Realizes.bind`: an outcome in two parts is realized part by part.
* `realizations`: **steps realize every function of the evaluator**, by induction on the fuel.
* `Action`: what an interpreter is asked for, as a state to begin with and as an outcome.
* `Action.ends_iff`: **steps end in a value or an error exactly if the evaluator gives it** with
  some fuel.
-/

import Scriptlet.Proofs.Stepping.State

namespace Scriptlet

open State

/-! ### Realized outcomes -/

section Outcomes

variable {α β : Type}

/-- **Steps lead where an outcome says**: to the state of its value, to its error in front of what
was waiting, or on for as many steps as there was fuel. -/
def Realizes (fuel : Nat) (waiting : List Waiting) (arrive : α → Machine → State) (start : State) :
    Outcome α → Prop
  | .done value machine => Reaches start (arrive value machine)
  | .failed error machine => Reaches start ⟨.error error, waiting, machine⟩
  | .exhausted => Lasts fuel start

/-- The state of a value in front of what waits for it. -/
abbrev valueAt (waiting : List Waiting) (value : Value) (machine : Machine) : State :=
  ⟨.value value, waiting, machine⟩

variable {fuel : Nat} {waiting inner : List Waiting} {arrive : β → Machine → State}
  {start after : State}

/-- What is realized from a later state is realized from an earlier one. -/
theorem Realizes.of_reaches {outcome : Outcome β} (reaches : Reaches start after)
    (later : Realizes fuel waiting arrive after outcome) :
    Realizes fuel waiting arrive start outcome := by
  match outcome, later with
  | .done value machine, later => exact reaches.trans later
  | .failed error machine, later => exact reaches.trans later
  | .exhausted, later => exact Lasts.of_reaches reaches later

/-- A step of its own pays for one unit of fuel. -/
theorem Realizes.step {outcome : Outcome β} (first : Step start after)
    (later : Realizes fuel waiting arrive after outcome) :
    Realizes (fuel + 1) waiting arrive start outcome := by
  match outcome, later with
  | .done value machine, later => exact later.head first
  | .failed error machine, later => exact later.head first
  | .exhausted, later => exact ⟨after, first, later⟩

/-- **An outcome in two parts**: an error of the first part drops what waits for it, and a value is
where the second part starts. -/
theorem Realizes.bind {outcome : Outcome α} {middle : α → Machine → State}
    {next : α → Machine → Outcome β} (first : Realizes fuel inner middle start outcome)
    (drops : ∀ error machine,
      Reaches ⟨.error error, inner, machine⟩ ⟨.error error, waiting, machine⟩)
    (later : ∀ value machine,
      Realizes fuel waiting arrive (middle value machine) (next value machine)) :
    Realizes fuel waiting arrive start (outcome.bind next) := by
  match outcome, first with
  | .done value machine, reaches => exact (later value machine).of_reaches reaches
  | .failed error machine, reaches => exact reaches.trans (drops error machine)
  | .exhausted, lasts => exact lasts

/-- What waits and is no call is dropped with the machine as it is. -/
theorem reaches_dropped {first : Waiting} (plain : first.isCall = false) (error : RuntimeError)
    (machine : Machine) :
    Reaches ⟨.error error, first :: waiting, machine⟩ ⟨.error error, waiting, machine⟩ := by
  refine .single ?_
  cases first with
  | call caller => cases plain
  | _ => rfl

/-- The first part is realized in front of something that waits for its value. -/
theorem Realizes.bindWaiting {outcome : Outcome Value} {first : Waiting}
    {next : Value → Machine → Outcome β} (plain : first.isCall = false)
    (begun : Realizes fuel (first :: waiting) (valueAt (first :: waiting)) start outcome)
    (later : ∀ value machine,
      Realizes fuel waiting arrive (resume value first waiting machine) (next value machine)) :
    Realizes fuel waiting arrive start (outcome.bind next) :=
  begun.bind (reaches_dropped plain) fun value machine =>
    (later value machine).of_reaches (.single rfl)

/-- A result or a fault, and what follows a result. -/
theorem Realizes.settle {line : Nat} {result : Except RuntimeFault α} {machine : Machine}
    {goOn : α → State} {next : α → Machine → Outcome β}
    (later : ∀ value, Realizes fuel waiting arrive (goOn value) (next value machine)) :
    Realizes fuel waiting arrive (State.settle line result waiting machine goOn)
      ((Outcome.ofResult line result machine).bind next) := by
  rcases result with fault | value
  · exact .refl
  · exact later value

theorem Realizes.settleValue {line : Nat} {result : Except RuntimeFault Value} {machine : Machine} :
    Realizes fuel waiting (valueAt waiting)
      (State.settle line result waiting machine fun value => ⟨.value value, waiting, machine⟩)
      (Outcome.ofResult line result machine) := by
  rcases result with fault | value
  · exact .refl
  · exact .refl

end Outcomes

/-! ### All functions of the evaluator -/

/-- **Steps realize every function of the evaluator**, up to a bound of the fuel. -/
structure Realizations (fuel : Nat) : Prop where
  evaluate : ∀ {expression machine waiting},
    Realizes fuel waiting (valueAt waiting) ⟨.evaluate expression, waiting, machine⟩
      (evaluate fuel expression machine)
  evaluateLogical : ∀ {line operator left right machine waiting},
    Realizes fuel waiting (valueAt waiting) ⟨.logical line operator left right, waiting, machine⟩
      (evaluateLogical fuel line operator left right machine)
  evaluateAll : ∀ {line definition values expressions machine waiting},
    Realizes fuel waiting
      (fun results after => ⟨.call line definition (values ++ results), waiting, after⟩)
      ⟨.arguments line definition values expressions, waiting, machine⟩
      (evaluateAll fuel expressions machine)
  call : ∀ {line definition values machine waiting},
    Realizes fuel waiting (valueAt waiting) ⟨.call line definition values, waiting, machine⟩
      (call fuel line definition values machine)
  execute : ∀ {statement machine waiting},
    Realizes fuel waiting (valueAt waiting) ⟨.execute statement, waiting, machine⟩
      (execute fuel statement machine)
  runBlock : ∀ {statements last machine waiting},
    Realizes fuel waiting (valueAt waiting) ⟨.block statements last, waiting, machine⟩
      (runBlock fuel statements last machine)
  runBranches : ∀ {branches machine waiting},
    Realizes fuel waiting (valueAt waiting) ⟨.branches branches, waiting, machine⟩
      (runBranches fuel branches machine)
  runWhile : ∀ {condition body machine waiting},
    Realizes fuel waiting (valueAt waiting) ⟨.whileLoop condition body, waiting, machine⟩
      (runWhile fuel condition body machine)
  runFor : ∀ {line name index stop body machine waiting},
    Realizes fuel waiting (valueAt waiting) ⟨.forLoop line name index stop body, waiting, machine⟩
      (runFor fuel line name index stop body machine)

section Steps

variable {fuel : Nat} {waiting : List Waiting} {machine : Machine}

theorem Realizations.zero : Realizations 0 := by
  constructor
  all_goals intros; exact trivial

variable (previous : Realizations fuel)
include previous

theorem Realizations.evaluate_succ {expression : Expr} :
    Realizes (fuel + 1) waiting (valueAt waiting) ⟨.evaluate expression, waiting, machine⟩
      (Scriptlet.evaluate (fuel + 1) expression machine) := by
  refine .step rfl ?_
  cases expression with
  | number | text | boolean | range => exact .refl
  | identifier line name => exact .settleValue
  | unary line operator operand =>
    exact previous.evaluate.bindWaiting rfl fun _ _ => .settleValue
  | binary line operator left right =>
    rw [Scriptlet.evaluate, ofExpr]
    split
    · exact previous.evaluateLogical
    · refine previous.evaluate.bindWaiting rfl fun leftValue _ => ?_
      exact previous.evaluate.bindWaiting rfl fun _ _ => .settleValue
  | call line name arguments =>
    refine .settle fun definition => ?_
    refine previous.evaluateAll.bind (fun _ _ => .refl) fun results after => ?_
    exact previous.call
  | assign line name value =>
    exact previous.evaluate.bindWaiting rfl fun _ _ => .refl

theorem Realizations.evaluateLogical_succ {line : Nat} {operator : BinaryOperator}
    {left right : Expr} :
    Realizes (fuel + 1) waiting (valueAt waiting)
      ⟨.logical line operator left right, waiting, machine⟩
      (Scriptlet.evaluateLogical (fuel + 1) line operator left right machine) := by
  refine .step rfl ?_
  refine previous.evaluate.bindWaiting rfl fun leftValue _ => ?_
  refine .settle fun answer => ?_
  split
  · exact .refl
  · exact previous.evaluate.bindWaiting rfl fun _ _ => .settleValue

theorem Realizations.evaluateAll_succ {line : Nat} {definition : Definition} {values : List Value}
    {expressions : List Expr} :
    Realizes (fuel + 1) waiting
      (fun results after => ⟨.call line definition (values ++ results), waiting, after⟩)
      ⟨.arguments line definition values expressions, waiting, machine⟩
      (Scriptlet.evaluateAll (fuel + 1) expressions machine) := by
  cases expressions with
  | nil =>
    show Reaches _ ⟨.call line definition (values ++ []), waiting, machine⟩
    rw [List.append_nil]
    exact .single rfl
  | cons first rest =>
    refine .step rfl ?_
    refine previous.evaluate.bindWaiting rfl fun value middle => ?_
    refine previous.evaluateAll.bind (fun _ _ => .refl) fun results after => ?_
    show Reaches _ ⟨.call line definition (values ++ value :: results), waiting, after⟩
    rw [← List.append_cons]

/-- A call is left when its body has come to a value or to an error. -/
theorem Realizations.call_succ {line : Nat} {definition : Definition} {values : List Value} :
    Realizes (fuel + 1) waiting (valueAt waiting) ⟨.call line definition values, waiting, machine⟩
      (Scriptlet.call (fuel + 1) line definition values machine) := by
  refine .step rfl ?_
  rw [Scriptlet.call, ofCall]
  by_cases deep : maximumDepth ≤ machine.depth
  · rw [if_pos deep, if_pos deep]
    exact .refl
  · rw [if_neg deep, if_neg deep]
    have body : Realizes fuel (.call machine :: waiting) (valueAt (.call machine :: waiting))
        ⟨.block definition.body .nil, .call machine :: waiting, machine.enter definition values⟩
        (Scriptlet.runBlock fuel definition.body .nil (machine.enter definition values)) :=
      previous.runBlock
    match Scriptlet.runBlock fuel definition.body .nil (machine.enter definition values), body with
    | .done value inner, reaches => exact reaches.tail rfl
    | .failed error inner, reaches => exact reaches.tail rfl
    | .exhausted, lasts => exact lasts

theorem Realizations.execute_succ {statement : Stmt} :
    Realizes (fuel + 1) waiting (valueAt waiting) ⟨.execute statement, waiting, machine⟩
      (Scriptlet.execute (fuel + 1) statement machine) := by
  refine .step rfl ?_
  match statement with
  | .print line value =>
    refine previous.evaluate.bindWaiting rfl fun result middle => ?_
    rw [resume, ofPrint, Machine.print]
    rcases middle.sink.writeLine result.printed with ⟨sink, _ | refusal⟩
    · exact .refl
    · exact .refl
  | .conditional _ branches => exact previous.runBranches
  | .whileLoop _ condition body => exact previous.runWhile
  | .forLoop line name iterand body =>
    refine previous.evaluate.bindWaiting rfl fun value middle => ?_
    exact .settle fun range => previous.runFor
  | .define _ name parameters body => exact .refl
  | .expression _ value => exact previous.evaluate

theorem Realizations.runBlock_succ {statements : List Stmt} {last : Value} :
    Realizes (fuel + 1) waiting (valueAt waiting) ⟨.block statements last, waiting, machine⟩
      (Scriptlet.runBlock (fuel + 1) statements last machine) := by
  cases statements with
  | nil => exact .single rfl
  | cons first rest =>
    exact .step rfl (previous.execute.bindWaiting rfl fun value _ => previous.runBlock)

theorem Realizations.runBranches_succ {branches : List Branch} :
    Realizes (fuel + 1) waiting (valueAt waiting) ⟨.branches branches, waiting, machine⟩
      (Scriptlet.runBranches (fuel + 1) branches machine) := by
  rcases branches with _ | ⟨⟨condition, body⟩, rest⟩
  · exact .single rfl
  · refine .step rfl ?_
    refine previous.evaluate.bindWaiting rfl fun value middle => ?_
    refine .settle fun taken => ?_
    split
    · exact previous.runBlock.bindWaiting rfl fun _ _ => .refl
    · exact previous.runBranches

theorem Realizations.runWhile_succ {condition : Expr} {body : List Stmt} :
    Realizes (fuel + 1) waiting (valueAt waiting) ⟨.whileLoop condition body, waiting, machine⟩
      (Scriptlet.runWhile (fuel + 1) condition body machine) := by
  refine .step rfl ?_
  refine previous.evaluate.bindWaiting rfl fun value middle => ?_
  refine .settle fun taken => ?_
  split
  · exact previous.runBlock.bindWaiting rfl fun _ _ => previous.runWhile
  · exact .refl

theorem Realizations.runFor_succ {line : Nat} {name : String} {index stop : Int}
    {body : List Stmt} :
    Realizes (fuel + 1) waiting (valueAt waiting)
      ⟨.forLoop line name index stop body, waiting, machine⟩
      (Scriptlet.runFor (fuel + 1) line name index stop body machine) := by
  refine .step rfl ?_
  rw [Scriptlet.runFor, ofPass]
  split
  · refine .settle fun number => ?_
    exact previous.runBlock.bindWaiting rfl fun _ _ => previous.runFor
  · exact .refl

end Steps

/-- **Steps realize every function of the evaluator**, whatever the fuel is. -/
theorem realizations : ∀ fuel, Realizations fuel
  | 0 => .zero
  | fuel + 1 =>
    have previous := realizations fuel
    { evaluate := previous.evaluate_succ
      evaluateLogical := previous.evaluateLogical_succ
      evaluateAll := previous.evaluateAll_succ
      call := previous.call_succ
      execute := previous.execute_succ
      runBlock := previous.runBlock_succ
      runBranches := previous.runBranches_succ
      runWhile := previous.runWhile_succ
      runFor := previous.runFor_succ }

/-! ### What an interpreter is asked for -/

/-- **What an interpreter is asked for.** -/
inductive Action where
  | interpret (program : Program)
  | execute (statement : Stmt)
  | evaluate (expression : Expr)
  | call (line : Nat) (definition : Definition) (values : List Value)

namespace Action

/-- The state that an action begins with; a program as a whole has no value. -/
def begin (machine : Machine) : Action → State
  | interpret program => ⟨.block program .nil, [.discard], machine⟩
  | execute statement => ⟨.execute statement, [], machine⟩
  | evaluate expression => ⟨.evaluate expression, [], machine⟩
  | call line definition values => ⟨.call line definition values, [], machine⟩

/-- The outcome of an action. -/
def run (fuel : Nat) (machine : Machine) : Action → Outcome Value
  | interpret program =>
    (Scriptlet.interpret fuel program machine).bind fun _ after => .done .nil after
  | execute statement => Scriptlet.execute fuel statement machine
  | evaluate expression => Scriptlet.evaluate fuel expression machine
  | call line definition values => Scriptlet.call fuel line definition values machine

theorem realizes (fuel : Nat) (machine : Machine) (action : Action) :
    Realizes fuel [] (valueAt []) (action.begin machine) (action.run fuel machine) := by
  have steps := realizations fuel
  match action with
  | interpret program =>
    have dropped : (interpret program).run fuel machine =
        (runBlock fuel program .nil machine).bind fun _ after => .done .nil after := by
      rw [run, Scriptlet.interpret]
      cases runBlock fuel program .nil machine <;> rfl
    rw [dropped]
    exact steps.runBlock.bindWaiting rfl fun _ _ => .refl
  | execute statement => exact steps.execute
  | evaluate expression => exact steps.evaluate
  | call line definition values => exact steps.call

end Action

/-- The end of a run that has a value or an error. -/
def Outcome.final : Outcome Value → Option State
  | done value machine => some ⟨.value value, [], machine⟩
  | failed error machine => some ⟨.error error, [], machine⟩
  | exhausted => none

namespace Action

variable {fuel : Nat} {machine : Machine} {action : Action} {after : State}

/-- Steps lead to the end that the evaluator gives. -/
theorem reaches_of_final (ended : (action.run fuel machine).final = some after) :
    Reaches (action.begin machine) after ∧ Final after := by
  have realized := action.realizes fuel machine
  match action.run fuel machine, realized, ended with
  | .done value last, reaches, rfl => exact ⟨reaches, rfl⟩
  | .failed error last, reaches, rfl => exact ⟨reaches, rfl⟩

/-- Without an end, there are as many steps as there was fuel. -/
theorem lasts_of_final (running : (action.run fuel machine).final = none) :
    Lasts fuel (action.begin machine) := by
  have realized := action.realizes fuel machine
  cases outcome : action.run fuel machine with
  | done value last => exact absurd (outcome ▸ running) (Option.some_ne_none _)
  | failed error last => exact absurd (outcome ▸ running) (Option.some_ne_none _)
  | exhausted =>
    rw [outcome] at realized
    exact realized

/-- **Steps end in a value or an error exactly if the evaluator gives it** with some fuel. -/
theorem ends_iff :
    Reaches (action.begin machine) after ∧ Final after ↔
      ∃ fuel, (action.run fuel machine).final = some after := by
  constructor
  · rintro ⟨reaches, final⟩
    obtain ⟨count, short⟩ := Reaches.exists_not_lasts reaches final
    refine ⟨count, ?_⟩
    cases ended : (action.run count machine).final with
    | none => exact absurd (lasts_of_final ended) short
    | some last =>
      obtain ⟨other, otherFinal⟩ := reaches_of_final ended
      rw [Reaches.final_unique other reaches otherFinal final]
  · rintro ⟨fuel, ended⟩
    exact reaches_of_final ended

/-- **An end does not depend on the fuel** that it was found with. -/
theorem final_of_final {more : Nat} {other : State}
    (ended : (action.run fuel machine).final = some after)
    (again : (action.run more machine).final = some other) : after = other := by
  obtain ⟨reaches, final⟩ := reaches_of_final ended
  obtain ⟨returns, last⟩ := reaches_of_final again
  exact Reaches.final_unique reaches returns final last

end Action

end Scriptlet
