/-
**Properties that a run keeps.**

A run changes the scope it runs in only by storing values under names that are written in its own
text; a call ends with the scope of its caller. So a property that depends on the scope alone, and
that storing under the written names keeps, holds at the end of every run that it held at the
beginning of, result or error.

* `Expr.targets`, `Stmt.targets`: the names that a tree stores under, outside of function bodies.
* `Outcome.Ends`: a property of the state that an outcome leaves.
* `Stable`: the properties that a run keeps.
* `preserves`: **every function of the evaluator keeps every stable property**, by induction on the
  fuel.
-/

import Scriptlet.Evaluation

namespace Scriptlet

/-! ### Written names -/

mutual

/-- **The names that an expression stores under.** -/
def Expr.targets : Expr → List String
  | .number .. | .text .. | .boolean .. | .range .. | .identifier .. => []
  | .unary _ _ operand => operand.targets
  | .binary _ _ left right => left.targets ++ right.targets
  | .call _ _ arguments => Expr.targetsAll arguments
  | .assign _ name value => name :: value.targets

def Expr.targetsAll : List Expr → List String
  | [] => []
  | first :: rest => first.targets ++ Expr.targetsAll rest

end

mutual

/-- **The names that a statement stores under**; the body of a function is not run with it. -/
def Stmt.targets : Stmt → List String
  | .print _ value => value.targets
  | .conditional _ branches => Branch.targetsAll branches
  | .whileLoop _ condition body => condition.targets ++ Stmt.targetsAll body
  | .forLoop _ name iterand body => name :: iterand.targets ++ Stmt.targetsAll body
  | .define _ name _ _ => [name]
  | .expression _ value => value.targets

def Stmt.targetsAll : List Stmt → List String
  | [] => []
  | first :: rest => first.targets ++ Stmt.targetsAll rest

def Branch.targetsAll : List Branch → List String
  | [] => []
  | .guarded condition body :: rest =>
    condition.targets ++ Stmt.targetsAll body ++ Branch.targetsAll rest

end

/-! ### Ends of a run -/

namespace Outcome

variable {α β : Type} {property : Machine → Prop}

/-- **The state that an outcome leaves has a property**, after a result and after an error. -/
def Ends (property : Machine → Prop) : Outcome α → Prop
  | done _ machine | failed _ machine => property machine
  | exhausted => True

theorem Ends.bind {outcome : Outcome α} {next : α → Machine → Outcome β}
    (first : outcome.Ends property)
    (later : ∀ value machine, property machine → (next value machine).Ends property) :
    (outcome.bind next).Ends property := by
  match outcome, first with
  | done value machine, holds => exact later value machine holds
  | failed error machine, holds => exact holds
  | exhausted, _ => trivial

theorem ends_ofResult {machine : Machine} (holds : property machine) (line : Nat)
    (result : Except RuntimeFault α) : (ofResult line result machine).Ends property := by
  rcases result with fault | value
  · exact holds
  · exact holds

theorem Ends.imp {stronger : Machine → Prop} {outcome : Outcome α}
    (ends : outcome.Ends stronger) (weaker : ∀ machine, stronger machine → property machine) :
    outcome.Ends property := by
  match outcome, ends with
  | done value machine, holds => exact weaker machine holds
  | failed error machine, holds => exact weaker machine holds
  | exhausted, _ => trivial

end Outcome

/-- **A property that a run keeps**: storing under the given names keeps it, and only the scope
matters to it. -/
structure Stable (names : List String) (property : Machine → Prop) : Prop where
  assign : ∀ {machine : Machine} {name : String} (value : Value), name ∈ names →
    property machine → property (machine.assign name value)
  scope : ∀ {machine other : Machine}, property machine → other.scope = machine.scope →
    property other

namespace Stable

variable {names : List String} {property : Machine → Prop}

/-- The output does not matter. -/
theorem print (stable : Stable names property) {machine : Machine} (holds : property machine)
    (line : Nat) (value : Value) : (machine.print line value).Ends property := by
  have written : ∀ sink, property { machine with sink := sink } := fun _ => stable.scope holds rfl
  unfold Machine.print
  split
  · exact written _
  · exact written _

/-- The identities of functions do not matter. -/
theorem define (stable : Stable names property) {machine : Machine} {definition : Definition}
    (target : definition.name ∈ names) (holds : property machine) :
    property (machine.define definition) :=
  stable.assign _ target (stable.scope holds rfl)

end Stable

/-! ### All functions of the evaluator -/

/-- **Every function of the evaluator keeps a stable property**, up to a bound of the fuel. -/
structure Preserves (names : List String) (property : Machine → Prop) (fuel : Nat) : Prop where
  evaluate : ∀ {expression machine}, expression.targets ⊆ names → property machine →
    (evaluate fuel expression machine).Ends property
  evaluateLogical : ∀ {line operator left right machine}, left.targets ⊆ names →
    right.targets ⊆ names → property machine →
    (evaluateLogical fuel line operator left right machine).Ends property
  evaluateAll : ∀ {expressions machine}, Expr.targetsAll expressions ⊆ names → property machine →
    (evaluateAll fuel expressions machine).Ends property
  call : ∀ {line definition arguments machine}, property machine →
    (call fuel line definition arguments machine).Ends property
  execute : ∀ {statement machine}, statement.targets ⊆ names → property machine →
    (execute fuel statement machine).Ends property
  runBlock : ∀ {statements last machine}, Stmt.targetsAll statements ⊆ names → property machine →
    (runBlock fuel statements last machine).Ends property
  runBranches : ∀ {branches machine}, Branch.targetsAll branches ⊆ names → property machine →
    (runBranches fuel branches machine).Ends property
  runWhile : ∀ {condition body machine}, condition.targets ⊆ names →
    Stmt.targetsAll body ⊆ names → property machine →
    (runWhile fuel condition body machine).Ends property
  runFor : ∀ {line name index stop body machine}, name ∈ names →
    Stmt.targetsAll body ⊆ names → property machine →
    (runFor fuel line name index stop body machine).Ends property

section Steps

variable {names : List String} {property : Machine → Prop} {fuel : Nat}

theorem Preserves.zero : Preserves names property 0 := by
  constructor
  all_goals intros; exact trivial

/-- A call ends in the scope of its caller, whatever its body does. -/
theorem Stable.call (stable : Stable names property) {line : Nat} {definition : Definition}
    {arguments : List Value} {machine : Machine} (holds : property machine) :
    (Scriptlet.call (fuel + 1) line definition arguments machine).Ends property := by
  rw [Scriptlet.call]
  by_cases deep : maximumDepth ≤ machine.depth
  · rw [if_pos deep]
    exact holds
  · rw [if_neg deep]
    match Scriptlet.runBlock fuel definition.body .nil (machine.enter definition arguments) with
    | .done value inner => exact stable.scope holds rfl
    | .failed error inner => exact stable.scope holds rfl
    | .exhausted => trivial

theorem Preserves.evaluate_succ (previous : Preserves names property fuel)
    (stable : Stable names property) {expression : Expr} {machine : Machine}
    (targets : expression.targets ⊆ names) (holds : property machine) :
    (Scriptlet.evaluate (fuel + 1) expression machine).Ends property := by
  match expression with
  | .number _ _ | .text _ _ | .boolean _ _ | .range _ _ => exact holds
  | .identifier line name => exact Outcome.ends_ofResult holds line _
  | .unary line operator operand =>
    have inside : operand.targets ⊆ names := targets
    exact (previous.evaluate inside holds).bind fun value _ inner =>
      Outcome.ends_ofResult inner line _
  | .binary line operator left right =>
    obtain ⟨leftTargets, rightTargets⟩ := List.append_subset.mp targets
    rw [Scriptlet.evaluate]
    split
    · exact previous.evaluateLogical leftTargets rightTargets holds
    · refine (previous.evaluate leftTargets holds).bind fun leftValue _ inner => ?_
      refine (previous.evaluate rightTargets inner).bind fun rightValue _ innermost => ?_
      exact Outcome.ends_ofResult innermost line _
  | .call line name arguments =>
    refine (Outcome.ends_ofResult holds line _).bind fun definition _ known => ?_
    refine (previous.evaluateAll targets known).bind fun values _ inner => ?_
    exact previous.call inner
  | .assign line name value =>
    obtain ⟨target, inside⟩ := List.cons_subset.mp targets
    exact (previous.evaluate inside holds).bind fun result _ inner =>
      stable.assign result target inner

theorem Preserves.evaluateLogical_succ (previous : Preserves names property fuel) {line : Nat}
    {operator : BinaryOperator} {left right : Expr} {machine : Machine}
    (leftTargets : left.targets ⊆ names) (rightTargets : right.targets ⊆ names)
    (holds : property machine) :
    (Scriptlet.evaluateLogical (fuel + 1) line operator left right machine).Ends property := by
  rw [Scriptlet.evaluateLogical]
  refine (previous.evaluate leftTargets holds).bind fun leftValue _ inner => ?_
  refine (Outcome.ends_ofResult inner line _).bind fun answer middle known => ?_
  split
  · exact known
  · exact (previous.evaluate rightTargets known).bind fun rightValue _ innermost =>
      Outcome.ends_ofResult innermost line _

theorem Preserves.evaluateAll_succ (previous : Preserves names property fuel)
    {expressions : List Expr} {machine : Machine}
    (targets : Expr.targetsAll expressions ⊆ names) (holds : property machine) :
    (Scriptlet.evaluateAll (fuel + 1) expressions machine).Ends property := by
  match expressions with
  | [] => exact holds
  | first :: rest =>
    obtain ⟨firstTargets, restTargets⟩ := List.append_subset.mp targets
    refine (previous.evaluate firstTargets holds).bind fun value _ inner => ?_
    exact (previous.evaluateAll restTargets inner).bind fun values _ innermost => innermost

theorem Preserves.execute_succ (previous : Preserves names property fuel)
    (stable : Stable names property) {statement : Stmt} {machine : Machine}
    (targets : statement.targets ⊆ names) (holds : property machine) :
    (Scriptlet.execute (fuel + 1) statement machine).Ends property := by
  match statement with
  | .print line value =>
    have inside : value.targets ⊆ names := targets
    refine (previous.evaluate inside holds).bind fun result _ inner => ?_
    exact (stable.print inner line result).bind fun _ _ innermost => innermost
  | .conditional _ branches => exact previous.runBranches targets holds
  | .whileLoop _ condition body =>
    obtain ⟨conditionTargets, bodyTargets⟩ := List.append_subset.mp targets
    exact previous.runWhile conditionTargets bodyTargets holds
  | .forLoop line name iterand body =>
    obtain ⟨front, bodyTargets⟩ := List.append_subset.mp targets
    obtain ⟨target, iterandTargets⟩ := List.cons_subset.mp front
    refine (previous.evaluate iterandTargets holds).bind fun value _ inner => ?_
    refine (Outcome.ends_ofResult inner line _).bind fun range _ known => ?_
    exact previous.runFor target bodyTargets known
  | .define _ name parameters body => exact stable.define (targets List.mem_cons_self) holds
  | .expression _ value => exact previous.evaluate targets holds

theorem Preserves.runBlock_succ (previous : Preserves names property fuel)
    {statements : List Stmt} {last : Value} {machine : Machine}
    (targets : Stmt.targetsAll statements ⊆ names) (holds : property machine) :
    (Scriptlet.runBlock (fuel + 1) statements last machine).Ends property := by
  match statements with
  | [] => exact holds
  | first :: rest =>
    obtain ⟨firstTargets, restTargets⟩ := List.append_subset.mp targets
    exact (previous.execute firstTargets holds).bind fun value _ inner =>
      previous.runBlock restTargets inner

theorem Preserves.runBranches_succ (previous : Preserves names property fuel)
    {branches : List Branch} {machine : Machine}
    (targets : Branch.targetsAll branches ⊆ names) (holds : property machine) :
    (Scriptlet.runBranches (fuel + 1) branches machine).Ends property := by
  match branches with
  | [] => exact holds
  | .guarded condition body :: rest =>
    obtain ⟨front, restTargets⟩ := List.append_subset.mp targets
    obtain ⟨conditionTargets, bodyTargets⟩ := List.append_subset.mp front
    refine (previous.evaluate conditionTargets holds).bind fun value _ inner => ?_
    refine (Outcome.ends_ofResult inner condition.line _).bind fun taken _ known => ?_
    split
    · exact (previous.runBlock bodyTargets known).bind fun _ _ innermost => innermost
    · exact previous.runBranches restTargets known

theorem Preserves.runWhile_succ (previous : Preserves names property fuel) {condition : Expr}
    {body : List Stmt} {machine : Machine} (conditionTargets : condition.targets ⊆ names)
    (bodyTargets : Stmt.targetsAll body ⊆ names) (holds : property machine) :
    (Scriptlet.runWhile (fuel + 1) condition body machine).Ends property := by
  refine (previous.evaluate conditionTargets holds).bind fun value _ inner => ?_
  refine (Outcome.ends_ofResult inner condition.line _).bind fun taken _ known => ?_
  split
  · exact (previous.runBlock bodyTargets known).bind fun _ _ innermost =>
      previous.runWhile conditionTargets bodyTargets innermost
  · exact known

theorem Preserves.runFor_succ (previous : Preserves names property fuel)
    (stable : Stable names property) {line : Nat} {name : String} {index stop : Int}
    {body : List Stmt} {machine : Machine} (target : name ∈ names)
    (bodyTargets : Stmt.targetsAll body ⊆ names) (holds : property machine) :
    (Scriptlet.runFor (fuel + 1) line name index stop body machine).Ends property := by
  rw [Scriptlet.runFor]
  split
  · refine (Outcome.ends_ofResult holds line _).bind fun number _ known => ?_
    refine (previous.runBlock bodyTargets (stable.assign _ target known)).bind fun _ _ inner => ?_
    exact previous.runFor target bodyTargets inner
  · exact holds

/-- **Every function of the evaluator keeps every stable property**, whatever the fuel is. -/
theorem preserves (stable : Stable names property) : ∀ fuel, Preserves names property fuel
  | 0 => .zero
  | fuel + 1 => by
    have previous := preserves stable fuel
    exact {
      evaluate := previous.evaluate_succ stable
      evaluateLogical := previous.evaluateLogical_succ
      evaluateAll := previous.evaluateAll_succ
      call := stable.call
      execute := previous.execute_succ stable
      runBlock := previous.runBlock_succ
      runBranches := previous.runBranches_succ
      runWhile := previous.runWhile_succ
      runFor := previous.runFor_succ stable }

end Steps

end Scriptlet
