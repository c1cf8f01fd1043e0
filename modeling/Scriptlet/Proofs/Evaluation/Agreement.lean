/-
**Two runs of one text in states that agree.**

The evaluator reaches a scope through three doors: it looks names up that are written in its text,
it stores under such names, and it hands the root to the functions it calls. So two states that
agree on the names of a text, and on the whole root, lead it the same way, and it stores the same
values in both; they still agree in the end. Frames of calls agree on every name, whatever the
callers see. The second run may be of the same text with other lines.

* `Expr.names`, `Stmt.names`: the names written in a text, outside of function bodies.
* `Scope.Agree`, `Machine.Agree`: agreement of two states, up to a change of lines.
* `Outcome.Matches`, `Outcome.Follows`: outcomes of two runs that went the same way.
* `simulates`: **every function of the evaluator goes the same way in agreeing states**, by
  induction on the fuel.
-/

import Scriptlet.Proofs.Evaluation.Lines

namespace Scriptlet

/-! ### Written names -/

mutual

/-- **The names written in an expression**: read, called or stored under. -/
def Expr.names : Expr → List String
  | .number .. | .text .. | .boolean .. | .range .. => []
  | .identifier _ name => [name]
  | .unary _ _ operand => operand.names
  | .binary _ _ left right => left.names ++ right.names
  | .call _ name arguments => name :: Expr.namesAll arguments
  | .assign _ name value => name :: value.names

def Expr.namesAll : List Expr → List String
  | [] => []
  | first :: rest => first.names ++ Expr.namesAll rest

end

mutual

/-- **The names written in a statement**; of a function only its own name. -/
def Stmt.names : Stmt → List String
  | .print _ value => value.names
  | .conditional _ branches => Branch.namesAll branches
  | .whileLoop _ condition body => condition.names ++ Stmt.namesAll body
  | .forLoop _ name iterand body => name :: iterand.names ++ Stmt.namesAll body
  | .define _ name _ _ => [name]
  | .expression _ value => value.names

def Stmt.namesAll : List Stmt → List String
  | [] => []
  | first :: rest => first.names ++ Stmt.namesAll rest

def Branch.namesAll : List Branch → List String
  | [] => []
  | .guarded condition body :: rest =>
    condition.names ++ Stmt.namesAll body ++ Branch.namesAll rest

end

/-! ### Scopes -/

namespace Scope

variable {change : Nat → Nat} {seen held : String → Prop} {first second : Scope Value}

/-- **Two scopes agree**, up to a change of lines: the names that are seen stand for the same, the
names that are held have the same value in the innermost table, and the roots are the same. -/
structure Agree (change : Nat → Nat) (seen held : String → Prop) (first second : Scope Value) :
    Prop where
  get? : ∀ name, seen name → second.get? name = (first.get? name).map (Value.mapLines change)
  table : ∀ name, held name →
    second.table.get? name = (first.table.get? name).map (Value.mapLines change)
  root : ∀ name, second.root.get? name = (first.root.get? name).map (Value.mapLines change)
  outermost : second.enclosing = [] ↔ first.enclosing = []

/-- **The same value under the same name keeps two scopes in agreement.** -/
theorem Agree.insert (agree : Agree change seen held first second) (name : String) (value : Value) :
    Agree change seen held (first.insert name value)
      (second.insert name (value.mapLines change)) := by
  refine ⟨?_, ?_, ?_, agree.outermost⟩
  · intro other visible
    rw [get?_insert, get?_insert, agree.get? other visible]
    split <;> rfl
  · intro other known
    show (second.table.insert name _).get? other =
      ((first.table.insert name value).get? other).map _
    rw [Table.get?_insert, Table.get?_insert, agree.table other known]
    split <;> rfl
  · intro other
    rw [get?_root_insert, get?_root_insert, agree.root other]
    simp only [agree.outermost]
    split <;> rfl

theorem Agree.insertAll (agree : Agree change seen held first second) (names : List String)
    (values : List Value) :
    Agree change seen held (first.insertAll names values)
      (second.insertAll names (values.map (Value.mapLines change))) := by
  induction names generalizing first second values with
  | nil => exact agree
  | cons name names hypothesis =>
    cases values with
    | nil => exact agree
    | cons value values => exact hypothesis (agree.insert name value) values

/-- **Frames of calls agree on every name**, whatever their callers see. -/
theorem agree_frame
    (root : ∀ name, second.root.get? name = (first.root.get? name).map (Value.mapLines change))
    (parameters : List String) (arguments : List Value) :
    Agree change (fun _ => True) (fun _ => True) (first.frame parameters arguments)
      (second.frame parameters (arguments.map (Value.mapLines change))) := by
  have bare : Agree change (fun _ => True) (fun _ => True) ⟨.empty, [first.root]⟩
      ⟨.empty, [second.root]⟩ := by
    refine ⟨?_, ?_, root, by simp⟩
    · intro name _
      simp only [get?, getFrom?, Table.get?_empty, root name]
      cases first.root.get? name <;> rfl
    · intro name _
      simp only [Table.get?_empty, Option.map_none]
  exact bare.insertAll parameters arguments

end Scope

/-! ### Outcomes -/

namespace Outcome

variable {α β : Type}

/-- **Two runs went the same way**: both to a result, both to an error or both out of fuel. -/
inductive Matches (values : α → α → Prop) (errors : RuntimeError → RuntimeError → Prop)
    (states : Machine → Machine → Prop) : Outcome α → Outcome α → Prop where
  | done {value other : α} {machine after : Machine} : values value other → states machine after →
    Matches values errors states (.done value machine) (.done other after)
  | failed {error other : RuntimeError} {machine after : Machine} : errors error other →
    states machine after →
    Matches values errors states (.failed error machine) (.failed other after)
  | exhausted : Matches values errors states .exhausted .exhausted

theorem Matches.imp {values weaker : α → α → Prop}
    {errors looser : RuntimeError → RuntimeError → Prop}
    {states broader : Machine → Machine → Prop} {first second : Outcome α}
    (matched : first.Matches values errors states second)
    (value : ∀ {one two}, values one two → weaker one two)
    (error : ∀ {one two}, errors one two → looser one two)
    (state : ∀ {one two}, states one two → broader one two) :
    first.Matches weaker looser broader second := by
  cases matched with
  | done same related => exact .done (value same) (state related)
  | failed same related => exact .failed (error same) (state related)
  | exhausted => exact .exhausted

/-- The second of two runs is the first one with all lines changed. -/
abbrev Follows (change : Nat → Nat) (translate : α → α) (states : Machine → Machine → Prop) :
    Outcome α → Outcome α → Prop :=
  Matches (fun value other => other = translate value)
    (fun error other => other = error.mapLines change) states

variable {change : Nat → Nat} {translate : α → α} {finish : β → β}
  {states : Machine → Machine → Prop} {machine after : Machine}

/-- **Runs in two parts go the same way part by part.** -/
theorem Matches.bind {first second : Outcome α} {next changed : α → Machine → Outcome β}
    (same : first.Follows change translate states second)
    (later : ∀ value machine after, states machine after →
      (next value machine).Follows change finish states (changed (translate value) after)) :
    (first.bind next).Follows change finish states (second.bind changed) := by
  cases same with
  | done equal related =>
    subst equal
    exact later _ _ _ related
  | failed equal related => exact .failed equal related
  | exhausted => exact .exhausted

theorem follows_ofResult (related : states machine after) (line : Nat)
    (result : Except RuntimeFault α) :
    (ofResult line result machine).Follows change translate states
      (ofResult (change line) (result.map translate) after) := by
  rcases result with fault | value
  · exact .failed rfl related
  · exact .done rfl related

/-- A result without lines is the same in both runs. -/
theorem follows_ofPlain (related : states machine after) (line : Nat)
    (result : Except RuntimeFault α) :
    (ofResult line result machine).Follows change id states
      (ofResult (change line) result after) := by
  rcases result with fault | value
  · exact .failed rfl related
  · exact .done rfl related

end Outcome

/-! ### Machines -/

namespace Machine

variable {change : Nat → Nat} {seen held : String → Prop} {first second : Machine}

/-- **Two machines agree**: their scopes do, and all else is the same. -/
structure Agree (change : Nat → Nat) (seen held : String → Prop) (first second : Machine) :
    Prop where
  scope : Scope.Agree change seen held first.scope second.scope
  depth : second.depth = first.depth
  sink : second.sink = first.sink
  fresh : second.fresh = first.fresh

theorem Agree.lookup (agree : Agree change seen held first second) {name : String}
    (visible : seen name) :
    second.lookup name = (first.lookup name).map (Value.mapLines change) := by
  unfold Machine.lookup
  rw [agree.scope.get? name visible]
  cases first.scope.get? name <;> rfl

/-- A called name stands for the same function in both machines. -/
theorem Agree.callee (agree : Agree change seen held first second) {name : String}
    (visible : seen name) (given : Nat) :
    second.callee name given = (first.callee name given).map (Definition.mapLines change) := by
  unfold Machine.callee
  rw [agree.lookup visible]
  rcases first.lookup name with fault | value
  · rfl
  · cases value with
    | function identity definition =>
      show (if given = definition.parameters.length then Except.ok (definition.mapLines change)
        else _) = Except.map _ (if given = definition.parameters.length then _ else _)
      split <;> rfl
    | _ => rfl

theorem Agree.assign (agree : Agree change seen held first second) (name : String) (value : Value) :
    Agree change seen held (first.assign name value)
      (second.assign name (value.mapLines change)) :=
  ⟨agree.scope.insert name value, agree.depth, agree.sink, agree.fresh⟩

/-- A new function has the same identity in both machines. -/
theorem Agree.define (agree : Agree change seen held first second) (definition : Definition) :
    Agree change seen held (first.define definition)
      (second.define (definition.mapLines change)) := by
  have stored := agree.scope.insert definition.name (.function first.fresh definition)
  refine ⟨?_, agree.depth, agree.sink, congrArg (· + 1) agree.fresh⟩
  show Scope.Agree change seen held _ (second.scope.insert _ (.function second.fresh _))
  rw [agree.fresh]
  exact stored

theorem Agree.print (agree : Agree change seen held first second) (line : Nat) (value : Value) :
    (first.print line value).Follows change id (Agree change seen held)
      (second.print (change line) (value.mapLines change)) := by
  unfold Machine.print
  rw [Value.printed_mapLines, agree.sink]
  split
  · exact .done rfl ⟨agree.scope, agree.depth, rfl, agree.fresh⟩
  · exact .failed rfl ⟨agree.scope, agree.depth, rfl, agree.fresh⟩

/-- The bodies of called functions run in machines that agree on every name. -/
theorem Agree.enter (agree : Agree change seen held first second) (definition : Definition)
    (arguments : List Value) :
    Agree change (fun _ => True) (fun _ => True) (first.enter definition arguments)
      (second.enter (definition.mapLines change) (arguments.map (Value.mapLines change))) :=
  ⟨Scope.agree_frame agree.scope.root _ _, congrArg (· + 1) agree.depth, agree.sink, agree.fresh⟩

/-- When calls have ended the same way, the callers agree as before. -/
theorem Agree.leave {all : String → Prop} {translate : Value → Value} {inner other : Outcome Value}
    (agree : Agree change seen held first second)
    (ended : inner.Follows change translate (Agree change all all) other) :
    (inner.leave first).Follows change translate (Agree change seen held) (other.leave second) := by
  have caller : ∀ {machine after : Machine}, Agree change all all machine after →
      Agree change seen held (machine.leave first) (after.leave second) := fun related =>
    ⟨agree.scope, congrArg (· - 1) related.depth, related.sink, related.fresh⟩
  cases ended with
  | done same related => exact .done same (caller related)
  | failed same related => exact .failed same (caller related)
  | exhausted => exact .exhausted

end Machine

/-! ### All functions of the evaluator -/

/-- **Every function of the evaluator goes the same way in agreeing states**, up to a bound of the
fuel. -/
structure Simulates (change : Nat → Nat) (fuel : Nat) : Prop where
  evaluate : ∀ {seen held : String → Prop} {expression : Expr} {first second : Machine},
    (∀ name ∈ expression.names, seen name) → first.Agree change seen held second →
    (evaluate fuel expression first).Follows change (Value.mapLines change)
      (Machine.Agree change seen held) (evaluate fuel (expression.mapLines change) second)
  evaluateLogical : ∀ {seen held : String → Prop} {line : Nat} {operator : BinaryOperator}
    {left right : Expr} {first second : Machine},
    (∀ name ∈ left.names, seen name) → (∀ name ∈ right.names, seen name) →
    first.Agree change seen held second →
    (evaluateLogical fuel line operator left right first).Follows change (Value.mapLines change)
      (Machine.Agree change seen held) (evaluateLogical fuel (change line) operator
        (left.mapLines change) (right.mapLines change) second)
  evaluateAll : ∀ {seen held : String → Prop} {expressions : List Expr} {first second : Machine},
    (∀ name ∈ Expr.namesAll expressions, seen name) → first.Agree change seen held second →
    (evaluateAll fuel expressions first).Follows change (List.map (Value.mapLines change))
      (Machine.Agree change seen held)
      (evaluateAll fuel (Expr.mapLinesAll change expressions) second)
  call : ∀ {seen held : String → Prop} {line : Nat} {definition : Definition}
    {arguments : List Value} {first second : Machine}, first.Agree change seen held second →
    (call fuel line definition arguments first).Follows change (Value.mapLines change)
      (Machine.Agree change seen held) (call fuel (change line) (definition.mapLines change)
        (arguments.map (Value.mapLines change)) second)
  execute : ∀ {seen held : String → Prop} {statement : Stmt} {first second : Machine},
    (∀ name ∈ statement.names, seen name) → first.Agree change seen held second →
    (execute fuel statement first).Follows change (Value.mapLines change)
      (Machine.Agree change seen held) (execute fuel (statement.mapLines change) second)
  runBlock : ∀ {seen held : String → Prop} {statements : List Stmt} {last : Value}
    {first second : Machine},
    (∀ name ∈ Stmt.namesAll statements, seen name) → first.Agree change seen held second →
    (runBlock fuel statements last first).Follows change (Value.mapLines change)
      (Machine.Agree change seen held)
      (runBlock fuel (Stmt.mapLinesAll change statements) (last.mapLines change) second)
  runBranches : ∀ {seen held : String → Prop} {branches : List Branch} {first second : Machine},
    (∀ name ∈ Branch.namesAll branches, seen name) → first.Agree change seen held second →
    (runBranches fuel branches first).Follows change (Value.mapLines change)
      (Machine.Agree change seen held)
      (runBranches fuel (Branch.mapLinesAll change branches) second)
  runWhile : ∀ {seen held : String → Prop} {condition : Expr} {body : List Stmt}
    {first second : Machine}, (∀ name ∈ condition.names, seen name) →
    (∀ name ∈ Stmt.namesAll body, seen name) → first.Agree change seen held second →
    (runWhile fuel condition body first).Follows change (Value.mapLines change)
      (Machine.Agree change seen held)
      (runWhile fuel (condition.mapLines change) (Stmt.mapLinesAll change body) second)
  runFor : ∀ {seen held : String → Prop} {line : Nat} {name : String} {index stop : Int}
    {body : List Stmt} {first second : Machine},
    (∀ name ∈ Stmt.namesAll body, seen name) → first.Agree change seen held second →
    (runFor fuel line name index stop body first).Follows change (Value.mapLines change)
      (Machine.Agree change seen held)
      (runFor fuel (change line) name index stop (Stmt.mapLinesAll change body) second)

section Steps

variable {change : Nat → Nat} {fuel : Nat} {seen held : String → Prop} {first second : Machine}

theorem Simulates.zero : Simulates change 0 := by
  constructor
  all_goals intros; exact .exhausted

theorem Simulates.evaluate_succ (previous : Simulates change fuel) {expression : Expr}
    (names : ∀ name ∈ expression.names, seen name) (agree : first.Agree change seen held second) :
    (Scriptlet.evaluate (fuel + 1) expression first).Follows change (Value.mapLines change)
      (Machine.Agree change seen held)
      (Scriptlet.evaluate (fuel + 1) (expression.mapLines change) second) := by
  match expression with
  | .number _ _ | .text _ _ | .boolean _ _ | .range _ _ => exact .done rfl agree
  | .identifier line name =>
    rw [Expr.mapLines, Scriptlet.evaluate, Scriptlet.evaluate,
      agree.lookup (names name List.mem_cons_self)]
    exact Outcome.follows_ofResult agree line _
  | .unary line operator operand =>
    have inside : ∀ name ∈ operand.names, seen name := names
    rw [Expr.mapLines, Scriptlet.evaluate, Scriptlet.evaluate]
    refine (previous.evaluate inside agree).bind fun value _ _ inner => ?_
    rw [Value.unary_mapLines]
    exact Outcome.follows_ofResult inner line _
  | .binary line operator left right =>
    obtain ⟨leftNames, rightNames⟩ := List.forall_mem_append.mp names
    rw [Expr.mapLines, Scriptlet.evaluate, Scriptlet.evaluate]
    split
    · exact previous.evaluateLogical leftNames rightNames agree
    · refine (previous.evaluate leftNames agree).bind fun leftValue _ _ inner => ?_
      refine (previous.evaluate rightNames inner).bind fun rightValue _ _ innermost => ?_
      rw [Value.binary_mapLines]
      exact Outcome.follows_ofResult innermost line _
  | .call line name arguments =>
    obtain ⟨called, inside⟩ := List.forall_mem_cons.mp names
    rw [Expr.mapLines, Scriptlet.evaluate, Scriptlet.evaluate, Expr.length_mapLinesAll,
      agree.callee called]
    refine (Outcome.follows_ofResult agree line _).bind fun definition _ _ known => ?_
    refine (previous.evaluateAll inside known).bind fun values _ _ inner => ?_
    exact previous.call inner
  | .assign line name value =>
    obtain ⟨_, inside⟩ := List.forall_mem_cons.mp names
    rw [Expr.mapLines, Scriptlet.evaluate, Scriptlet.evaluate]
    exact (previous.evaluate inside agree).bind fun result _ _ inner =>
      .done rfl (inner.assign name result)

theorem Simulates.evaluateLogical_succ (previous : Simulates change fuel) {line : Nat}
    {operator : BinaryOperator} {left right : Expr} (leftNames : ∀ name ∈ left.names, seen name)
    (rightNames : ∀ name ∈ right.names, seen name) (agree : first.Agree change seen held second) :
    (Scriptlet.evaluateLogical (fuel + 1) line operator left right first).Follows change
      (Value.mapLines change) (Machine.Agree change seen held)
      (Scriptlet.evaluateLogical (fuel + 1) (change line) operator (left.mapLines change)
        (right.mapLines change) second) := by
  rw [Scriptlet.evaluateLogical, Scriptlet.evaluateLogical]
  refine (previous.evaluate leftNames agree).bind fun leftValue _ _ inner => ?_
  rw [Value.truth_mapLines]
  refine (Outcome.follows_ofPlain inner line _).bind fun answer _ _ known => ?_
  rw [id]
  split
  · exact .done rfl known
  · refine (previous.evaluate rightNames known).bind fun rightValue _ _ innermost => ?_
    rw [Value.rightAnswer_mapLines]
    exact Outcome.follows_ofResult innermost line _

theorem Simulates.evaluateAll_succ (previous : Simulates change fuel) {expressions : List Expr}
    (names : ∀ name ∈ Expr.namesAll expressions, seen name)
    (agree : first.Agree change seen held second) :
    (Scriptlet.evaluateAll (fuel + 1) expressions first).Follows change
      (List.map (Value.mapLines change)) (Machine.Agree change seen held)
      (Scriptlet.evaluateAll (fuel + 1) (Expr.mapLinesAll change expressions) second) := by
  match expressions with
  | [] => exact .done rfl agree
  | head :: tail =>
    obtain ⟨headNames, tailNames⟩ := List.forall_mem_append.mp names
    rw [Expr.mapLinesAll, Scriptlet.evaluateAll, Scriptlet.evaluateAll]
    refine (previous.evaluate headNames agree).bind fun value _ _ inner => ?_
    exact (previous.evaluateAll tailNames inner).bind fun values _ _ innermost =>
      .done rfl innermost

theorem Simulates.call_succ (previous : Simulates change fuel) {line : Nat}
    {definition : Definition} {arguments : List Value}
    (agree : first.Agree change seen held second) :
    (Scriptlet.call (fuel + 1) line definition arguments first).Follows change
      (Value.mapLines change) (Machine.Agree change seen held)
      (Scriptlet.call (fuel + 1) (change line) (definition.mapLines change)
        (arguments.map (Value.mapLines change)) second) := by
  rw [Scriptlet.call, Scriptlet.call, agree.depth]
  split
  · exact .failed rfl agree
  · -- What the callers do not agree on is out of sight: their frames have the root in common.
    exact agree.leave (previous.runBlock (fun _ _ => trivial) (agree.enter definition arguments))

theorem Simulates.execute_succ (previous : Simulates change fuel) {statement : Stmt}
    (names : ∀ name ∈ statement.names, seen name) (agree : first.Agree change seen held second) :
    (Scriptlet.execute (fuel + 1) statement first).Follows change (Value.mapLines change)
      (Machine.Agree change seen held)
      (Scriptlet.execute (fuel + 1) (statement.mapLines change) second) := by
  match statement with
  | .print line value =>
    rw [Stmt.mapLines, Scriptlet.execute, Scriptlet.execute]
    refine (previous.evaluate names agree).bind fun result _ _ inner => ?_
    exact (inner.print line result).bind fun _ _ _ innermost => .done rfl innermost
  | .conditional _ branches => exact previous.runBranches names agree
  | .whileLoop _ condition body =>
    obtain ⟨conditionNames, bodyNames⟩ := List.forall_mem_append.mp names
    exact previous.runWhile conditionNames bodyNames agree
  | .forLoop line name iterand body =>
    obtain ⟨front, bodyNames⟩ := List.forall_mem_append.mp names
    obtain ⟨_, iterandNames⟩ := List.forall_mem_cons.mp front
    rw [Stmt.mapLines, Scriptlet.execute, Scriptlet.execute]
    refine (previous.evaluate iterandNames agree).bind fun value _ _ inner => ?_
    rw [Value.iterable_mapLines]
    refine (Outcome.follows_ofPlain inner line _).bind fun range _ _ known => ?_
    exact previous.runFor bodyNames known
  | .define _ name parameters body => exact .done rfl (agree.define ⟨name, parameters, body⟩)
  | .expression _ value => exact previous.evaluate names agree

theorem Simulates.runBlock_succ (previous : Simulates change fuel) {statements : List Stmt}
    {last : Value} (names : ∀ name ∈ Stmt.namesAll statements, seen name)
    (agree : first.Agree change seen held second) :
    (Scriptlet.runBlock (fuel + 1) statements last first).Follows change (Value.mapLines change)
      (Machine.Agree change seen held)
      (Scriptlet.runBlock (fuel + 1) (Stmt.mapLinesAll change statements) (last.mapLines change)
        second) := by
  match statements with
  | [] => exact .done rfl agree
  | head :: tail =>
    obtain ⟨headNames, tailNames⟩ := List.forall_mem_append.mp names
    rw [Stmt.mapLinesAll, Scriptlet.runBlock, Scriptlet.runBlock]
    exact (previous.execute headNames agree).bind fun value _ _ inner =>
      previous.runBlock tailNames inner

theorem Simulates.runBranches_succ (previous : Simulates change fuel) {branches : List Branch}
    (names : ∀ name ∈ Branch.namesAll branches, seen name)
    (agree : first.Agree change seen held second) :
    (Scriptlet.runBranches (fuel + 1) branches first).Follows change (Value.mapLines change)
      (Machine.Agree change seen held)
      (Scriptlet.runBranches (fuel + 1) (Branch.mapLinesAll change branches) second) := by
  match branches with
  | [] => exact .done rfl agree
  | .guarded condition body :: tail =>
    obtain ⟨front, tailNames⟩ := List.forall_mem_append.mp names
    obtain ⟨conditionNames, bodyNames⟩ := List.forall_mem_append.mp front
    rw [Branch.mapLinesAll, Scriptlet.runBranches, Scriptlet.runBranches, Expr.line_mapLines]
    refine (previous.evaluate conditionNames agree).bind fun value _ _ inner => ?_
    rw [Value.truth_mapLines]
    refine (Outcome.follows_ofPlain inner condition.line _).bind fun taken _ _ known => ?_
    rw [id]
    split
    · exact (previous.runBlock bodyNames known).bind fun _ _ _ innermost => .done rfl innermost
    · exact previous.runBranches tailNames known

theorem Simulates.runWhile_succ (previous : Simulates change fuel) {condition : Expr}
    {body : List Stmt} (conditionNames : ∀ name ∈ condition.names, seen name)
    (bodyNames : ∀ name ∈ Stmt.namesAll body, seen name)
    (agree : first.Agree change seen held second) :
    (Scriptlet.runWhile (fuel + 1) condition body first).Follows change (Value.mapLines change)
      (Machine.Agree change seen held)
      (Scriptlet.runWhile (fuel + 1) (condition.mapLines change) (Stmt.mapLinesAll change body)
        second) := by
  rw [Scriptlet.runWhile, Scriptlet.runWhile, Expr.line_mapLines]
  refine (previous.evaluate conditionNames agree).bind fun value _ _ inner => ?_
  rw [Value.truth_mapLines]
  refine (Outcome.follows_ofPlain inner condition.line _).bind fun taken _ _ known => ?_
  rw [id]
  split
  · exact (previous.runBlock bodyNames known).bind fun _ _ _ innermost =>
      previous.runWhile conditionNames bodyNames innermost
  · exact .done rfl known

theorem Simulates.runFor_succ (previous : Simulates change fuel) {line : Nat} {name : String}
    {index stop : Int} {body : List Stmt} (bodyNames : ∀ name ∈ Stmt.namesAll body, seen name)
    (agree : first.Agree change seen held second) :
    (Scriptlet.runFor (fuel + 1) line name index stop body first).Follows change
      (Value.mapLines change) (Machine.Agree change seen held)
      (Scriptlet.runFor (fuel + 1) (change line) name index stop (Stmt.mapLinesAll change body)
        second) := by
  rw [Scriptlet.runFor, Scriptlet.runFor]
  split
  · refine (Outcome.follows_ofPlain agree line _).bind fun number _ _ known => ?_
    exact (previous.runBlock bodyNames (known.assign name (.number number))).bind
      fun _ _ _ inner => previous.runFor bodyNames inner
  · exact .done rfl agree

/-- **Every function of the evaluator goes the same way in agreeing states**, whatever the fuel
is. -/
theorem simulates (change : Nat → Nat) : ∀ fuel, Simulates change fuel
  | 0 => .zero
  | fuel + 1 => by
    have previous := simulates change fuel
    exact {
      evaluate := previous.evaluate_succ
      evaluateLogical := previous.evaluateLogical_succ
      evaluateAll := previous.evaluateAll_succ
      call := previous.call_succ
      execute := previous.execute_succ
      runBlock := previous.runBlock_succ
      runBranches := previous.runBranches_succ
      runWhile := previous.runWhile_succ
      runFor := previous.runFor_succ }

end Steps

end Scriptlet
