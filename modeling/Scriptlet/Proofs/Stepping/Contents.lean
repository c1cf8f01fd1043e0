/-
**The values of a state, and where they come from.**

A state holds values in its focus, in what waits for it, in the scope of its machine and in the
scopes that calls give back. A step copies values and computes new ones; the only new functions are
those that a definition makes when it runs.

* `State.Holds`: a value that is held anywhere in a state.
* `State.Makes`: a definition is about to run, and this is the function that it stores.
* `State.HoldsOnly.step`: **a property that all values of a state have, all values have after a
  step**, if all values but functions have it and so has the function that the step makes.
* `Interpreter.exists_interpret_iff`: steps end with the report that the interpreter gives.
* `Recorded`: the states of an interpreter that runs one program after another, failing or not.
-/

import Scriptlet.Interpreter
import Scriptlet.Proofs.Evaluation.Provenance
import Scriptlet.Proofs.Stepping.Evaluator

namespace Scriptlet

/-! ### Held values -/

/-- A value that the focus holds: the arguments of a call, the last value of a block, or the value
it has come to. -/
def Focus.Holds : Focus → Value → Prop
  | .arguments _ _ values _, held => held ∈ values
  | .call _ _ values, held => held ∈ values
  | .block _ last, held => held = last
  | .value shown, held => held = shown
  | _, _ => False

/-- A value that is held by what waits; a call holds the scope of its caller. -/
def Waiting.Holds : Waiting → Value → Prop
  | .right _ _ operand, held => held = operand
  | .logicalRight _ _ operand, held => held = operand
  | .argument _ _ values _, held => held ∈ values
  | .call caller, held => caller.scope.Stores held
  | _, _ => False

namespace State

/-- **A value that a state holds**, wherever it is. -/
def Holds (state : State) (value : Value) : Prop :=
  state.focus.Holds value ∨ (∃ first ∈ state.waiting, first.Holds value) ∨
    state.machine.scope.Stores value

/-- **A definition is about to run and makes a function**: the step stores it under its name. -/
def Makes (state : State) (function : Value) : Prop :=
  ∃ line name parameters body after,
    state.focus = .execute (.define line name parameters body) ∧ Step state after ∧
      after.machine.scope.table.get? name = some function

/-- The function that a definition makes has the identity that is due. -/
theorem makes_iff {state : State} {function : Value} :
    state.Makes function ↔
      ∃ line name parameters body, state.focus = .execute (.define line name parameters body) ∧
        function = .function state.machine.fresh ⟨name, parameters, body⟩ := by
  have stored : ∀ (machine : Machine) (definition : Definition),
      (machine.define definition).scope.table.get? definition.name =
        some (.function machine.fresh definition) := by
    intro machine definition
    show (machine.scope.table.insert _ _).get? _ = _
    rw [Table.get?_insert, if_pos rfl]
  obtain ⟨focus, waiting, machine⟩ := state
  constructor
  · rintro ⟨line, name, parameters, body, after, rfl, step, found⟩
    obtain rfl := Option.some.inj step
    refine ⟨line, name, parameters, body, rfl, ?_⟩
    exact Option.some.inj (found.symm.trans (stored machine ⟨name, parameters, body⟩))
  · rintro ⟨line, name, parameters, body, rfl, rfl⟩
    exact ⟨line, name, parameters, body, _, rfl, rfl, stored machine ⟨name, parameters, body⟩⟩

/-- **All values of a state have a property.** -/
structure HoldsOnly (good : Value → Prop) (state : State) : Prop where
  focus : ∀ value, state.focus.Holds value → good value
  waiting : ∀ first ∈ state.waiting, ∀ value, first.Holds value → good value
  scope : ∀ value, state.machine.scope.Stores value → good value

theorem holdsOnly_iff {good : Value → Prop} {state : State} :
    state.HoldsOnly good ↔ ∀ value, state.Holds value → good value := by
  constructor
  · rintro ⟨focus, waiting, scope⟩ value (shown | ⟨first, member, held⟩ | stored)
    · exact focus value shown
    · exact waiting first member value held
    · exact scope value stored
  · intro all
    refine ⟨fun value shown => all value (.inl shown), ?_, ?_⟩
    · exact fun first member value held => all value (.inr (.inl ⟨first, member, held⟩))
    · exact fun value stored => all value (.inr (.inr stored))

/-! ### What a step copies -/

section Steps

variable {good : Value → Prop} {focus : Focus} {waiting : List Waiting} {machine : Machine}

/-- Another focus that holds good values only. -/
theorem HoldsOnly.refocus (held : HoldsOnly good ⟨focus, waiting, machine⟩) {other : Focus}
    (shown : ∀ value, other.Holds value → good value) : HoldsOnly good ⟨other, waiting, machine⟩ :=
  ⟨shown, held.waiting, held.scope⟩

theorem HoldsOnly.push (held : HoldsOnly good ⟨focus, waiting, machine⟩) {first : Waiting}
    (kept : ∀ value, first.Holds value → good value) :
    HoldsOnly good ⟨focus, first :: waiting, machine⟩ :=
  ⟨held.focus, List.forall_mem_cons.mpr ⟨kept, held.waiting⟩, held.scope⟩

theorem HoldsOnly.pop {first : Waiting} (held : HoldsOnly good ⟨focus, first :: waiting, machine⟩) :
    (∀ value, first.Holds value → good value) ∧ HoldsOnly good ⟨focus, waiting, machine⟩ :=
  have each := List.forall_mem_cons.mp held.waiting
  ⟨each.1, held.focus, each.2, held.scope⟩

/-- Another machine whose scope holds good values only. -/
theorem HoldsOnly.withMachine (held : HoldsOnly good ⟨focus, waiting, machine⟩) {other : Machine}
    (stored : ∀ value, other.scope.Stores value → good value) :
    HoldsOnly good ⟨focus, waiting, other⟩ :=
  ⟨held.focus, held.waiting, stored⟩

theorem HoldsOnly.assign (held : HoldsOnly good ⟨focus, waiting, machine⟩) (name : String)
    {value : Value} (fine : good value) :
    HoldsOnly good ⟨focus, waiting, machine.assign name value⟩ := by
  refine held.withMachine fun other stored => ?_
  rcases Scope.stores_of_insert stored with rfl | before
  · exact fine
  · exact held.scope other before

/-- A value in focus. -/
theorem HoldsOnly.value (held : HoldsOnly good ⟨focus, waiting, machine⟩) {value : Value}
    (fine : good value) : HoldsOnly good ⟨.value value, waiting, machine⟩ :=
  held.refocus fun _ same => same ▸ fine

theorem HoldsOnly.settle (held : HoldsOnly good ⟨focus, waiting, machine⟩) {α : Type} {line : Nat}
    {result : Except RuntimeFault α} {goOn : α → State}
    (later : ∀ value, result = .ok value → HoldsOnly good (goOn value)) :
    HoldsOnly good (State.settle line result waiting machine goOn) := by
  rcases result with fault | value
  · exact held.refocus fun _ => False.elim
  · exact later value rfl

variable (plain : ∀ value : Value, value.kind ≠ .function → good value)
include plain

/-- No value. -/
theorem HoldsOnly.nil (held : HoldsOnly good ⟨focus, waiting, machine⟩) :
    HoldsOnly good ⟨.value .nil, waiting, machine⟩ :=
  held.value (plain .nil (by decide))

/-- A block that is about to run. -/
theorem HoldsOnly.block (held : HoldsOnly good ⟨focus, waiting, machine⟩)
    (statements : List Stmt) : HoldsOnly good ⟨.block statements .nil, waiting, machine⟩ :=
  held.refocus fun _ same => same ▸ plain .nil (by decide)

theorem holdsOnly_ofExpr {expression : Expr}
    (held : HoldsOnly good ⟨.evaluate expression, waiting, machine⟩) :
    HoldsOnly good (ofExpr expression waiting machine) := by
  cases expression with
  | number | text | boolean | range => exact held.value (plain _ (by rintro ⟨⟩))
  | identifier line name =>
    refine held.settle fun value found => ?_
    exact held.value (held.scope value (Machine.stores_of_lookup found))
  | unary => exact (held.refocus fun _ => False.elim).push fun _ => False.elim
  | binary =>
    rw [ofExpr]
    split
    · exact held.refocus fun _ => False.elim
    · exact (held.refocus fun _ => False.elim).push fun _ => False.elim
  | call =>
    refine held.settle fun definition _ => ?_
    exact held.refocus fun value member => absurd member List.not_mem_nil
  | assign => exact (held.refocus fun _ => False.elim).push fun _ => False.elim

/-- A definition adds the function that it makes. -/
theorem holdsOnly_ofStmt {statement : Stmt}
    (held : HoldsOnly good ⟨.execute statement, waiting, machine⟩)
    (made : ∀ function, Makes ⟨.execute statement, waiting, machine⟩ function → good function) :
    HoldsOnly good (ofStmt statement waiting machine) := by
  cases statement with
  | print => exact (held.refocus fun _ => False.elim).push fun _ => False.elim
  | conditional => exact held.refocus fun _ => False.elim
  | whileLoop => exact held.refocus fun _ => False.elim
  | forLoop => exact (held.refocus fun _ => False.elim).push fun _ => False.elim
  | define line name parameters body =>
    have function : good (.function machine.fresh ⟨name, parameters, body⟩) :=
      made _ (makes_iff.mpr ⟨line, name, parameters, body, rfl, rfl⟩)
    have numbered : HoldsOnly good
        ⟨.value .nil, waiting, { machine with fresh := machine.fresh + 1 }⟩ :=
      (held.nil plain).withMachine held.scope
    exact numbered.assign name function
  | expression => exact held.refocus fun _ => False.elim

/-- The frame of a call holds its arguments, and the caller's scope waits for its end. -/
theorem holdsOnly_ofCall {line : Nat} {definition : Definition} {values : List Value}
    (held : HoldsOnly good ⟨.call line definition values, waiting, machine⟩) :
    HoldsOnly good (ofCall line definition values waiting machine) := by
  unfold ofCall
  by_cases deep : maximumDepth ≤ machine.depth
  · rw [if_pos deep]
    exact held.refocus fun _ => False.elim
  · rw [if_neg deep]
    have kept : HoldsOnly good ⟨.block definition.body .nil, .call machine :: waiting, machine⟩ :=
      (held.block plain definition.body).push held.scope
    refine kept.withMachine fun value stored => ?_
    rcases Scope.stores_of_frame stored with given | before
    · exact held.focus value given
    · exact held.scope value before

theorem holdsOnly_ofPass {line : Nat} {name : String} {index stop : Int} {body : List Stmt}
    (held : HoldsOnly good ⟨.forLoop line name index stop body, waiting, machine⟩) :
    HoldsOnly good (ofPass line name index stop body waiting machine) := by
  unfold ofPass
  by_cases inside : index < stop
  · rw [if_pos inside]
    refine held.settle fun number _ => ?_
    have pass := held.block plain body
    exact (pass.push fun _ => False.elim).assign name (plain (.number number) (by rintro ⟨⟩))
  · rw [if_neg inside]
    exact held.nil plain

theorem holdsOnly_ofPrint {line : Nat} {value : Value}
    (held : HoldsOnly good ⟨.value value, waiting, machine⟩) :
    HoldsOnly good (ofPrint line value waiting machine) := by
  unfold ofPrint
  split
  · exact (held.nil plain).withMachine held.scope
  · exact (held.refocus fun _ => False.elim).withMachine held.scope

/-- What waits takes the value of the focus over, or computes a value that is no function. -/
theorem holdsOnly_resume {value : Value} {first : Waiting}
    (held : HoldsOnly good ⟨.value value, first :: waiting, machine⟩) :
    HoldsOnly good (resume value first waiting machine) := by
  have fine : good value := held.focus value rfl
  obtain ⟨own, rest⟩ := held.pop
  cases first with
  | unary => exact rest.settle fun _ computed => rest.value (plain _ (Value.kind_of_unary computed))
  | left => exact (rest.refocus fun _ => False.elim).push fun _ same => same ▸ fine
  | right =>
    exact rest.settle fun _ computed => rest.value (plain _ (Value.kind_of_binary computed))
  | logicalLeft =>
    refine rest.settle fun answer _ => ?_
    split
    · exact rest.value (plain (.boolean answer) (by rintro ⟨⟩))
    · exact (rest.refocus fun _ => False.elim).push fun _ same => same ▸ fine
  | logicalRight =>
    exact rest.settle fun _ computed => rest.value (plain _ (Value.kind_of_rightAnswer computed))
  | argument line definition values arguments =>
    refine rest.refocus fun other member => ?_
    rcases List.mem_append.mp member with before | new
    · exact own other before
    · exact List.mem_singleton.mp new ▸ fine
  | assign name => exact rest.assign name fine
  | print => exact holdsOnly_ofPrint plain rest
  | iterand => exact rest.settle fun range _ => rest.refocus fun _ => False.elim
  | statement => exact rest.refocus fun _ same => same ▸ fine
  | condition =>
    refine rest.settle fun holds _ => ?_
    split
    · exact (rest.block plain _).push fun _ => False.elim
    · exact rest.refocus fun _ => False.elim
  | discard => exact rest.nil plain
  | whileCondition =>
    refine rest.settle fun holds _ => ?_
    split
    · exact (rest.block plain _).push fun _ => False.elim
    · exact rest.nil plain
  | whileBody => exact rest.refocus fun _ => False.elim
  | forBody => exact rest.refocus fun _ => False.elim
  | call caller => exact rest.withMachine own

/-- **A property that all values of a state have is one that all values have after a step**, if all
values but functions have it and so has the function that the step makes. -/
theorem HoldsOnly.step {state after : State} (held : state.HoldsOnly good)
    (made : ∀ function, state.Makes function → good function) (step : Step state after) :
    after.HoldsOnly good := by
  obtain ⟨focus, waiting, machine⟩ := state
  cases focus with
  | evaluate expression =>
    cases step
    exact holdsOnly_ofExpr plain held
  | logical =>
    cases step
    exact (held.refocus fun _ => False.elim).push fun _ => False.elim
  | arguments line definition values rest =>
    cases rest with
    | nil =>
      cases step
      exact held.refocus held.focus
    | cons first rest =>
      cases step
      exact (held.refocus fun _ => False.elim).push held.focus
  | call =>
    cases step
    exact holdsOnly_ofCall plain held
  | execute =>
    cases step
    exact holdsOnly_ofStmt plain held made
  | block statements last =>
    cases statements with
    | nil =>
      cases step
      exact held.value (held.focus last rfl)
    | cons first rest =>
      cases step
      exact (held.refocus fun _ => False.elim).push fun _ => False.elim
  | branches branches =>
    rcases branches with _ | ⟨⟨condition, body⟩, rest⟩
    · cases step
      exact held.nil plain
    · cases step
      exact (held.refocus fun _ => False.elim).push fun _ => False.elim
  | whileLoop =>
    cases step
    exact (held.refocus fun _ => False.elim).push fun _ => False.elim
  | forLoop =>
    cases step
    exact holdsOnly_ofPass plain held
  | value value =>
    cases waiting with
    | nil => cases step
    | cons first rest =>
      cases step
      exact holdsOnly_resume plain held
  | error error =>
    cases waiting with
    | nil => cases step
    | cons first rest =>
      cases step
      obtain ⟨own, behind⟩ := held.pop
      -- an error leaves a call as a value does, so the scope of the caller comes back
      cases first with
      | call caller => exact behind.withMachine own
      | _ => exact behind

end Steps

end State

/-! ### Programs one after another -/

/-- **What an interpreter reports** when a run has ended. -/
def State.report (state : State) : Report where
  error :=
    match state.focus with
    | .error error => some error
    | _ => none
  interpreter := .ofMachine state.machine

/-- **Steps end with a report exactly if the interpreter gives it** with some fuel. -/
theorem Interpreter.exists_interpret_iff {interpreter : Interpreter} {program : Program}
    {report : Report} :
    (∃ fuel, interpreter.interpret fuel program = some report) ↔
      ∃ last, State.Reaches ((Action.interpret program).begin interpreter.machine) last ∧
        State.Final last ∧ last.report = report := by
  -- the same fuel gives the same end, as a report and as a state
  have same : ∀ fuel, interpreter.interpret fuel program =
      ((Action.interpret program).run fuel interpreter.machine).final.map State.report := by
    intro fuel
    rw [interpret, Action.run]
    cases Scriptlet.interpret fuel program interpreter.machine <;> rfl
  constructor
  · rintro ⟨fuel, reported⟩
    rw [same] at reported
    obtain ⟨last, ended, shown⟩ := Option.map_eq_some_iff.mp reported
    obtain ⟨reaches, final⟩ := Action.reaches_of_final ended
    exact ⟨last, reaches, final, shown⟩
  · rintro ⟨last, reaches, final, shown⟩
    obtain ⟨fuel, ended⟩ := Action.ends_iff.mp ⟨reaches, final⟩
    refine ⟨fuel, ?_⟩
    rw [same, ended, Option.map_some, shown]

/-- **The states of an interpreter, and those before them**, the oldest first: programs run one
after another, each on what the one before has left, whatever that came to. -/
inductive Recorded (accepted : Program → Prop) (sink : Sink) : List State → State → Prop
  | fresh {program : Program} (fine : accepted program) :
      Recorded accepted sink [] ((Action.interpret program).begin (Interpreter.new sink).machine)
  | step {past : List State} {state after : State} (before : Recorded accepted sink past state)
      (step : State.Step state after) : Recorded accepted sink (past ++ [state]) after
  | again {past : List State} {state : State} {program : Program}
      (before : Recorded accepted sink past state) (final : State.Final state)
      (fine : accepted program) :
      Recorded accepted sink (past ++ [state])
        ((Action.interpret program).begin state.report.interpreter.machine)

/-- A program holds no value when it begins, except for those in the scope. -/
theorem State.holdsOnly_begin {good : Value → Prop}
    (plain : ∀ value : Value, value.kind ≠ .function → good value) (program : Program)
    {machine : Machine} (stored : ∀ value, machine.scope.Stores value → good value) :
    HoldsOnly good ((Action.interpret program).begin machine) := by
  refine ⟨fun _ same => same ▸ plain .nil (by decide), ?_, stored⟩
  intro first member value held
  obtain rfl := List.mem_singleton.mp member
  exact held.elim

/-- The interpreter puts nothing back that was not stored. -/
theorem State.stores_of_report {state : State} {value : Value}
    (stored : state.report.interpreter.machine.scope.Stores value) :
    state.machine.scope.Stores value := by
  obtain ⟨table, member, name, found⟩ := stored
  obtain rfl := List.mem_singleton.mp member
  exact ⟨_, List.mem_cons_self, name, found⟩

/-- The next program holds what the last one has stored. -/
theorem State.HoldsOnly.again {good : Value → Prop}
    (plain : ∀ value : Value, value.kind ≠ .function → good value) {state : State}
    (held : state.HoldsOnly good) (program : Program) :
    HoldsOnly good ((Action.interpret program).begin state.report.interpreter.machine) :=
  holdsOnly_begin plain program fun value stored => held.scope value (stores_of_report stored)

/-- The first program of an interpreter holds nothing. -/
theorem State.holdsOnly_new {good : Value → Prop}
    (plain : ∀ value : Value, value.kind ≠ .function → good value) (program : Program)
    (sink : Sink) :
    HoldsOnly good ((Action.interpret program).begin (Interpreter.new sink).machine) :=
  holdsOnly_begin plain program fun _ stored => absurd stored Scope.not_stores_empty

end Scriptlet
