/-
**What a step does to the machine, and how the output grows.**

Most steps leave the machine alone. The others store a value, print, enter a call or leave one, and
only printing touches the output: it writes behind what has been written. So the output of a run
never loses a byte, whatever the run comes to.

* `Machine.Effect`: the changes that one step can make; `State.effect_of_step`: there are no others.
* `Sink.Extends`: a sink later in a run.
* `State.Reaches.extends`: **the output at any point of a run is the beginning of every later one.**
-/

import Scriptlet.Proofs.Stepping.State

namespace Scriptlet

/-! ### Effects -/

/-- **What one step does to a machine.** -/
inductive Machine.Effect (machine : Machine) : Machine → Prop
  | nothing : Effect machine machine
  | assign (name : String) (value : Value) : Effect machine (machine.assign name value)
  | define (definition : Definition) : Effect machine (machine.define definition)
  | print (text : String) : Effect machine { machine with sink := (machine.sink.writeLine text).1 }
  | enter (definition : Definition) (values : List Value) :
      Effect machine (machine.enter definition values)
  | leave (caller : Machine) : Effect machine (machine.leave caller)

namespace State

variable {state after : State} {waiting : List Waiting} {machine : Machine}

theorem effect_settle {α : Type} {line : Nat} {result : Except RuntimeFault α} {goOn : α → State}
    (later : ∀ value, machine.Effect (goOn value).machine) :
    machine.Effect (settle line result waiting machine goOn).machine := by
  rcases result with fault | value
  · exact .nothing
  · exact later value

theorem effect_ofExpr (expression : Expr) :
    machine.Effect (ofExpr expression waiting machine).machine := by
  cases expression with
  | number | text | boolean | range => exact .nothing
  | identifier => exact effect_settle fun _ => .nothing
  | unary => exact .nothing
  | binary =>
    rw [ofExpr]
    split
    · exact .nothing
    · exact .nothing
  | call => exact effect_settle fun _ => .nothing
  | assign => exact .nothing

theorem effect_ofStmt (statement : Stmt) :
    machine.Effect (ofStmt statement waiting machine).machine := by
  match statement with
  | .define _ name parameters body => exact .define ⟨name, parameters, body⟩
  | .print _ _ | .conditional _ _ | .whileLoop _ _ _ | .forLoop _ _ _ _ | .expression _ _ =>
    exact .nothing

theorem effect_ofCall (line : Nat) (definition : Definition) (values : List Value) :
    machine.Effect (ofCall line definition values waiting machine).machine := by
  rw [ofCall]
  split
  · exact .nothing
  · exact .enter definition values

theorem effect_ofPass (line : Nat) (name : String) (index stop : Int) (body : List Stmt) :
    machine.Effect (ofPass line name index stop body waiting machine).machine := by
  rw [ofPass]
  split
  · exact effect_settle fun number => .assign name (.number number)
  · exact .nothing

/-- A printed value is written to the sink, refused or not. -/
theorem machine_ofPrint (line : Nat) (value : Value) :
    (ofPrint line value waiting machine).machine =
      { machine with sink := (machine.sink.writeLine value.printed).1 } := by
  rw [ofPrint]
  rcases machine.sink.writeLine value.printed with ⟨sink, _ | refusal⟩
  · rfl
  · rfl

theorem effect_resume (value : Value) (first : Waiting) :
    machine.Effect (resume value first waiting machine).machine := by
  match first with
  | .unary _ _ | .right _ _ _ | .logicalRight _ _ _ | .iterand _ _ _ =>
    exact effect_settle fun _ => .nothing
  | .logicalLeft _ _ _ | .condition _ _ _ | .whileCondition _ _ =>
    refine effect_settle fun answer => ?_
    split
    · exact .nothing
    · exact .nothing
  | .left _ _ _ | .argument _ _ _ _ | .statement _ | .discard | .whileBody _ _
  | .forBody _ _ _ _ _ => exact .nothing
  | .assign name => exact .assign name value
  | .print line =>
    rw [resume, machine_ofPrint]
    exact .print value.printed
  | .call caller => exact .leave caller

/-- **A step has one of the effects**, and no other. -/
theorem effect_of_step (step : Step state after) : state.machine.Effect after.machine := by
  obtain ⟨focus, waiting, machine⟩ := state
  match focus, waiting, step with
  | .evaluate expression, _, rfl => exact effect_ofExpr expression
  | .call line definition values, _, rfl => exact effect_ofCall line definition values
  | .execute statement, _, rfl => exact effect_ofStmt statement
  | .forLoop line name index stop body, _, rfl => exact effect_ofPass line name index stop body
  | .logical _ _ _ _, _, rfl | .arguments _ _ _ [], _, rfl | .arguments _ _ _ (_ :: _), _, rfl
  | .block [] _, _, rfl | .block (_ :: _) _, _, rfl | .branches [], _, rfl
  | .branches (.guarded _ _ :: _), _, rfl | .whileLoop _ _, _, rfl => exact .nothing
  | .value value, first :: _, rfl => exact effect_resume value first
  | .error error, first :: _, rfl =>
    cases first with
    | call caller => exact .leave caller
    | _ => exact .nothing

end State

/-! ### The output grows -/

namespace Sink

/-- **A sink later in a run**: bytes have been added behind those it had. -/
structure Extends (sink later : Sink) : Prop where
  written : sink.written.toList <+: later.written.toList
  limit : later.limit = sink.limit

theorem Extends.refl (sink : Sink) : sink.Extends sink := ⟨List.prefix_refl _, rfl⟩

theorem Extends.trans {sink middle later : Sink} (first : sink.Extends middle)
    (second : middle.Extends later) : sink.Extends later :=
  ⟨first.written.trans second.written, second.limit.trans first.limit⟩

theorem Extends.size_le {sink later : Sink} (extended : sink.Extends later) :
    sink.written.size ≤ later.written.size := by
  simpa using extended.written.length_le

theorem extends_writeLine (sink : Sink) (text : String) : sink.Extends (sink.writeLine text).1 := by
  refine ⟨?_, rfl⟩
  rw [writeLine, write, Array.toList_append]
  exact List.prefix_append ..

end Sink

theorem Machine.Effect.extends {machine after : Machine} (effect : machine.Effect after) :
    machine.sink.Extends after.sink := by
  cases effect with
  | print text => exact machine.sink.extends_writeLine text
  | nothing | assign | define | enter | leave => exact .refl _

/-- **The output at any point of a run is the beginning of every later one.** -/
theorem State.Reaches.extends {state after : State} (reaches : State.Reaches state after) :
    state.machine.sink.Extends after.machine.sink := by
  induction reaches with
  | refl => exact .refl _
  | tail _ step hypothesis => exact hypothesis.trans (State.effect_of_step step).extends

end Scriptlet
