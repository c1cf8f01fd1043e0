/-
**Two runs in step.**

Change every machine of a run in what its scopes do not show: the number of active calls, the sink.
The changed run takes the same steps, because names, values and the text of the program are all that
a step decides by, except in three places: a call looks at the depth, the end of a call gives it
back, and printing looks at the sink. So the two runs go on in step up to a state, if there is one,
in which such a look makes a difference.

* `State.mapMachine`: a state with its machine and those of all waiting callers changed.
* `Machine.Unseen`: a change that scopes and identities do not show.
* `State.next_mapMachine`: **one step commutes with an unseen change**, the three places apart.
* `Lockstep`: runs that go on in step while an invariant holds and no parting state is met;
  `Lockstep.reaches`, `Lockstep.reaches_back`: what the one run comes to, the other one does, unless
  both have come to a parting state before.
-/

import Scriptlet.Proofs.Stepping.Evaluator

namespace Scriptlet

/-! ### Changed machines -/

/-- What waits, with the machine of a waiting caller changed. -/
def Waiting.mapMachine (change : Machine → Machine) : Waiting → Waiting
  | call caller => call (change caller)
  | other => other

/-- **A state with all its machines changed.** -/
def State.mapMachine (change : Machine → Machine) (state : State) : State :=
  ⟨state.focus, state.waiting.map (Waiting.mapMachine change), change state.machine⟩

/-- **A change that scopes and identities do not show.** -/
structure Machine.Unseen (change : Machine → Machine) : Prop where
  scope : ∀ machine, (change machine).scope = machine.scope
  assign : ∀ machine name value,
    (change machine).assign name value = change (machine.assign name value)
  define : ∀ machine definition,
    (change machine).define definition = change (machine.define definition)

namespace Machine.Unseen

variable {change : Machine → Machine} (unseen : Machine.Unseen change)
include unseen

theorem lookup (machine : Machine) (name : String) :
    (change machine).lookup name = machine.lookup name := by
  rw [Machine.lookup, unseen.scope, Machine.lookup]

theorem callee (machine : Machine) (name : String) (given : Nat) :
    (change machine).callee name given = machine.callee name given := by
  rw [Machine.callee, unseen.lookup, Machine.callee]

end Machine.Unseen

/-! ### One step -/

namespace State

variable {change : Machine → Machine} {waiting : List Waiting} {machine : Machine}

theorem settle_mapMachine {α : Type} {line : Nat} {result : Except RuntimeFault α}
    {goOn changed : α → State} (later : ∀ value, changed value = (goOn value).mapMachine change) :
    settle line result (waiting.map (Waiting.mapMachine change)) (change machine) changed =
      (settle line result waiting machine goOn).mapMachine change := by
  rcases result with fault | value
  · rfl
  · exact later value

theorem ofExpr_mapMachine (unseen : Machine.Unseen change) (expression : Expr) :
    ofExpr expression (waiting.map (Waiting.mapMachine change)) (change machine) =
      (ofExpr expression waiting machine).mapMachine change := by
  match expression with
  | .number _ _ | .text _ _ | .boolean _ _ | .range _ _ | .unary _ _ _ | .assign _ _ _ => rfl
  | .identifier _ name =>
    rw [ofExpr, unseen.lookup]
    exact settle_mapMachine fun _ => rfl
  | .binary _ _ _ _ =>
    rw [ofExpr, ofExpr]
    split
    · rfl
    · rfl
  | .call _ name arguments =>
    rw [ofExpr, unseen.callee]
    exact settle_mapMachine fun _ => rfl

theorem ofStmt_mapMachine (unseen : Machine.Unseen change) (statement : Stmt) :
    ofStmt statement (waiting.map (Waiting.mapMachine change)) (change machine) =
      (ofStmt statement waiting machine).mapMachine change := by
  match statement with
  | .print _ _ | .conditional _ _ | .whileLoop _ _ _ | .forLoop _ _ _ _ | .expression _ _ => rfl
  | .define _ name parameters body =>
    rw [ofStmt, unseen.define]
    rfl

theorem ofPass_mapMachine (unseen : Machine.Unseen change) (line : Nat) (name : String)
    (index stop : Int) (body : List Stmt) :
    ofPass line name index stop body (waiting.map (Waiting.mapMachine change)) (change machine) =
      (ofPass line name index stop body waiting machine).mapMachine change := by
  rw [ofPass, ofPass]
  split
  · refine settle_mapMachine fun number => ?_
    rw [unseen.assign]
    rfl
  · rfl

/-- A call is made with the change as without it, if the depth decides the same. -/
theorem ofCall_mapMachine {line : Nat} {definition : Definition} {values : List Value}
    (limit : maximumDepth ≤ (change machine).depth ↔ maximumDepth ≤ machine.depth)
    (enters : (change machine).enter definition values = change (machine.enter definition values)) :
    ofCall line definition values (waiting.map (Waiting.mapMachine change)) (change machine) =
      (ofCall line definition values waiting machine).mapMachine change := by
  by_cases deep : maximumDepth ≤ machine.depth
  · rw [ofCall, ofCall, if_pos deep, if_pos (limit.mpr deep)]
    rfl
  · rw [ofCall, ofCall, if_neg deep, if_neg fun deeper => deep (limit.mp deeper), enters]
    rfl

/-- A value is printed with the change as without it, if the sink decides the same. -/
theorem ofPrint_mapMachine {line : Nat} {value : Value} {sink changed : Sink}
    {refusal : Option Refusal} (written : machine.sink.writeLine value.printed = (sink, refusal))
    (writtenToo : (change machine).sink.writeLine value.printed = (changed, refusal))
    (same : { change machine with sink := changed } = change { machine with sink := sink }) :
    ofPrint line value (waiting.map (Waiting.mapMachine change)) (change machine) =
      (ofPrint line value waiting machine).mapMachine change := by
  rw [ofPrint, ofPrint, written, writtenToo]
  cases refusal with
  | none =>
    show State.mk _ _ _ = State.mapMachine change ⟨_, _, _⟩
    rw [same]
    rfl
  | some refusal =>
    show State.mk _ _ _ = State.mapMachine change ⟨_, _, _⟩
    rw [same]
    rfl

/-- The value of the focus goes where it goes without the change, to print and to a call apart. -/
theorem resume_mapMachine (unseen : Machine.Unseen change) (value : Value) {first : Waiting}
    (prints : ∀ line, first = .print line →
      ofPrint line value (waiting.map (Waiting.mapMachine change)) (change machine) =
        (ofPrint line value waiting machine).mapMachine change)
    (leaves : ∀ caller, first = .call caller →
      (change machine).leave (change caller) = change (machine.leave caller)) :
    resume value (first.mapMachine change) (waiting.map (Waiting.mapMachine change))
        (change machine) =
      (resume value first waiting machine).mapMachine change := by
  match first with
  | .unary _ _ | .right _ _ _ | .logicalRight _ _ _ | .iterand _ _ _ =>
    exact settle_mapMachine fun _ => rfl
  | .logicalLeft _ _ _ | .condition _ _ _ | .whileCondition _ _ =>
    refine settle_mapMachine fun answer => ?_
    split
    · rfl
    · rfl
  | .left _ _ _ | .argument _ _ _ _ | .statement _ | .discard | .whileBody _ _
  | .forBody _ _ _ _ _ => rfl
  | .assign name =>
    rw [Waiting.mapMachine, resume, unseen.assign]
    · rfl
    · simp
  | .print line => exact prints line rfl
  | .call caller =>
    rw [Waiting.mapMachine, resume, leaves caller rfl]
    rfl

/-- What a change has to respect at a state: a call that is made, a call that is left, and a value
that is printed. -/
structure Respects (change : Machine → Machine) (state : State) : Prop where
  calls : ∀ line definition values, state.focus = .call line definition values →
    ofCall line definition values (state.waiting.map (Waiting.mapMachine change))
        (change state.machine) =
      (ofCall line definition values state.waiting state.machine).mapMachine change
  prints : ∀ line value rest, state.focus = .value value → state.waiting = .print line :: rest →
    ofPrint line value (rest.map (Waiting.mapMachine change)) (change state.machine) =
      (ofPrint line value rest state.machine).mapMachine change
  leaves : ∀ caller rest, state.waiting = .call caller :: rest →
    (change state.machine).leave (change caller) = change (state.machine.leave caller)

/-- **One step commutes with an unseen change** that the state respects. -/
theorem next_mapMachine (unseen : Machine.Unseen change) {state : State}
    (respects : Respects change state) :
    (state.mapMachine change).next = state.next.map (mapMachine change) := by
  obtain ⟨focus, waiting, machine⟩ := state
  match focus, waiting with
  | .evaluate expression, _ => exact congrArg some (ofExpr_mapMachine unseen expression)
  | .call line definition values, _ =>
    exact congrArg some (respects.calls line definition values rfl)
  | .execute statement, _ => exact congrArg some (ofStmt_mapMachine unseen statement)
  | .forLoop line name index stop body, _ =>
    exact congrArg some (ofPass_mapMachine unseen line name index stop body)
  | .logical _ _ _ _, _ | .arguments _ _ _ [], _ | .arguments _ _ _ (_ :: _), _ | .block [] _, _
  | .block (_ :: _) _, _ | .branches [], _ | .branches (.guarded _ _ :: _), _
  | .whileLoop _ _, _ => rfl
  | .value value, first :: rest =>
    refine congrArg some (resume_mapMachine unseen value ?_ ?_)
    · rintro line rfl
      exact respects.prints line value rest rfl rfl
    · rintro caller rfl
      exact respects.leaves caller rest rfl
  | .error error, first :: rest =>
    have dropped : (first.mapMachine change).dropped (change machine) =
        change (first.dropped machine) := by
      cases first with
      | call caller => exact respects.leaves caller rest rfl
      | _ => rfl
    show some (State.mk _ _ ((first.mapMachine change).dropped (change machine))) = _
    rw [dropped]
    rfl
  | .value _, [] | .error _, [] => rfl

end State

/-! ### Many steps -/

open State

/-- **Runs that go on in step**, as long as an invariant holds and no parting state is met. -/
structure Lockstep (change : Machine → Machine) (invariant parting : State → Prop) : Prop where
  next : ∀ {state}, invariant state → ¬ parting state →
    (state.mapMachine change).next = state.next.map (State.mapMachine change)
  kept : ∀ {state after}, invariant state → ¬ parting state → Step state after → invariant after

namespace Lockstep

variable {change : Machine → Machine} {invariant parting : State → Prop}

/-- Both runs have come to a parting state. -/
structure Parted (change : Machine → Machine) (invariant parting : State → Prop)
    (start middle : State) : Prop where
  holds : invariant middle
  parts : parting middle
  reaches : Reaches start middle
  changed : Reaches (start.mapMachine change) (middle.mapMachine change)

variable (lockstep : Lockstep change invariant parting) {start last : State}
include lockstep

/-- **What a run comes to, the changed run comes to**, unless both have parted before. -/
theorem reaches (begun : invariant start) (reaches : Reaches start last) :
    (invariant last ∧ Reaches (start.mapMachine change) (last.mapMachine change)) ∨
      ∃ middle, Parted change invariant parting start middle ∧ Reaches middle last := by
  induction reaches with
  | refl => exact .inl ⟨begun, .refl⟩
  | @tail state after before step hypothesis =>
    rcases hypothesis with ⟨holds, same⟩ | ⟨middle, parted, later⟩
    · by_cases parts : parting state
      · exact .inr ⟨state, ⟨holds, parts, before, same⟩, .single step⟩
      · have next := lockstep.next holds parts
        rw [show state.next = some after from step] at next
        exact .inl ⟨lockstep.kept holds parts step, same.tail next⟩
    · exact .inr ⟨middle, parted, later.tail step⟩

/-- **What the changed run comes to, the run comes to**, unless both have parted before. -/
theorem reaches_back (begun : invariant start) (reaches : Reaches (start.mapMachine change) last) :
    (∃ original, invariant original ∧ Reaches start original ∧
      last = original.mapMachine change) ∨
      ∃ middle, Parted change invariant parting start middle ∧
        Reaches (middle.mapMachine change) last := by
  induction reaches with
  | refl => exact .inl ⟨start, begun, .refl, rfl⟩
  | @tail state after before step hypothesis =>
    rcases hypothesis with ⟨original, holds, same, rfl⟩ | ⟨middle, parted, later⟩
    · by_cases parts : parting original
      · exact .inr ⟨original, ⟨holds, parts, same, before⟩, .single step⟩
      · have next := lockstep.next holds parts
        rw [show (original.mapMachine change).next = some after from step] at next
        obtain ⟨successor, follows, rfl⟩ := Option.map_eq_some_iff.mp next.symm
        exact .inl ⟨successor, lockstep.kept holds parts follows, same.tail follows, rfl⟩
    · exact .inr ⟨middle, parted, later.tail step⟩

end Lockstep

/-! ### Ends -/

/-- **An error drops everything that waits for it**, and writes nothing. -/
theorem State.exists_reaches_error (error : RuntimeError) (waiting : List Waiting)
    (machine : Machine) :
    ∃ after, Reaches ⟨.error error, waiting, machine⟩ ⟨.error error, [], after⟩ ∧
      after.sink = machine.sink := by
  induction waiting generalizing machine with
  | nil => exact ⟨machine, .refl, rfl⟩
  | cons first rest hypothesis =>
    obtain ⟨after, reaches, same⟩ := hypothesis (first.dropped machine)
    refine ⟨after, reaches.head rfl, same.trans ?_⟩
    cases first <;> rfl

/-- An outcome with the machine it leaves changed. -/
def Outcome.mapMachine {α : Type} (change : Machine → Machine) : Outcome α → Outcome α
  | done value machine => done value (change machine)
  | failed error machine => failed error (change machine)
  | exhausted => exhausted

theorem Outcome.final_mapMachine (change : Machine → Machine) (outcome : Outcome Value) :
    (outcome.mapMachine change).final = outcome.final.map (State.mapMachine change) := by
  cases outcome <;> rfl

/-- A changed end is the end of a changed outcome. -/
theorem Outcome.exists_of_final_mapMachine {change : Machine → Machine} {outcome : Outcome Value}
    {last : State} (ended : outcome.final = some (last.mapMachine change)) :
    ∃ original : Outcome Value, original.final = some last ∧
      outcome = original.mapMachine change := by
  obtain ⟨focus, waiting, machine⟩ := last
  cases outcome with
  | done value after =>
    obtain ⟨rfl, nothing, rfl⟩ := State.mk.inj (Option.some.inj ended)
    obtain rfl := List.map_eq_nil_iff.mp nothing.symm
    exact ⟨.done value machine, rfl, rfl⟩
  | failed error after =>
    obtain ⟨rfl, nothing, rfl⟩ := State.mk.inj (Option.some.inj ended)
    obtain rfl := List.map_eq_nil_iff.mp nothing.symm
    exact ⟨.failed error machine, rfl, rfl⟩
  | exhausted => cases ended

/-- The end of an outcome is the end of a run. -/
theorem Outcome.final_ends {outcome : Outcome Value} {last : State}
    (ended : outcome.final = some last) : Final last := by
  cases outcome <;> cases ended <;> rfl

/-- An outcome is told by its end. -/
theorem Outcome.eq_of_final {outcome other : Outcome Value} {last : State}
    (ended : outcome.final = some last) (again : other.final = some last) : outcome = other := by
  cases outcome <;> cases other <;> cases ended <;> cases again <;> rfl

namespace Action

theorem mapMachine_begin (change : Machine → Machine) (action : Action) (machine : Machine) :
    (action.begin machine).mapMachine change = action.begin (change machine) := by
  cases action <;> rfl

/-- **An action ends with an outcome**: it comes to it with some fuel. -/
def EndsWith (action : Action) (machine : Machine) (outcome : Outcome Value) : Prop :=
  outcome ≠ .exhausted ∧ ∃ fuel, action.run fuel machine = outcome

/-- An action ends with the outcome that its steps lead to. -/
theorem endsWith_iff {action : Action} {machine : Machine} {outcome : Outcome Value} :
    action.EndsWith machine outcome ↔
      ∃ last, outcome.final = some last ∧ Reaches (action.begin machine) last := by
  constructor
  · rintro ⟨finite, fuel, rfl⟩
    cases ended : (action.run fuel machine).final with
    | none =>
      refine absurd ?_ finite
      cases outcome : action.run fuel machine with
      | exhausted => rfl
      | _ => simp [outcome, Outcome.final] at ended
    | some last => exact ⟨last, rfl, (reaches_of_final ended).1⟩
  · rintro ⟨last, ended, reaches⟩
    obtain ⟨fuel, run⟩ := ends_iff.mp ⟨reaches, Outcome.final_ends ended⟩
    refine ⟨?_, fuel, Outcome.eq_of_final run ended⟩
    rintro rfl
    cases ended

end Action

end Scriptlet
