/-
**The depth of a machine counts the active calls.**

The depth goes up when a call is entered and down when it is left, by a value or by an error; the
list of what waits grows and shrinks with it. So in every state of every session the two agree.
Nothing waits at the end of a run, hence a run ends with the depth it began with.

* `State.step_cases`: what one step does to the depth and to the number of active calls.
* `State.Counted`: the depth is the number of active calls above a base; kept by a step
  (`Counted.step`) and by a run (`Counted.reaches`).
* `Session`: the states that an interpreter can come to, whatever it is asked for.
* `depth_counts_calls`: **the depth is the number of active calls, and every run gives it back.**
-/

import Scriptlet.Proofs.Evaluation.Preservation
import Scriptlet.Proofs.Stepping.Evaluator

namespace Scriptlet

namespace State

variable {state after : State} {waiting : List Waiting} {machine : Machine}

/-! ### What a step does to the depth -/

theorem callsOf_plain {first : Waiting} (plain : first.isCall = false) :
    callsOf (first :: waiting) = callsOf waiting :=
  List.countP_cons_of_neg (by simp [plain])

theorem callsOf_call (caller : Machine) : callsOf (.call caller :: waiting) = callsOf waiting + 1 :=
  List.countP_cons_of_pos rfl

theorem exists_of_isCall {first : Waiting} (kind : first.isCall) :
    ∃ caller, first = .call caller := by
  cases first with
  | call caller => exact ⟨caller, rfl⟩
  | _ => cases kind

theorem dropped_plain {first : Waiting} (plain : first.isCall = false) :
    first.dropped machine = machine := by
  cases first with
  | call caller => cases plain
  | _ => rfl

/-- **A state at the level of others**: with their depth and their active calls. -/
structure Level (waiting : List Waiting) (machine : Machine) (state : State) : Prop where
  depth : state.machine.depth = machine.depth
  calls : state.calls = callsOf waiting

theorem Level.refl (focus : Focus) : Level waiting machine ⟨focus, waiting, machine⟩ := ⟨rfl, rfl⟩

/-- Anything but a call may wait without another level. -/
theorem Level.push (focus : Focus) {first : Waiting} (plain : first.isCall = false) :
    Level waiting machine ⟨focus, first :: waiting, machine⟩ :=
  ⟨rfl, callsOf_plain plain⟩

theorem Level.below {first : Waiting} (plain : first.isCall = false)
    (level : Level waiting machine state) : Level (first :: waiting) machine state :=
  ⟨level.depth, level.calls.trans (callsOf_plain plain).symm⟩

theorem Level.settle {α : Type} {line : Nat} {result : Except RuntimeFault α} {goOn : α → State}
    (later : ∀ value, Level waiting machine (goOn value)) :
    Level waiting machine (State.settle line result waiting machine goOn) := by
  rcases result with fault | value
  · exact .refl _
  · exact later value

theorem level_ofExpr (expression : Expr) :
    Level waiting machine (ofExpr expression waiting machine) := by
  cases expression with
  | number | text | boolean | range => exact .refl _
  | identifier => exact .settle fun _ => .refl _
  | unary => exact .push _ rfl
  | binary =>
    rw [ofExpr]
    split
    · exact .refl _
    · exact .push _ rfl
  | call => exact .settle fun _ => .refl _
  | assign => exact .push _ rfl

theorem level_ofStmt (statement : Stmt) :
    Level waiting machine (ofStmt statement waiting machine) := by
  match statement with
  | .print _ _ => exact .push _ rfl
  | .conditional _ _ => exact .refl _
  | .whileLoop _ _ _ => exact .refl _
  | .forLoop _ _ _ _ => exact .push _ rfl
  | .define _ _ _ _ => exact ⟨rfl, rfl⟩
  | .expression _ _ => exact .refl _

theorem level_ofPass (line : Nat) (name : String) (index stop : Int) (body : List Stmt) :
    Level waiting machine (ofPass line name index stop body waiting machine) := by
  rw [ofPass]
  split
  · exact .settle fun number => ⟨rfl, callsOf_plain rfl⟩
  · exact .refl _

theorem level_ofPrint (line : Nat) (value : Value) :
    Level waiting machine (ofPrint line value waiting machine) := by
  rw [ofPrint]
  split
  · exact ⟨rfl, rfl⟩
  · exact ⟨rfl, rfl⟩

/-- Whatever resumes, except a call, stays at its level. -/
theorem level_resume (value : Value) {first : Waiting} (plain : first.isCall = false) :
    Level waiting machine (resume value first waiting machine) := by
  match first with
  | .unary _ _ => exact .settle fun _ => .refl _
  | .left _ _ _ => exact .push _ rfl
  | .right _ _ _ => exact .settle fun _ => .refl _
  | .logicalLeft _ _ _ =>
    refine .settle fun answer => ?_
    split
    · exact .refl _
    · exact .push _ rfl
  | .logicalRight _ _ _ => exact .settle fun _ => .refl _
  | .argument _ _ _ _ => exact .refl _
  | .assign _ => exact ⟨rfl, rfl⟩
  | .print line => exact level_ofPrint line value
  | .iterand _ _ _ => exact .settle fun _ => .refl _
  | .statement _ => exact .refl _
  | .condition _ _ _ =>
    refine .settle fun holds => ?_
    split
    · exact .push _ rfl
    · exact .refl _
  | .discard => exact .refl _
  | .whileCondition _ _ =>
    refine .settle fun holds => ?_
    split
    · exact .push _ rfl
    · exact .refl _
  | .whileBody _ _ => exact .refl _
  | .forBody _ _ _ _ _ => exact .refl _

/-- **What one step does to the depth**: nothing, or it enters a call below the limit, or it leaves
one that was active. -/
theorem step_cases (step : Step state after) :
    Level state.waiting state.machine after ∨
      (state.machine.depth < maximumDepth ∧ after.machine.depth = state.machine.depth + 1 ∧
        after.calls = state.calls + 1) ∨
      (after.machine.depth = state.machine.depth - 1 ∧ state.calls = after.calls + 1) := by
  obtain ⟨focus, waiting, machine⟩ := state
  match focus, waiting, step with
  | .evaluate expression, _, rfl => exact .inl (level_ofExpr expression)
  | .logical _ _ _ _, _, rfl => exact .inl (.push _ rfl)
  | .arguments _ _ _ [], _, rfl => exact .inl (.refl _)
  | .arguments _ _ _ (_ :: _), _, rfl => exact .inl (.push _ rfl)
  | .call line definition values, waiting, rfl =>
    by_cases deep : maximumDepth ≤ machine.depth
    · left
      rw [ofCall, if_pos deep]
      exact .refl _
    · right
      left
      rw [ofCall, if_neg deep]
      exact ⟨Nat.lt_of_not_le deep, rfl, callsOf_call machine⟩
  | .execute statement, _, rfl => exact .inl (level_ofStmt statement)
  | .block [] _, _, rfl => exact .inl (.refl _)
  | .block (_ :: _) _, _, rfl => exact .inl (.push _ rfl)
  | .branches [], _, rfl => exact .inl (.refl _)
  | .branches (.guarded _ _ :: _), _, rfl => exact .inl (.push _ rfl)
  | .whileLoop _ _, _, rfl => exact .inl (.push _ rfl)
  | .forLoop line name index stop body, _, rfl =>
    exact .inl (level_ofPass line name index stop body)
  | .value value, first :: rest, rfl =>
    cases kind : first.isCall with
    | false => exact .inl ((level_resume value kind).below kind)
    | true =>
      obtain ⟨caller, rfl⟩ := exists_of_isCall kind
      exact .inr (.inr ⟨rfl, callsOf_call caller⟩)
  | .error error, first :: rest, rfl =>
    cases kind : first.isCall with
    | false =>
      rw [dropped_plain kind]
      exact .inl ((Level.refl _).below kind)
    | true =>
      obtain ⟨caller, rfl⟩ := exists_of_isCall kind
      exact .inr (.inr ⟨rfl, callsOf_call caller⟩)

/-- A call that is about to be made is refused exactly at the limit of the depth. -/
theorem next_call_eq_tooDeep_iff {line : Nat} {definition : Definition} {values : List Value} :
    State.next ⟨.call line definition values, waiting, machine⟩ =
        some ⟨.error ⟨line, .tooDeep⟩, waiting, machine⟩ ↔
      maximumDepth ≤ machine.depth := by
  rw [State.next, ofCall]
  by_cases deep : maximumDepth ≤ machine.depth
  · simp [deep]
  · simp [deep]

/-! ### Along a run -/

/-- **The depth counts the active calls above a base**, and stays within the limit if the base
does. -/
structure Counted (base : Nat) (state : State) : Prop where
  depth : state.machine.depth = base + state.calls
  bound : base ≤ maximumDepth → base + state.calls ≤ maximumDepth

theorem Counted.step {base : Nat} (counted : Counted base state) (step : Step state after) :
    Counted base after := by
  obtain ⟨depth, bound⟩ := counted
  rcases step_cases step with ⟨same, calls⟩ | ⟨below, deeper, calls⟩ | ⟨higher, calls⟩
  · have unchanged : after.calls = state.calls := calls
    refine ⟨by omega, fun base => ?_⟩
    have := bound base
    omega
  · exact ⟨by omega, fun _ => by omega⟩
  · refine ⟨by omega, fun base => ?_⟩
    have := bound base
    omega

theorem Counted.reaches {base : Nat} (counted : Counted base state)
    (reaches : Reaches state after) : Counted base after := by
  induction reaches with
  | refl => exact counted
  | tail _ step hypothesis => exact hypothesis.step step

/-- At the end of a run no call is active. -/
theorem Final.calls (final : Final state) : state.calls = 0 := by
  obtain ⟨focus, waiting, machine⟩ := state
  cases focus with
  | value value =>
    cases waiting with
    | nil => rfl
    | cons first rest => exact absurd final (Option.some_ne_none _)
  | error error =>
    cases waiting with
    | nil => rfl
    | cons first rest => exact absurd final (Option.some_ne_none _)
  | arguments _ _ _ rest => cases rest <;> exact absurd final (Option.some_ne_none _)
  | block statements _ => cases statements <;> exact absurd final (Option.some_ne_none _)
  | branches branches =>
    cases branches with
    | nil => exact absurd final (Option.some_ne_none _)
    | cons first rest => cases first; exact absurd final (Option.some_ne_none _)
  | _ => exact absurd final (Option.some_ne_none _)

end State

open State

/-- No call is active when an action begins. -/
theorem Action.counted_begin (action : Action) (machine : Machine) :
    Counted machine.depth (action.begin machine) := by
  cases action <;> exact ⟨rfl, id⟩

/-- **What steps realize gives the depth back**, after a result and after an error. -/
theorem Realizes.ends_depth {α : Type} {fuel : Nat} {arrive : α → Machine → State} {focus : Focus}
    {machine : Machine} {outcome : Outcome α}
    (level : ∀ value after, Level [] after (arrive value after))
    (realized : Realizes fuel [] arrive ⟨focus, [], machine⟩ outcome) :
    outcome.Ends fun after => after.depth = machine.depth := by
  have begun : Counted machine.depth ⟨focus, [], machine⟩ := ⟨rfl, id⟩
  match outcome, realized with
  | .done value after, reaches =>
    have counted := begun.reaches reaches
    rw [Outcome.Ends, ← (level value after).depth, counted.depth, (level value after).calls]
    rfl
  | .failed error after, reaches => exact (begun.reaches reaches).depth
  | .exhausted, _ => trivial

section Ends

variable (fuel : Nat) (machine : Machine)

theorem evaluate_ends_depth (expression : Expr) :
    (evaluate fuel expression machine).Ends fun after => after.depth = machine.depth :=
  (realizations fuel).evaluate.ends_depth fun _ _ => .refl _

theorem evaluateAll_ends_depth (expressions : List Expr) :
    (evaluateAll fuel expressions machine).Ends fun after => after.depth = machine.depth := by
  -- Arguments stand in a call; any one will do.
  have realized : Realizes fuel []
      (fun results after => ⟨.call 0 ⟨"", [], []⟩ ([] ++ results), [], after⟩)
      ⟨.arguments 0 ⟨"", [], []⟩ [] expressions, [], machine⟩
      (evaluateAll fuel expressions machine) :=
    (realizations fuel).evaluateAll
  exact realized.ends_depth fun _ _ => .refl _

theorem call_ends_depth (line : Nat) (definition : Definition) (values : List Value) :
    (call fuel line definition values machine).Ends fun after => after.depth = machine.depth :=
  (realizations fuel).call.ends_depth fun _ _ => .refl _

theorem execute_ends_depth (statement : Stmt) :
    (execute fuel statement machine).Ends fun after => after.depth = machine.depth :=
  (realizations fuel).execute.ends_depth fun _ _ => .refl _

theorem runBlock_ends_depth (statements : List Stmt) (last : Value) :
    (runBlock fuel statements last machine).Ends fun after => after.depth = machine.depth :=
  (realizations fuel).runBlock.ends_depth fun _ _ => .refl _

end Ends

/-- **The states of a session**: an interpreter that has not run before is asked for one thing after
another, each in any scope, and each when the one before has come to its end. -/
inductive Session (sink : Sink) : State → Prop
  | fresh (action : Action) (scope : Scope Value) :
      Session sink (action.begin { Machine.start sink with scope := scope })
  | step {state after : State} (before : Session sink state) (step : Step state after) :
      Session sink after
  | again {state : State} (before : Session sink state) (final : Final state) (action : Action)
      (scope : Scope Value) : Session sink (action.begin { state.machine with scope := scope })

theorem Session.counted {sink : Sink} {state : State} (session : Session sink state) :
    Counted 0 state := by
  induction session with
  | fresh action scope => exact action.counted_begin { Machine.start sink with scope := scope }
  | step _ step hypothesis => exact hypothesis.step step
  | @again state _ final action scope hypothesis =>
    have level : state.machine.depth = 0 := by rw [hypothesis.depth, final.calls]
    have begun := action.counted_begin { state.machine with scope := scope }
    rwa [show ({ state.machine with scope := scope } : Machine).depth = 0 from level] at begun

/-- **The depth counts the active calls.** In every state of every session it is the number of calls
entered and not yet left, at most the limit, and a call that is about to be made is refused exactly
if as many calls as the limit allows are active. Whatever is run, expressions (calls by name among
them), statements, calls and programs, gives the depth back as it found it. The steps of a session
are those of the evaluator: they end in a value or an error exactly if it does. -/
theorem depth_counts_calls :
    (∀ sink state, Session sink state →
      state.machine.depth = state.calls ∧ state.calls ≤ maximumDepth ∧
        ∀ line definition values, state.focus = .call line definition values →
          (state.next = some ⟨.error ⟨line, .tooDeep⟩, state.waiting, state.machine⟩ ↔
            state.calls = maximumDepth)) ∧
    (∀ fuel machine,
      (∀ expression, (evaluate fuel expression machine).Ends fun after =>
        after.depth = machine.depth) ∧
      (∀ statement, (execute fuel statement machine).Ends fun after =>
        after.depth = machine.depth) ∧
      (∀ line definition values, (call fuel line definition values machine).Ends fun after =>
        after.depth = machine.depth) ∧
      ∀ program, (interpret fuel program machine).Ends fun after => after.depth = machine.depth) ∧
    ∀ (action : Action) machine last, Reaches (action.begin machine) last ∧ Final last ↔
      ∃ fuel, (action.run fuel machine).final = some last := by
  refine ⟨?_, ?_, fun action machine last => Action.ends_iff⟩
  · intro sink state session
    obtain ⟨depth, bound⟩ := session.counted
    have limited := bound (Nat.zero_le _)
    refine ⟨by omega, by omega, ?_⟩
    intro line definition values about
    obtain ⟨focus, waiting, machine⟩ := state
    obtain rfl : focus = .call line definition values := about
    rw [next_call_eq_tooDeep_iff]
    have level : machine.depth = 0 + State.calls ⟨_, waiting, machine⟩ := depth
    omega
  · intro fuel machine
    refine ⟨evaluate_ends_depth fuel machine, execute_ends_depth fuel machine,
      call_ends_depth fuel machine, ?_⟩
    intro program
    exact (runBlock_ends_depth fuel machine program .nil).bind fun _ _ same => same

/-- A call of an empty function by a fresh interpreter, when it has just been entered. -/
def enteredCall : State := ofCall 1 ⟨"f", [], []⟩ [] [] (.start .unlimited)

/-- One call is active in a call that has just been entered, and the depth says so. -/
theorem depth_counts_calls_entered :
    Session .unlimited enteredCall ∧ enteredCall.calls = 1 ∧
      enteredCall.machine.depth = enteredCall.calls := by
  have session : Session .unlimited enteredCall :=
    .step (.fresh (.call 1 ⟨"f", [], []⟩ []) .empty) rfl
  exact ⟨session, rfl, (depth_counts_calls.1 .unlimited enteredCall session).1⟩

end Scriptlet
