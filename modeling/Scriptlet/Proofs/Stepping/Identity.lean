/-
**The identity of functions.**

A definition that runs takes the identity that is due and makes the next one due; nothing else
touches it. So along all states of an interpreter the identity that is due never falls, and it rises
wherever a function is made. Since functions are made only there and copied everywhere else, the
identity of a function tells when it was made.

* `State.Precedes`: what the identities that are due say about two states in order.
* `Recorded.precedes`: any two states of an interpreter are in order.
* `MadeAt`, `Known`: when a function was made, and the values that are or have been held.
* `Recorded.accounted`: **every function that was ever held was made at some time.**
* `functions_equal_iff_made_together`: **functions are equal exactly if the same run of the same
  definition made them**, and a definition that runs makes a function unlike all before it.
-/

import Scriptlet.Proofs.Stepping.Contents
import Scriptlet.Proofs.Stepping.Output

namespace Scriptlet

open State

/-! ### The identity that is due -/

theorem Machine.Effect.fresh_le {machine after : Machine} (effect : machine.Effect after) :
    machine.fresh ≤ after.fresh := by
  cases effect with
  | define => exact Nat.le_succ _
  | nothing | assign | print | enter | leave => exact Nat.le_refl _

namespace State

/-- **An earlier and a later state**: the identity that is due has not fallen, and it has risen if
the earlier state was about to make a function. -/
structure Precedes (earlier later : State) : Prop where
  due : earlier.machine.fresh ≤ later.machine.fresh
  made : ∀ function, earlier.Makes function → earlier.machine.fresh < later.machine.fresh

theorem Precedes.of_due {earlier middle later : State} (before : earlier.Precedes middle)
    (due : middle.machine.fresh ≤ later.machine.fresh) : earlier.Precedes later :=
  ⟨Nat.le_trans before.due due,
    fun function makes => Nat.lt_of_lt_of_le (before.made function makes) due⟩

theorem precedes_of_step {state after : State} (step : Step state after) :
    state.Precedes after := by
  constructor
  · exact (effect_of_step step).fresh_le
  · rintro function ⟨line, name, parameters, body, other, about, -, -⟩
    obtain ⟨focus, waiting, machine⟩ := state
    obtain rfl : focus = _ := about
    obtain rfl := Option.some.inj step
    exact Nat.lt_succ_self _

/-- The next program begins where the last one has ended, which made nothing any more. -/
theorem precedes_begin {state : State} (final : Final state) (program : Program) :
    state.Precedes ((Action.interpret program).begin state.report.interpreter.machine) := by
  refine ⟨Nat.le_refl _, ?_⟩
  rintro function ⟨line, name, parameters, body, after, -, step, -⟩
  exact absurd (final.symm.trans step) (Option.some_ne_none _).symm

/-- A step makes at most one function. -/
theorem Makes.unique {state : State} {first second : Value} (left : state.Makes first)
    (right : state.Makes second) : first = second := by
  obtain ⟨line, name, parameters, body, about, rfl⟩ := makes_iff.mp left
  obtain ⟨line', name', parameters', body', again, rfl⟩ := makes_iff.mp right
  cases about.symm.trans again
  rfl

theorem Makes.identity {state : State} {identity : Nat} {definition : Definition}
    (makes : state.Makes (.function identity definition)) : identity = state.machine.fresh := by
  obtain ⟨line, name, parameters, body, -, same⟩ := makes_iff.mp makes
  cases same
  rfl

theorem HoldsOnly.imp {good better : Value → Prop} {state : State} (held : state.HoldsOnly good)
    (implies : ∀ value, good value → better value) : state.HoldsOnly better :=
  ⟨fun value shown => implies value (held.focus value shown),
    fun first member value kept => implies value (held.waiting first member value kept),
    fun value stored => implies value (held.scope value stored)⟩

end State

/-! ### Along all states of an interpreter -/

/-- The function was made at a time of the past. -/
def MadeAt (past : List State) (time : Nat) (function : Value) : Prop :=
  ∃ moment, past[time]? = some moment ∧ moment.Makes function

/-- A function that was made at some time, or a value of another kind. -/
def Accounted (past : List State) (value : Value) : Prop :=
  value.kind = .function → ∃ time, MadeAt past time value

/-- A value that is held, or has been held before. -/
def Known (past : List State) (state : State) (value : Value) : Prop :=
  ∃ moment ∈ past ++ [state], moment.Holds value

section Records

variable {accepted : Program → Prop} {sink : Sink} {past : List State} {state : State}

/-- At one time at most one function is made. -/
theorem MadeAt.unique {time : Nat} {first second : Value} (left : MadeAt past time first)
    (right : MadeAt past time second) : first = second := by
  obtain ⟨moment, here, makes⟩ := left
  obtain ⟨other, there, creates⟩ := right
  obtain rfl := Option.some.inj (here.symm.trans there)
  exact makes.unique creates

theorem MadeAt.concat {time : Nat} {function : Value} (made : MadeAt past time function) :
    MadeAt (past ++ [state]) time function := by
  obtain ⟨moment, here, makes⟩ := made
  obtain ⟨inside, -⟩ := List.getElem?_eq_some_iff.mp here
  exact ⟨moment, (List.getElem?_append_left inside).trans here, makes⟩

theorem madeAt_length {function : Value} (makes : state.Makes function) :
    MadeAt (past ++ [state]) past.length function :=
  ⟨state, List.getElem?_concat_length, makes⟩

theorem Accounted.of_kind (value : Value) (plain : value.kind ≠ .function) : Accounted past value :=
  fun kind => absurd kind plain

theorem Accounted.concat {value : Value} (accounted : Accounted past value) :
    Accounted (past ++ [state]) value := by
  intro kind
  obtain ⟨time, made⟩ := accounted kind
  exact ⟨time, made.concat⟩

/-- What is accounted for stays so, and the next state may count on the one before it. -/
theorem accounted_concat {after : State}
    (before : ∀ moment ∈ past ++ [state], moment.HoldsOnly (Accounted past))
    (next : state.HoldsOnly (Accounted (past ++ [state])) →
      after.HoldsOnly (Accounted (past ++ [state]))) :
    ∀ moment ∈ past ++ [state] ++ [after], moment.HoldsOnly (Accounted (past ++ [state])) := by
  have kept : ∀ moment ∈ past ++ [state], moment.HoldsOnly (Accounted (past ++ [state])) :=
    fun moment member => (before moment member).imp fun _ => Accounted.concat
  intro moment member
  rcases List.mem_append.mp member with earlier | now
  · exact kept moment earlier
  · obtain rfl := List.mem_singleton.mp now
    exact next (kept state (List.mem_append_right _ List.mem_cons_self))

/-- A state that the last one precedes is preceded by all. -/
theorem pairwise_concat {after : State} (ordered : (past ++ [state]).Pairwise Precedes)
    (last : state.Precedes after) : (past ++ [state] ++ [after]).Pairwise Precedes := by
  refine List.pairwise_append.mpr ⟨ordered, List.pairwise_singleton _ _, ?_⟩
  intro earlier member later single
  obtain rfl := List.mem_singleton.mp single
  rcases List.mem_append.mp member with before | now
  · have behind := (List.pairwise_append.mp ordered).2.2 earlier before state List.mem_cons_self
    exact behind.of_due last.due
  · obtain rfl := List.mem_singleton.mp now
    exact last

/-- **Any two states of an interpreter are in order.** -/
theorem Recorded.precedes (recorded : Recorded accepted sink past state) :
    (past ++ [state]).Pairwise Precedes := by
  induction recorded with
  | fresh => exact List.pairwise_singleton _ _
  | step _ step hypothesis => exact pairwise_concat hypothesis (precedes_of_step step)
  | again _ final _ hypothesis => exact pairwise_concat hypothesis (precedes_begin final _)

/-- **Every function that was ever held was made at some time.** -/
theorem Recorded.accounted (recorded : Recorded accepted sink past state) :
    ∀ moment ∈ past ++ [state], moment.HoldsOnly (Accounted past) := by
  induction recorded with
  | @fresh program _ =>
    intro moment member
    obtain rfl := List.mem_singleton.mp member
    exact holdsOnly_new Accounted.of_kind program sink
  | @step past _ _ _ step hypothesis =>
    refine accounted_concat hypothesis fun held => ?_
    refine held.step Accounted.of_kind (fun function makes _ => ?_) step
    exact ⟨past.length, madeAt_length makes⟩
  | @again _ _ program _ _ _ hypothesis =>
    refine accounted_concat hypothesis fun held => ?_
    exact held.again Accounted.of_kind program

/-- A function of a record was made at a time. -/
theorem Recorded.exists_madeAt (recorded : Recorded accepted sink past state) {identity : Nat}
    {definition : Definition} (known : Known past state (.function identity definition)) :
    ∃ time, MadeAt past time (.function identity definition) := by
  obtain ⟨moment, member, held⟩ := known
  exact holdsOnly_iff.mp (recorded.accounted moment member) _ held rfl

/-- **At two times no two functions of one identity are made.** -/
theorem Recorded.time_unique (recorded : Recorded accepted sink past state) {first second : Nat}
    {identity : Nat} {definition another : Definition}
    (left : MadeAt past first (.function identity definition))
    (right : MadeAt past second (.function identity another)) : first = second := by
  have ordered := (List.pairwise_append.mp recorded.precedes).1
  -- The earlier of two times would have made another identity due at the later one.
  have apart : ∀ {early late : Nat} {one other : Definition},
      MadeAt past early (.function identity one) → MadeAt past late (.function identity other) →
        ¬ early < late := by
    rintro early late one other ⟨before, here, makes⟩ ⟨behind, there, again⟩ less
    obtain ⟨inside, rfl⟩ := List.getElem?_eq_some_iff.mp here
    obtain ⟨within, rfl⟩ := List.getElem?_eq_some_iff.mp there
    have rises := (List.pairwise_iff_getElem.mp ordered early late inside within less).made _ makes
    rw [← makes.identity, ← again.identity] at rises
    exact Nat.lt_irrefl _ rises
  exact Nat.le_antisymm (Nat.not_lt.mp (apart right left)) (Nat.not_lt.mp (apart left right))

/-- A function that is known has an identity below the one that is due. -/
theorem Recorded.identity_lt (recorded : Recorded accepted sink past state) {identity : Nat}
    {definition : Definition} (known : Known past state (.function identity definition)) :
    identity < state.machine.fresh := by
  obtain ⟨time, moment, here, makes⟩ := recorded.exists_madeAt known
  have before : moment ∈ past := List.mem_of_getElem? here
  have ordered := (List.pairwise_append.mp recorded.precedes).2.2 moment before state
    List.mem_cons_self
  rw [makes.identity]
  exact ordered.made _ makes

/-- Two functions are equal if they have one identity. -/
theorem binary_equal_function {identity other : Nat} {definition another : Definition} :
    Value.binary .equal (.function identity definition) (.function other another) =
      .ok (.boolean (decide (identity = other))) := rfl

/-- A new function is unlike every value but functions of its identity. -/
theorem binary_equal_eq_false {identity : Nat} {definition : Definition} {value : Value}
    (new : ∀ another, value ≠ .function identity another) :
    Value.binary .equal (.function identity definition) value = .ok (.boolean false) := by
  cases value with
  | function other another =>
    have different : identity ≠ other := fun same => new another (same ▸ rfl)
    rw [binary_equal_function, decide_eq_false different]
  | _ => rfl

/-- **Functions are equal exactly if the same run of the same definition made them.** Whatever
programs an interpreter runs, in every state every function that it holds, or has ever held, was
made at one time and no other, by the definition that has its name, parameters and body. Two of them
are equal exactly if they were made at the same time, and then they are the same function. A
definition that is about to run stores a function that is unlike every value held so far. The steps
of a program end with a report exactly if the interpreter gives it. -/
theorem functions_equal_iff_made_together
    (recorded : Recorded (fun _ => True) sink past state) :
    (∀ identity definition, Known past state (.function identity definition) →
      ∃ time moment line, past[time]? = some moment ∧
        moment.focus = .execute
          (.define line definition.name definition.parameters definition.body) ∧
        moment.Makes (.function identity definition) ∧
        ∀ other, MadeAt past other (.function identity definition) → other = time) ∧
    (∀ identity definition other another, Known past state (.function identity definition) →
      Known past state (.function other another) →
        (Value.binary .equal (.function identity definition) (.function other another) =
            .ok (.boolean true) ↔
          ∃ time, MadeAt past time (.function identity definition) ∧
            MadeAt past time (.function other another)) ∧
        (Value.binary .equal (.function identity definition) (.function other another) =
            .ok (.boolean true) →
          definition = another)) ∧
    (∀ line name parameters body, state.focus = .execute (.define line name parameters body) →
      ∃ after identity, Step state after ∧
        after.machine.scope.table.get? name = some (.function identity ⟨name, parameters, body⟩) ∧
        ∀ value, Known past state value →
          Value.binary .equal (.function identity ⟨name, parameters, body⟩) value =
            .ok (.boolean false)) ∧
    ∀ (interpreter : Interpreter) program report,
      (∃ fuel, interpreter.interpret fuel program = some report) ↔
        ∃ last, Reaches ((Action.interpret program).begin interpreter.machine) last ∧
          Final last ∧ last.report = report := by
  refine ⟨?_, ?_, ?_, fun interpreter program report => Interpreter.exists_interpret_iff⟩
  · intro identity definition known
    obtain ⟨time, moment, here, makes⟩ := recorded.exists_madeAt known
    obtain ⟨line, name, parameters, body, about, same⟩ := makes_iff.mp makes
    cases same
    refine ⟨time, moment, line, here, about, makes, fun other made => ?_⟩
    exact recorded.time_unique made ⟨moment, here, makes⟩
  · intro identity definition other another known seen
    obtain ⟨time, made⟩ := recorded.exists_madeAt known
    obtain ⟨again, created⟩ := recorded.exists_madeAt seen
    have together : identity = other → time = again := by
      rintro rfl
      exact recorded.time_unique made created
    have equal : Value.binary .equal (.function identity definition) (.function other another) =
        .ok (.boolean true) ↔ identity = other := by
      simp [binary_equal_function]
    rw [equal]
    refine ⟨⟨fun same => ⟨time, made, together same ▸ created⟩, ?_⟩, fun same => ?_⟩
    · rintro ⟨shared, left, right⟩
      cases left.unique right
      rfl
    · cases made.unique (together same ▸ created)
      rfl
  · intro line name parameters body about
    have makes := makes_iff.mpr ⟨line, name, parameters, body, about, rfl⟩
    obtain ⟨line', name', parameters', body', after, same, step, stored⟩ := makes
    cases about.symm.trans same
    refine ⟨after, state.machine.fresh, step, stored, fun value known => ?_⟩
    refine binary_equal_eq_false ?_
    rintro another rfl
    exact Nat.lt_irrefl _ (recorded.identity_lt known)

end Records

/-! ### A function that is defined twice -/

/-- A program that defines one function twice. -/
def definedTwice : Program := [.define 1 "f" [] [], .define 2 "f" [] []]

/-- The states before the second definition, and the state in which it is about to run. -/
def beforeSecond : List State × State :=
  let start : Machine := .start .unlimited
  let defined : Machine := start.define ⟨"f", [], []⟩
  let rest : List Stmt := [.define 2 "f" [] []]
  ([⟨.block definedTwice .nil, [.discard], start⟩,
    ⟨.execute (.define 1 "f" [] []), [.statement rest, .discard], start⟩,
    ⟨.value .nil, [.statement rest, .discard], defined⟩,
    ⟨.block rest .nil, [.discard], defined⟩],
   ⟨.execute (.define 2 "f" [] []), [.statement [], .discard], defined⟩)

/-- The second definition stores a function that is unlike the first one. -/
theorem functions_equal_iff_made_together_twice :
    Recorded (fun _ => True) .unlimited beforeSecond.1 beforeSecond.2 ∧
      Known beforeSecond.1 beforeSecond.2 (.function 0 ⟨"f", [], []⟩) ∧
      ∃ after identity, Step beforeSecond.2 after ∧
        after.machine.scope.table.get? "f" = some (.function identity ⟨"f", [], []⟩) ∧
        Value.binary .equal (.function identity ⟨"f", [], []⟩) (.function 0 ⟨"f", [], []⟩) =
          .ok (.boolean false) := by
  have begun : Recorded (fun _ => True) .unlimited [] ((Action.interpret definedTwice).begin
      (Interpreter.new .unlimited).machine) := .fresh trivial
  have recorded : Recorded (fun _ => True) .unlimited beforeSecond.1 beforeSecond.2 :=
    (((begun.step rfl).step rfl).step rfl).step rfl
  have known : Known beforeSecond.1 beforeSecond.2 (.function 0 ⟨"f", [], []⟩) := by
    refine ⟨beforeSecond.2, List.mem_append_right _ List.mem_cons_self, .inr (.inr ?_)⟩
    refine ⟨_, List.mem_cons_self, "f", ?_⟩
    exact (Table.get?_insert ..).trans (if_pos rfl)
  obtain ⟨-, -, new, -⟩ := functions_equal_iff_made_together recorded
  obtain ⟨after, identity, step, stored, unlike⟩ := new 2 "f" [] [] rfl
  exact ⟨recorded, known, after, identity, step, stored, unlike _ known⟩

end Scriptlet
