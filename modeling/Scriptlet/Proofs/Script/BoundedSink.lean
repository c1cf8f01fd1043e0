/-
**A sink that is full cuts the output and ends the run.**

Run a program twice, once with a sink that takes everything and once with a sink for a number of
bytes. The runs go on in step as long as everything fits. The first value that does not fit is cut
where the sink is full, its line is reported, and nothing is written after that; so the output of
the bounded run is the beginning of the whole output, and the line is the one of the statement that
printed the first byte beyond.

* `Sink.withLimit`: the same bytes in a sink with a limit.
* `State.PrintsAt`: a value is about to be printed, and its bytes include a given one;
  `State.PrintsAt.unique`: no byte is printed twice.
* `lockstep_limitSink`: the two runs go on in step up to a value that does not fit.
* `runProgram_limited`: **the output of a bounded run is the beginning of the whole output.**
-/

import Scriptlet.Proofs.Script.Layout
import Scriptlet.Proofs.Stepping.Lockstep
import Scriptlet.Proofs.Stepping.Output

namespace Scriptlet

open State

/-- The bytes that printing a value writes. -/
def printedBytes (value : Value) : Array UInt8 := (value.printed ++ "\n").toUTF8.data

/-! ### Sinks with a limit -/

namespace Sink

/-- The same bytes in a sink with a limit. -/
def withLimit (limit : Nat) (refusal : Refusal) (sink : Sink) : Sink :=
  { sink with limit := some limit, refusal := refusal }

variable {sink : Sink} {limit : Nat} (refusal : Refusal) {bytes : Array UInt8}

/-- What fits is written as if there were no limit. -/
theorem write_of_fits (unlimited : sink.limit = none)
    (fits : sink.written.size + bytes.size ≤ limit) :
    (sink.withLimit limit refusal).write bytes =
      ((sink.write bytes).1.withLimit limit refusal, none) := by
  have room : min bytes.size (limit - sink.written.size) = bytes.size := by omega
  rw [write_unlimited unlimited]
  simp only [write, Sink.room, withLimit, room, Array.extract_size, if_true]

/-- What does not fit is cut at the limit and refused. -/
theorem write_of_full (within : sink.written.size ≤ limit)
    (full : limit < sink.written.size + bytes.size) :
    (sink.withLimit limit refusal).write bytes =
      (⟨(sink.written ++ bytes).take limit, some limit, refusal⟩, some refusal) := by
  have room : min bytes.size (limit - sink.written.size) = limit - sink.written.size := by omega
  have cut : limit - sink.written.size ≠ bytes.size := by omega
  have kept : (sink.written ++ bytes).take limit =
      sink.written ++ bytes.extract 0 (limit - sink.written.size) := by
    rw [Array.take_eq_extract, Array.extract_append, Array.extract_eq_self_of_le within,
      Nat.zero_sub]
  simp only [write, Sink.room, withLimit, room, kept, if_neg cut]

/-- Later bytes do not change the first ones. -/
theorem Extends.take {later : Sink} (extended : sink.Extends later)
    (enough : limit ≤ sink.written.size) :
    later.written.take limit = sink.written.take limit := by
  obtain ⟨more, whole⟩ := extended.written
  rw [← Array.toList_inj]
  simp only [Array.take_eq_extract, Array.toList_extract, List.extract_eq_take_drop, List.drop_zero,
    Nat.sub_zero, ← whole]
  exact List.take_append_of_le_length (by simpa using enough)

/-- A sink is not filled beyond its limit. -/
theorem size_write_le (limited : sink.limit = some limit) (within : sink.written.size ≤ limit)
    (bytes : Array UInt8) : (sink.write bytes).1.written.size ≤ limit := by
  simp only [write, Sink.room, limited, Array.size_append, Array.size_extract]
  omega

end Sink

/-! ### Printed bytes -/

/-- **A value is about to be printed by a statement on a line**, and its bytes include the one at
the given index of the whole output. -/
def State.PrintsAt (index line : Nat) (state : State) : Prop :=
  ∃ value rest, state.focus = .value value ∧ state.waiting = .print line :: rest ∧
    state.machine.sink.written.size ≤ index ∧
    index < state.machine.sink.written.size + (printedBytes value).size

section Printing

variable {index line other : Nat} {state after start : State}

/-- A value that is printed without a limit is written whole. -/
theorem State.PrintsAt.written {value : Value} {rest : List Waiting} {machine : Machine}
    (unlimited : machine.sink.limit = none)
    (step : Step ⟨.value value, .print line :: rest, machine⟩ after) :
    after.machine.sink.written = machine.sink.written ++ printedBytes value := by
  obtain rfl : ofPrint line value rest machine = after := Option.some.inj step
  rw [machine_ofPrint]
  show (machine.sink.write (printedBytes value)).1.written = _
  rw [Sink.write_unlimited unlimited]

theorem State.PrintsAt.size_lt (prints : PrintsAt index line state)
    (unlimited : state.machine.sink.limit = none) (step : Step state after) :
    index < after.machine.sink.written.size := by
  obtain ⟨focus, waiting, machine⟩ := state
  obtain ⟨value, rest, rfl, rfl, -, inside⟩ := prints
  rw [PrintsAt.written unlimited step, Array.size_append]
  exact inside

/-- What is about to be printed is printed before the run ends. -/
theorem State.PrintsAt.exists_step {last : State} (prints : PrintsAt index line state)
    (reaches : Reaches state last) (final : Final last) :
    ∃ middle, Step state middle ∧ Reaches middle last := by
  rcases reaches.cases_head with rfl | found
  · obtain ⟨focus, waiting, machine⟩ := state
    obtain ⟨value, rest, rfl, rfl, -⟩ := prints
    cases final
  · exact found

theorem State.step_rightUnique : Relator.RightUnique Step := fun _ _ _ first second =>
  Option.some.inj (first.symm.trans second)

/-- What prints a byte comes to no other state that prints it. -/
theorem State.PrintsAt.eq_of_reaches (prints : PrintsAt index line state)
    (unlimited : state.machine.sink.limit = none) (again : PrintsAt index other after)
    (reaches : Reaches state after) : line = other := by
  rcases reaches.cases_head with rfl | ⟨middle, step, later⟩
  · obtain ⟨value, rest, -, waits, -⟩ := prints
    obtain ⟨_, _, -, waitsToo, -⟩ := again
    rw [waits] at waitsToo
    cases waitsToo
    rfl
  · have written := prints.size_lt unlimited step
    have grown := (Reaches.extends later).size_le
    obtain ⟨_, _, -, -, before, -⟩ := again
    omega

/-- **No byte is printed twice.** -/
theorem State.PrintsAt.unique (unlimited : start.machine.sink.limit = none)
    (reaches : Reaches start state) (prints : PrintsAt index line state)
    (returns : Reaches start after) (again : PrintsAt index other after) : line = other := by
  have stateUnlimited := reaches.extends.limit.trans unlimited
  have afterUnlimited := returns.extends.limit.trans unlimited
  rcases reaches.total_of_right_unique step_rightUnique returns with later | earlier
  · exact prints.eq_of_reaches stateUnlimited again later
  · exact (again.eq_of_reaches afterUnlimited prints earlier).symm

end Printing

/-! ### In step -/

/-- The machine with a limit for its output. -/
def Machine.limitSink (limit : Nat) (refusal : Refusal) (machine : Machine) : Machine :=
  { machine with sink := machine.sink.withLimit limit refusal }

theorem Machine.unseen_limitSink (limit : Nat) (refusal : Refusal) :
    Unseen (limitSink limit refusal) :=
  ⟨fun _ => rfl, fun _ _ _ => rfl, fun _ _ => rfl⟩

/-- There is no limit, and the output is within one. -/
structure State.Within (limit : Nat) (state : State) : Prop where
  unlimited : state.machine.sink.limit = none
  size : state.machine.sink.written.size ≤ limit

section Bounded

variable {limit : Nat} {refusal : Refusal} {state : State}

theorem State.Within.respects (within : Within limit state)
    (fits : ¬ ∃ line, PrintsAt limit line state) :
    Respects (Machine.limitSink limit refusal) state := by
  obtain ⟨focus, waiting, machine⟩ := state
  refine ⟨?_, ?_, fun _ _ _ => rfl⟩
  · intro line definition values _
    exact ofCall_mapMachine Iff.rfl rfl
  · intro line value rest focused waits
    have room : machine.sink.written.size + (printedBytes value).size ≤ limit :=
      Nat.le_of_not_lt fun full => fits ⟨line, value, rest, focused, waits, within.size, full⟩
    have unlimited : machine.sink.limit = none := within.unlimited
    have bounded := Sink.write_of_fits refusal unlimited room
    rw [Sink.write_unlimited unlimited] at bounded
    exact ofPrint_mapMachine (Sink.write_unlimited unlimited) bounded rfl

/-- A limited sink is never filled beyond its limit, whatever a step does. -/
theorem Machine.Effect.size_le {machine after : Machine} (effect : machine.Effect after)
    (limited : machine.sink.limit = some limit) (within : machine.sink.written.size ≤ limit) :
    after.sink.written.size ≤ limit := by
  cases effect with
  | print text => exact Sink.size_write_le limited within _
  | nothing | assign | define | enter | leave => exact within

/-- **With a limit a run goes on in step**, up to a value that does not fit. -/
theorem lockstep_limitSink :
    Lockstep (Machine.limitSink limit refusal) (Within limit)
      fun state => ∃ line, PrintsAt limit line state where
  next := fun within fits =>
    next_mapMachine (Machine.unseen_limitSink limit refusal) (within.respects fits)
  kept := by
    intro state after within fits step
    have next := next_mapMachine (Machine.unseen_limitSink limit .full) (within.respects fits)
    rw [show state.next = some after from step] at next
    refine ⟨(effect_of_step step).extends.limit.trans within.unlimited, ?_⟩
    -- the bounded run takes the step, too, and stays within its limit
    exact (effect_of_step next).size_le rfl within.size

/-- A value that does not fit ends the bounded run on its line, and its output is the beginning of
everything that is written without the limit. -/
theorem State.PrintsAt.exists_reaches {line : Nat} {last : State}
    (prints : PrintsAt limit line state) (unlimited : state.machine.sink.limit = none)
    (reaches : Reaches state last) (final : Final last) (refusal : Refusal) :
    ∃ after, Reaches (state.mapMachine (Machine.limitSink limit refusal))
        ⟨.error ⟨line, .output refusal⟩, [], after⟩ ∧
      after.sink = ⟨last.machine.sink.written.take limit, some limit, refusal⟩ := by
  obtain ⟨middle, step, later⟩ := prints.exists_step reaches final
  obtain ⟨focus, waiting, machine⟩ := state
  obtain ⟨value, rest, rfl, rfl, within, full⟩ := prints
  have written := PrintsAt.written unlimited step
  have whole : last.machine.sink.written.take limit =
      (machine.sink.written ++ printedBytes value).take limit := by
    rw [← written]
    refine (Reaches.extends later).take ?_
    rw [written, Array.size_append]
    exact Nat.le_of_lt full
  obtain ⟨after, dropped, sink⟩ := exists_reaches_error ⟨line, .output refusal⟩
    (rest.map (Waiting.mapMachine (Machine.limitSink limit refusal)))
    { machine.limitSink limit refusal with
      sink := ⟨(machine.sink.written ++ printedBytes value).take limit, some limit, refusal⟩ }
  refine ⟨after, dropped.head ?_, by rw [sink, whole]⟩
  have refused : (machine.limitSink limit refusal).sink.writeLine value.printed =
      (⟨(machine.sink.written ++ printedBytes value).take limit, some limit, refusal⟩,
        some refusal) := Sink.write_of_full refusal within full
  show some (ofPrint line value _ (machine.limitSink limit refusal)) = _
  rw [ofPrint, refused]

end Bounded

/-! ### Whole programs -/

/-- **The statement on a line prints a byte of the output** of a program: the run comes to print a
value there whose bytes include it. -/
def PrintsByte (program : Program) (index line : Nat) : Prop :=
  ∃ state, Reaches ((Action.interpret program).begin (.start .unlimited)) state ∧
    state.PrintsAt index line

/-- A program ends as its run as an action does. -/
theorem exists_runProgram_iff {program : Program} {sink output : Sink}
    {error : Option ScriptError} :
    (∃ fuel, runProgram fuel program sink = .finished output error) ↔
      ∃ outcome, (Action.interpret program).EndsWith (.start sink) outcome ∧
        ScriptResult.ofFinal outcome.final = .finished output error := by
  simp only [runProgram_eq_ofFinal]
  constructor
  · rintro ⟨fuel, ended⟩
    refine ⟨_, ⟨fun running => ?_, fuel, rfl⟩, ended⟩
    rw [running] at ended
    cases ended
  · rintro ⟨_, ⟨-, fuel, rfl⟩, ended⟩
    exact ⟨fuel, ended⟩

/-- A change of the machine changes the output that a script leaves, and not its error. -/
theorem ScriptResult.ofFinal_mapMachine {last : State} {output : Sink} {error : Option ScriptError}
    (ended : ofFinal (some last) = .finished output error) (change : Machine → Machine) :
    output = last.machine.sink ∧
      ofFinal (some (last.mapMachine change)) = .finished (change last.machine).sink error := by
  obtain ⟨focus, waiting, machine⟩ := last
  cases focus <;> cases ended <;> exact ⟨rfl, rfl⟩

/-- **The bounded-sink law.** Let a program end with an output and a result when nothing limits its
output. With a sink for a number of bytes it ends, too. If the whole output fits, the output and the
result are the same; otherwise the output is the first bytes of the whole output, as many as fit,
and the result is the refusal of the sink, on the line of the one statement that prints the first
byte beyond. -/
theorem runProgram_limited (program : Program) (fuel : Nat) (output : Sink)
    (error : Option ScriptError) (ended : runProgram fuel program .unlimited = .finished output error)
    (limit : Nat) (refusal : Refusal) :
    (output.written.size ≤ limit → ∃ more, runProgram more program (.limited limit refusal) =
      .finished ⟨output.written, some limit, refusal⟩ error) ∧
    (limit < output.written.size → ∃ more line,
      runProgram more program (.limited limit refusal) =
        .finished ⟨output.written.take limit, some limit, refusal⟩
          (some (.runtime ⟨line, .output refusal⟩)) ∧
      ∀ other, PrintsByte program limit other ↔ other = line) := by
  obtain ⟨outcome, endsWith, result⟩ := exists_runProgram_iff.mp ⟨fuel, ended⟩
  obtain ⟨last, final, reaches⟩ := Action.endsWith_iff.mp endsWith
  rw [final] at result
  obtain ⟨rfl, bounded⟩ := ScriptResult.ofFinal_mapMachine result (Machine.limitSink limit refusal)
  have begun : ((Action.interpret program).begin (.start .unlimited)).mapMachine
      (Machine.limitSink limit refusal) =
        (Action.interpret program).begin (.start (.limited limit refusal)) :=
    Action.mapMachine_begin _ _ _
  have within : Within limit ((Action.interpret program).begin (.start .unlimited)) :=
    ⟨rfl, Nat.zero_le _⟩
  have lockstep : Lockstep (Machine.limitSink limit refusal) (Within limit) _ := lockstep_limitSink
  rcases lockstep.reaches within reaches with ⟨inside, same⟩ | ⟨middle, parted, later⟩
  · refine ⟨fun _ => exists_runProgram_iff.mpr ⟨outcome.mapMachine (Machine.limitSink limit refusal),
      ?_, ?_⟩, fun beyond => absurd inside.size (Nat.not_le_of_lt beyond)⟩
    · refine Action.endsWith_iff.mpr ⟨_, ?_, begun ▸ same⟩
      rw [Outcome.final_mapMachine, final]
      rfl
    · rw [Outcome.final_mapMachine, final]
      exact bounded
  · obtain ⟨line, prints⟩ := parted.parts
    have unlimited := parted.holds.unlimited
    have ending := Outcome.final_ends final
    constructor
    · intro fits
      obtain ⟨_, step, rest⟩ := prints.exists_step later ending
      have beyond := prints.size_lt unlimited step
      have grown := (Reaches.extends rest).size_le
      omega
    · intro _
      obtain ⟨after, stops, cut⟩ := prints.exists_reaches unlimited later ending refusal
      have refused : (Action.interpret program).EndsWith (.start (.limited limit refusal))
          (.failed ⟨line, .output refusal⟩ after) :=
        Action.endsWith_iff.mpr ⟨_, rfl, begun ▸ parted.changed.trans stops⟩
      obtain ⟨more, run⟩ := exists_runProgram_iff.mpr ⟨_, refused, rfl⟩
      refine ⟨more, line, cut ▸ run, fun other => ⟨?_, ?_⟩⟩
      · rintro ⟨state, returns, again⟩
        exact again.unique rfl returns parted.reaches prints
      · rintro rfl
        exact ⟨middle, parted.reaches, prints⟩

/-- Two lines of three bytes. They fit into a sink for six; in a sink for four the second line is
cut behind its first byte. -/
theorem runProgram_limited_cut :
    let program : Program := [.print 1 (.text 1 "ab"), .print 2 (.text 2 "cd")]
    let whole : Array UInt8 := #[97, 98, 10, 99, 100, 10]
    runProgram 4 program .unlimited = .finished ⟨whole, none, .full⟩ none ∧
      (∃ more, runProgram more program (.limited 6 .stalled) =
        .finished ⟨whole, some 6, .stalled⟩ none) ∧
      ∃ more line, runProgram more program (.limited 4 .stalled) =
          .finished ⟨whole.take 4, some 4, .stalled⟩ (some (.runtime ⟨line, .output .stalled⟩)) ∧
        ∀ other, PrintsByte program 4 other ↔ other = line := by
  intro program whole
  have ended : runProgram 4 program .unlimited = .finished ⟨whole, none, .full⟩ none := rfl
  exact ⟨ended, (runProgram_limited program 4 _ none ended 6 .stalled).1 (by decide),
    (runProgram_limited program 4 _ none ended 4 .stalled).2 (by decide)⟩

end Scriptlet
