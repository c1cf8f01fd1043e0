/-
**A loop over a range is the block of its passes.**

The integers of a range are fixed before the first pass. So a loop may be written out: for each
integer in ascending order an assignment of its number, and behind it the statements of the body.
What the body does to the variable, to other names or to the loop's own function has no say in which
integers follow, because the block has no variable to look at. Only one thing cannot be written out:
an integer that is no number of its own is refused before it is bound, and the loop ends there.

* `Range.integers`: the integers of a range, in ascending order; `Range.mem_integers_iff`.
* `unrolled`: the passes of a loop as one block; `refusal`: the error behind them.
* `executes_unrolled_cons_iff`: one pass, and the passes behind it.
* `runFor_answer_iff`: **a loop answers as its passes do.**
* `forLoop_unrolls`: **so does the statement of a loop**, in whatever state its range was read.
-/

import Mathlib.Data.Int.Range
import Scriptlet.Proofs.Number.Exact
import Scriptlet.Proofs.Script.Session

namespace Scriptlet

open scoped Powers

/-! ### The integers of a range -/

theorem intRange_cons {index stop : ℤ} (inside : index < stop) :
    Int.range index stop = index :: Int.range (index + 1) stop := by
  obtain ⟨count, size⟩ : ∃ count : ℕ, (stop - index).toNat = count + 1 :=
    ⟨(stop - index).toNat - 1, by omega⟩
  have fewer : (stop - (index + 1)).toNat = count := by omega
  unfold Int.range
  rw [size, fewer, List.range_succ_eq_map, List.map_cons, List.map_map]
  congr 1
  · simp
  · refine List.map_congr_left fun offset _ => ?_
    show index + ((offset + 1 : ℕ) : ℤ) = index + 1 + offset
    omega

theorem intRange_nil {index stop : ℤ} (outside : ¬ index < stop) : Int.range index stop = [] := by
  have none : (stop - index).toNat = 0 := by omega
  rw [Int.range, none]
  rfl

namespace Range

variable (range : Range)

/-- **The integers of a range** in ascending order. -/
def integers : List ℤ := Int.range range.first.toInt range.stop

/-- The last integer that a range may reach: its last bound, or the one before it. -/
theorem mem_integers_iff (index : ℤ) :
    index ∈ range.integers ↔
      range.first.toInt ≤ index ∧
        match range.kind with
        | .inclusive => index ≤ range.last.toInt
        | .exclusive => index < range.last.toInt := by
  rw [integers, Int.mem_range_iff, stop]
  cases range.kind with
  | inclusive => exact and_congr_right fun _ => Int.lt_add_one_iff
  | exclusive => exact Iff.rfl

theorem integers_ascending : range.integers.Pairwise (· < ·) := by
  unfold integers Int.range
  refine List.pairwise_map.mpr (List.pairwise_lt_range.imp fun less => ?_)
  omega

/-- No bound is beyond the 64-bit integers, and neither is what a range stops at, but for one. -/
theorem bounds : -2 ^ 63 ≤ range.first.toInt ∧ range.stop ≤ 2 ^ 63 := by
  have low := range.first.le_toInt
  have high := range.last.toInt_lt
  refine ⟨low, ?_⟩
  unfold stop
  cases range.kind with
  | inclusive => exact Int.add_one_le_of_lt high
  | exclusive => exact high.le

end Range

/-! ### Passes -/

/-- **An integer is a number of its own**, as all are up to a magnitude. -/
def isExact (index : ℤ) : Bool := index.natAbs ≤ Number.largestExactInteger

/-- The number of such an integer is that integer. -/
theorem value?_of_isExact {index : ℤ} (exactly : isExact index) :
    (Number.ofInt index).value? = some (index : ℚ) := by
  have small : index.natAbs < 2 ^ significandBits := by
    have bound := of_decide_eq_true exactly
    unfold Number.largestExactInteger at bound
    have positive : 0 < 2 ^ significandBits := Nat.two_pow_pos _
    omega
  have wide : 2 ^ significandBits ≤ 2 ^ 63 := by decide
  exact Number.value?_ofInt (.of_lt small) (small.le.trans wide)

/-- The number of the next pass of a loop, or its refusal. -/
theorem passNumber_eq {index : ℤ} (low : -2 ^ 63 ≤ index) (high : index < 2 ^ 63) :
    passNumber index =
      if isExact index then .ok (.ofInt index)
      else .error (.conversion (.inexact (.ofInt index))) := by
  have same : (Int64.ofInt index).toInt = index := Int64.toInt_ofInt_of_le low high
  unfold passNumber Number.ofInt64
  rw [same]
  by_cases exactly : index.natAbs ≤ Number.largestExactInteger
  · rw [if_pos exactly, isExact, decide_eq_true exactly]
    rfl
  · rw [if_neg exactly, isExact, decide_eq_false exactly]
    rfl

/-- The assignment of an integer to the variable of a loop. -/
def passAssignment (line : Nat) (name : String) (index : ℤ) : Stmt :=
  .expression line (.assign line name (.number line (.ofInt index)))

/-- **One pass of a loop, written out**: its integer is assigned, and the body follows. -/
def passOf (line : Nat) (name : String) (body : List Stmt) (index : ℤ) : List Stmt :=
  passAssignment line name index :: body

/-- **The passes of a loop as one block.** -/
def unrolled (line : Nat) (name : String) (body : List Stmt) (indices : List ℤ) : List Stmt :=
  indices.flatMap (passOf line name body)

/-- **The error behind the passes of a loop**: that of the first integer that is no number of its
own, if there is one. -/
def refusal (line : Nat) (indices : List ℤ) : Option RuntimeError :=
  (indices.find? fun index => !isExact index).map fun index =>
    ⟨line, .conversion (.inexact (.ofInt index))⟩

theorem refusal_cons_of_isExact {line : Nat} {index : ℤ} {indices : List ℤ}
    (exactly : isExact index) : refusal line (index :: indices) = refusal line indices := by
  simp [refusal, exactly]

theorem refusal_cons_of_not_isExact {line : Nat} {index : ℤ} {indices : List ℤ}
    (beyond : ¬ isExact index) :
    refusal line (index :: indices) = some ⟨line, .conversion (.inexact (.ofInt index))⟩ := by
  simp [refusal, beyond]

/-! ### Outcomes in two parts -/

namespace Outcome

variable {α β : Type} {outcome : Outcome α} {next : α → Machine → Outcome β}

theorem exists_of_bind_eq_done {value : β} {after : Machine}
    (done : outcome.bind next = .done value after) :
    ∃ first middle, outcome = .done first middle ∧ next first middle = .done value after := by
  cases outcome with
  | done first middle => exact ⟨first, middle, rfl, done⟩
  | failed failure middle => cases done
  | exhausted => cases done

/-- **What an outcome in two parts answers**: what the second part does, or the error of the
first. -/
theorem answer_bind_iff {error : Option RuntimeError} {after : Machine} :
    (outcome.bind next).Answer error after ↔
      (∃ value middle, outcome = .done value middle ∧ (next value middle).Answer error after) ∨
        ∃ failure, error = some failure ∧ outcome = .failed failure after := by
  cases outcome with
  | done value middle => simp
  | failed failure middle =>
    constructor
    · rintro ⟨⟩
      exact .inr ⟨failure, rfl, rfl⟩
    · rintro (⟨_, _, ⟨⟩, _⟩ | ⟨_, rfl, ⟨⟩⟩)
      exact .failed _ _
  | exhausted =>
    constructor
    · rintro ⟨⟩
    · rintro (⟨_, _, ⟨⟩, _⟩ | ⟨_, _, ⟨⟩⟩)

theorem Answer.exists_done {after : Machine} (answer : outcome.Answer none after) :
    ∃ value, outcome = .done value after := by
  cases answer
  exact ⟨_, rfl⟩

theorem Answer.eq_failed {failure : RuntimeError} {after : Machine}
    (answer : outcome.Answer (some failure) after) : outcome = .failed failure after := by
  cases answer
  rfl

end Outcome

/-! ### Passes of a block -/

section Passes

variable {line : Nat} {name : String} {body : List Stmt} {index stop : ℤ} {indices : List ℤ}
  {machine after : Machine} {error : Option RuntimeError}

/-- The assignment of a pass does nothing but bind the number. -/
theorem executes_passOf_iff {rest : List Stmt} :
    Executes (passOf line name body index ++ rest) machine error after ↔
      Executes (body ++ rest) (machine.assign name (.number (.ofInt index))) error after := by
  have bound : ∀ fuel, execute fuel (passAssignment line name index) machine = .exhausted ∨
      execute fuel (passAssignment line name index) machine =
        .done (.number (.ofInt index)) (machine.assign name (.number (.ofInt index))) := by
    rintro (_ | _ | _ | fuel)
    · exact .inl rfl
    · exact .inl rfl
    · exact .inl rfl
    · exact .inr rfl
  constructor
  · intro executes
    cases executes with
    | @fails fuel _ _ _ _ _ failed =>
      rcases bound fuel with none | done
      · cases failed.symm.trans none
      · cases failed.symm.trans done
    | @cons fuel _ _ _ _ _ _ _ ended later =>
      rcases bound fuel with none | done
      · cases ended.symm.trans none
      · cases ended.symm.trans done
        exact later
  · intro later
    have done : execute 3 (passAssignment line name index) machine =
        .done (.number (.ofInt index)) (machine.assign name (.number (.ofInt index))) := rfl
    exact .cons done later

/-- **One pass and the passes behind it**, unless the body fails. -/
theorem executes_unrolled_cons_iff :
    Executes (unrolled line name body (index :: indices)) machine error after ↔
      (∃ middle, Executes body (machine.assign name (.number (.ofInt index))) none middle ∧
        Executes (unrolled line name body indices) middle error after) ∨
      ∃ failure, error = some failure ∧
        Executes body (machine.assign name (.number (.ofInt index))) (some failure) after := by
  unfold unrolled
  rw [List.flatMap_cons, executes_passOf_iff, executes_append_iff]

theorem executes_nil_iff : Executes [] machine error after ↔ error = none ∧ after = machine := by
  constructor
  · rintro ⟨⟩
    exact ⟨rfl, rfl⟩
  · rintro ⟨rfl, rfl⟩
    exact .nil

/-! ### Loops -/

/-- A loop has no value of its own. -/
theorem runFor_value {fuel : Nat} {value : Value}
    (done : runFor fuel line name index stop body machine = .done value after) : value = .nil := by
  induction fuel generalizing index machine with
  | zero => cases done
  | succ fuel hypothesis =>
    rw [runFor] at done
    by_cases inside : index < stop
    · rw [if_pos inside] at done
      obtain ⟨number, begun, -, pass⟩ := Outcome.exists_of_bind_eq_done done
      obtain ⟨last, middle, -, later⟩ := Outcome.exists_of_bind_eq_done pass
      exact hypothesis later
    · rw [if_neg inside] at done
      cases done
      rfl

/-- A pass of a loop runs its body and goes on with the next integer, or is refused. -/
theorem runFor_pass (low : -2 ^ 63 ≤ index) (high : stop ≤ 2 ^ 63) (inside : index < stop)
    (fuel : Nat) :
    runFor (fuel + 1) line name index stop body machine =
      if isExact index then
        (runBlock fuel body .nil (machine.assign name (.number (.ofInt index)))).bind
          fun _ middle => runFor fuel line name (index + 1) stop body middle
      else .failed ⟨line, .conversion (.inexact (.ofInt index))⟩ machine := by
  rw [runFor, if_pos inside, passNumber_eq low (inside.trans_le high)]
  by_cases exactly : isExact index
  · rw [if_pos exactly, if_pos exactly]
    rfl
  · rw [if_neg exactly, if_neg exactly]
    rfl

/-- What a loop answers, its passes do, up to the first integer that is refused. -/
theorem executes_of_runFor {fuel : Nat} (low : -2 ^ 63 ≤ index) (high : stop ≤ 2 ^ 63)
    (answer : (runFor fuel line name index stop body machine).Answer error after) :
    ∃ failure, Executes (unrolled line name body ((Int.range index stop).takeWhile isExact)) machine
        failure after ∧ error = failure.or (refusal line (Int.range index stop)) := by
  induction fuel generalizing index machine with
  | zero => cases answer
  | succ fuel hypothesis =>
    by_cases inside : index < stop
    · rw [runFor_pass low high inside] at answer
      rw [intRange_cons inside]
      by_cases exactly : isExact index
      · rw [if_pos exactly, Outcome.answer_bind_iff] at answer
        rw [List.takeWhile_cons_of_pos exactly, refusal_cons_of_isExact exactly]
        rcases answer with ⟨last, middle, pass, later⟩ | ⟨failure, rfl, failed⟩
        · obtain ⟨failure, executes, same⟩ := hypothesis (by omega) later
          have front := executes_of_runBlock (pass ▸ Outcome.Answer.done last middle)
          exact ⟨failure, executes_unrolled_cons_iff.mpr (.inl ⟨middle, front, executes⟩), same⟩
        · have front := executes_of_runBlock (failed ▸ Outcome.Answer.failed failure after)
          exact ⟨some failure, executes_unrolled_cons_iff.mpr (.inr ⟨failure, rfl, front⟩), rfl⟩
      · rw [if_neg exactly] at answer
        cases answer
        rw [List.takeWhile_cons_of_neg exactly, refusal_cons_of_not_isExact exactly]
        exact ⟨none, .nil, rfl⟩
    · rw [runFor, if_neg inside] at answer
      cases answer
      rw [intRange_nil inside]
      exact ⟨none, .nil, rfl⟩

/-- What the passes of a loop do, the loop answers, if there is enough fuel. -/
theorem exists_runFor_of_executes {failure : Option RuntimeError} (low : -2 ^ 63 ≤ index)
    (high : stop ≤ 2 ^ 63)
    (executes : Executes (unrolled line name body ((Int.range index stop).takeWhile isExact))
      machine failure after) :
    ∃ fuel, (runFor fuel line name index stop body machine).Answer
      (failure.or (refusal line (Int.range index stop))) after := by
  -- the induction is on the number of integers that are left
  obtain ⟨count, size⟩ : ∃ count, (stop - index).toNat = count := ⟨_, rfl⟩
  induction count generalizing index machine with
  | zero =>
    have outside : ¬ index < stop := by omega
    rw [intRange_nil outside] at executes ⊢
    obtain ⟨rfl, rfl⟩ := executes_nil_iff.mp executes
    refine ⟨1, ?_⟩
    rw [runFor, if_neg outside]
    exact .done _ _
  | succ count hypothesis =>
    have inside : index < stop := by omega
    rw [intRange_cons inside] at executes ⊢
    by_cases exactly : isExact index
    · rw [List.takeWhile_cons_of_pos exactly, executes_unrolled_cons_iff] at executes
      rw [refusal_cons_of_isExact exactly]
      rcases executes with ⟨middle, front, behind⟩ | ⟨failed, rfl, front⟩
      · obtain ⟨fuel, pass⟩ := front.exists_runBlock .nil
        obtain ⟨more, later⟩ := hypothesis (by omega) behind (by omega)
        -- one fuel for both parts: each keeps its answer with the larger one
        have first := pass.kept (runBlock_mono (Nat.le_max_left fuel more) ..)
        have second := later.kept (runFor_mono (Nat.le_max_right fuel more))
        refine ⟨max fuel more + 1, ?_⟩
        rw [runFor_pass low high inside, if_pos exactly, Outcome.answer_bind_iff]
        obtain ⟨last, done⟩ := first.exists_done
        exact .inl ⟨last, middle, done, second⟩
      · obtain ⟨fuel, pass⟩ := front.exists_runBlock .nil
        refine ⟨fuel + 1, ?_⟩
        rw [runFor_pass low high inside, if_pos exactly, Outcome.answer_bind_iff]
        exact .inr ⟨failed, rfl, pass.eq_failed⟩
    · rw [List.takeWhile_cons_of_neg exactly] at executes
      obtain ⟨rfl, rfl⟩ := executes_nil_iff.mp executes
      refine ⟨1, ?_⟩
      rw [runFor_pass low high inside, if_neg exactly, refusal_cons_of_not_isExact exactly]
      exact .failed _ _

/-- **A loop answers as its passes do**: with the error that ends them, or with that of the first
integer that is refused behind them. -/
theorem runFor_answer_iff (low : -2 ^ 63 ≤ index) (high : stop ≤ 2 ^ 63) :
    (∃ fuel, (runFor fuel line name index stop body machine).Answer error after) ↔
      ∃ failure, Executes (unrolled line name body ((Int.range index stop).takeWhile isExact))
          machine failure after ∧ error = failure.or (refusal line (Int.range index stop)) := by
  constructor
  · rintro ⟨fuel, answer⟩
    exact executes_of_runFor low high answer
  · rintro ⟨failure, executes, rfl⟩
    exact exists_runFor_of_executes low high executes

end Passes

/-! ### The statement of a loop -/

section Statement

variable {line : Nat} {name : String} {iterand : Expr} {body : List Stmt} {range : Range}
  {begun machine after : Machine} {error : Option RuntimeError} {fuel : Nat}

/-- A statement whose range has been read goes on with the loop. -/
theorem forLoop_answer_iff
    (evaluated : evaluate fuel iterand begun = .done (.range range) machine) :
    (∃ fuel, (execute fuel (.forLoop line name iterand body) begun).Answer error after) ↔
      ∃ fuel, (runFor fuel line name range.first.toInt range.stop body machine).Answer error
        after := by
  have same : ∀ {more}, fuel ≤ more → execute (more + 1) (.forLoop line name iterand body) begun =
      runFor more line name range.first.toInt range.stop body machine := by
    intro more enough
    have kept := evaluate_mono enough iterand begun
    rw [evaluated] at kept
    rcases kept with none | read
    · cases none
    · rw [execute, read]
      rfl
  constructor
  · rintro ⟨more, answer⟩
    refine ⟨max fuel more, ?_⟩
    rw [← same (Nat.le_max_left ..)]
    exact answer.kept (execute_mono (Nat.le_succ_of_le (Nat.le_max_right ..)) ..)
  · rintro ⟨more, answer⟩
    refine ⟨max fuel more + 1, ?_⟩
    rw [same (Nat.le_max_left ..)]
    exact answer.kept (runFor_mono (Nat.le_max_right ..))

/-- A loop has no value, whatever its body has. -/
theorem forLoop_value {value : Value}
    (done : execute fuel (.forLoop line name iterand body) begun = .done value after) :
    value = .nil := by
  cases fuel with
  | zero => cases done
  | succ fuel =>
    obtain ⟨read, middle, -, judged⟩ := Outcome.exists_of_bind_eq_done done
    obtain ⟨range, machine, -, ran⟩ := Outcome.exists_of_bind_eq_done judged
    exact runFor_value ran

/-- A block answers as its statements do one by one. -/
theorem exists_runBlock_iff {statements : List Stmt} :
    (∃ fuel, (runBlock fuel statements .nil machine).Answer error after) ↔
      Executes statements machine error after := by
  constructor
  · rintro ⟨fuel, answer⟩
    exact executes_of_runBlock answer
  · exact fun executes => executes.exists_runBlock .nil

end Statement

/-- **A loop equals its unrolling.** Let a loop's range have been read, whatever its bounds are and
whatever state that has left. The integers of the range are those between its bounds, ascending, and
each that is a number of its own has that number. The loop then answers exactly what the block
answers that assigns these numbers one after another and runs the body behind each, up to the first
integer that is no number of its own: with the error that ends the block, with the refusal of that
integer on the line of the loop and in the state in which the block ends, or with none. So it ends
exactly if the block does, in the same state. Its value is nil, and over an empty range it does
nothing at all. -/
theorem forLoop_unrolls (line : Nat) (name : String) (iterand : Expr) (body : List Stmt)
    (range : Range) (begun machine : Machine) (fuel : Nat)
    (evaluated : evaluate fuel iterand begun = .done (.range range) machine) :
    (range.integers.Pairwise (· < ·) ∧
      (∀ index, index ∈ range.integers ↔
        range.first.toInt ≤ index ∧
          match range.kind with
          | .inclusive => index ≤ range.last.toInt
          | .exclusive => index < range.last.toInt) ∧
      ∀ index, isExact index → (Number.ofInt index).value? = some (index : ℚ)) ∧
    (∀ error after,
      (∃ fuel, (execute fuel (.forLoop line name iterand body) begun).Answer error after) ↔
        ∃ failure,
          (∃ fuel, (runBlock fuel (unrolled line name body (range.integers.takeWhile isExact)) .nil
            machine).Answer failure after) ∧
          error = failure.or (refusal line range.integers)) ∧
    (∀ fuel value after,
      execute fuel (.forLoop line name iterand body) begun = .done value after → value = .nil) ∧
    (range.integers = [] → ∀ error after,
      (∃ fuel, (execute fuel (.forLoop line name iterand body) begun).Answer error after) ↔
        error = none ∧ after = machine) := by
  obtain ⟨low, high⟩ := range.bounds
  have answers : ∀ error after,
      (∃ fuel, (execute fuel (.forLoop line name iterand body) begun).Answer error after) ↔
        ∃ failure, Executes (unrolled line name body (range.integers.takeWhile isExact)) machine
          failure after ∧ error = failure.or (refusal line range.integers) :=
    fun error after => (forLoop_answer_iff evaluated).trans (runFor_answer_iff low high)
  refine ⟨⟨range.integers_ascending, range.mem_integers_iff, fun _ => value?_of_isExact⟩,
    ?_, ?_, ?_⟩
  · intro error after
    simp only [answers, exists_runBlock_iff]
  · exact fun fuel value after => forLoop_value
  · intro empty error after
    rw [answers, empty]
    constructor
    · rintro ⟨failure, executes, rfl⟩
      obtain ⟨rfl, rfl⟩ := executes_nil_iff.mp executes
      exact ⟨rfl, rfl⟩
    · rintro ⟨rfl, rfl⟩
      exact ⟨none, .nil, rfl⟩

/-! ### A loop that meets the end of the exact integers -/

/-- The largest exact integer and the one behind it. -/
def edgeRange : Range := ⟨.inclusive, 9007199254740991, 9007199254740992⟩

/-- A body that assigns to the variable of its loop. -/
def edgeBody : List Stmt := [.expression 2 (.assign 2 "i" (.boolean 2 true))]

/-- The first pass runs and changes the variable; the second integer is refused, and nothing more is
bound. -/
theorem forLoop_unrolls_edge :
    evaluate 1 (.range 1 edgeRange) (.start .unlimited) =
        .done (.range edgeRange) (.start .unlimited) ∧
      edgeRange.integers = [9007199254740991, 9007199254740992] ∧
      ∃ fuel after,
        (execute fuel (.forLoop 1 "i" (.range 1 edgeRange) edgeBody) (.start .unlimited)).Answer
          (some ⟨1, .conversion (.inexact 9007199254740992)⟩) after ∧
        after.scope.get? "i" = some (.boolean true) := by
  have evaluated : evaluate 1 (.range 1 edgeRange) (.start .unlimited) =
      .done (.range edgeRange) (.start .unlimited) := rfl
  have integers : edgeRange.integers = [9007199254740991, 9007199254740992] := by decide
  have visited : edgeRange.integers.takeWhile isExact = [9007199254740991] := by
    rw [integers]
    decide
  have refused : refusal 1 edgeRange.integers =
      some ⟨1, .conversion (.inexact 9007199254740992)⟩ := by
    rw [integers]
    decide
  obtain ⟨-, answers, -, -⟩ := forLoop_unrolls 1 "i" (.range 1 edgeRange) edgeBody edgeRange
    (.start .unlimited) (.start .unlimited) 1 evaluated
  have block : (runBlock 5 (unrolled 1 "i" edgeBody [9007199254740991]) .nil
      (.start .unlimited)).Answer none
        (((Machine.start .unlimited).assign "i" (.number (.ofInt 9007199254740991))).assign "i"
          (.boolean true)) := .done _ _
  rw [visited, refused] at answers
  obtain ⟨fuel, answer⟩ := (answers _ _).mpr ⟨none, ⟨5, block⟩, rfl⟩
  refine ⟨evaluated, integers, fuel, _, answer, ?_⟩
  exact (Scope.get?_insert ..).trans (if_pos rfl)

end Scriptlet
