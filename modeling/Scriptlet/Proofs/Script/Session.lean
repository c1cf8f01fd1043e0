/-
**Sessions are executed statement by statement.**

An interpreter takes its globals out for every program and puts them back behind it. All programs of
a session might as well run in one environment that stays in place, one statement after another; a
program ends with its first failing statement and the next one goes on from there. That an error
comes out of nested calls and loops makes no difference: a call gives the scope of its caller back,
so the table that is put back is the one that was taken out.

* `Executes`, `ExecutesAll`: statements and programs executed one by one in one environment.
* `executes_of_runBlock`, `Executes.exists_runBlock`: a block answers exactly as its statements do
  one by one.
* `Interpreter.reports_iff`: so does an interpreter that takes its globals out and puts them back.
* `executes_append_iff`, `Executes.exists_failing`: programs in two parts, and programs that fail.
* `sessions_execute_statements`: **a session reports what its statements leave in one environment.**
-/

import Scriptlet.Interpreter
import Scriptlet.Proofs.Evaluation.Fuel
import Scriptlet.Proofs.Evaluation.Isolation
import Scriptlet.Proofs.Stepping.Depth

namespace Scriptlet

/-! ### Answers -/

/-- **An outcome is an answer**: with an error or none, and with the state that it leaves. -/
inductive Outcome.Answer {α : Type} : Outcome α → Option RuntimeError → Machine → Prop
  | done (value : α) (machine : Machine) : Answer (.done value machine) none machine
  | failed (error : RuntimeError) (machine : Machine) :
      Answer (.failed error machine) (some error) machine

namespace Outcome

variable {α : Type} {outcome other : Outcome α} {error : Option RuntimeError} {after : Machine}

theorem Answer.kept (answer : outcome.Answer error after) (kept : outcome.Kept other) :
    other.Answer error after := by
  rcases kept with none | rfl
  · subst none
    cases answer
  · exact answer

theorem Answer.ends {property : Machine → Prop} (answer : outcome.Answer error after)
    (ends : outcome.Ends property) : property after := by
  cases answer with
  | done => exact ends
  | failed => exact ends

end Outcome

/-! ### Statements one by one -/

/-- **Statements executed one by one in one environment**, up to and including the first that
fails. -/
inductive Executes : List Stmt → Machine → Option RuntimeError → Machine → Prop
  | nil {machine : Machine} : Executes [] machine none machine
  | fails {fuel : Nat} {statement : Stmt} {rest : List Stmt} {machine after : Machine}
      {error : RuntimeError} (failed : execute fuel statement machine = .failed error after) :
      Executes (statement :: rest) machine (some error) after
  | cons {fuel : Nat} {statement : Stmt} {rest : List Stmt} {machine middle after : Machine}
      {value : Value} {error : Option RuntimeError}
      (done : execute fuel statement machine = .done value middle)
      (later : Executes rest middle error after) :
      Executes (statement :: rest) machine error after

/-- **Programs executed in one environment**, with what can be seen after each of them; a program
that fails is followed by the next one. -/
inductive ExecutesAll : List Program → Machine → List Report → Prop
  | nil {machine : Machine} : ExecutesAll [] machine []
  | cons {program : Program} {rest : List Program} {machine after : Machine}
      {error : Option RuntimeError} {reports : List Report}
      (first : Executes program machine error after) (later : ExecutesAll rest after reports) :
      ExecutesAll (program :: rest) machine (⟨error, .ofMachine after⟩ :: reports)

section Statements

variable {statements : List Stmt} {machine after : Machine} {error : Option RuntimeError}

/-- What a block answers, its statements do one by one. -/
theorem executes_of_runBlock {fuel : Nat} {last : Value}
    (answer : (runBlock fuel statements last machine).Answer error after) :
    Executes statements machine error after := by
  induction statements generalizing fuel last machine with
  | nil =>
    cases fuel with
    | zero => cases answer
    | succ fuel =>
      cases answer
      exact .nil
  | cons statement rest hypothesis =>
    cases fuel with
    | zero => cases answer
    | succ fuel =>
      rw [runBlock] at answer
      cases first : execute fuel statement machine with
      | done value middle =>
        rw [first] at answer
        exact .cons first (hypothesis answer)
      | failed failure middle =>
        rw [first] at answer
        cases answer
        exact .fails first
      | exhausted =>
        rw [first] at answer
        cases answer

/-- What statements do one by one, a block of them answers, if there is enough fuel. -/
theorem Executes.exists_runBlock (executes : Executes statements machine error after)
    (last : Value) : ∃ fuel, (runBlock fuel statements last machine).Answer error after := by
  induction executes generalizing last with
  | nil => exact ⟨1, .done last _⟩
  | @fails fuel statement rest machine after error failed =>
    refine ⟨fuel + 1, ?_⟩
    rw [runBlock, failed]
    exact .failed error after
  | @cons fuel statement rest machine middle after value error done _ hypothesis =>
    obtain ⟨enough, answer⟩ := hypothesis value
    -- one fuel for both parts: each keeps its answer with the larger one
    refine ⟨max fuel enough + 1, ?_⟩
    have first : execute (max fuel enough) statement machine = .done value middle := by
      have kept := execute_mono (Nat.le_max_left fuel enough) statement machine
      rw [done] at kept
      exact kept.resolve_left (by rintro ⟨⟩)
    rw [runBlock, first]
    exact answer.kept (runBlock_mono (Nat.le_max_right fuel enough) rest value middle)

/-- Statements change nothing in sight but the names that they store under. -/
theorem Executes.confined (executes : Executes statements machine error after) :
    machine.scope.Confined (Stmt.targetsAll statements) after.scope := by
  obtain ⟨fuel, answer⟩ := executes.exists_runBlock .nil
  have kept := preserves (machine.scope.stable_confined (Stmt.targetsAll statements)) fuel
  exact answer.ends (kept.runBlock (List.Subset.refl _) (.refl _ _))

theorem Executes.depth (executes : Executes statements machine error after) :
    after.depth = machine.depth := by
  obtain ⟨fuel, answer⟩ := executes.exists_runBlock .nil
  exact answer.ends (runBlock_ends_depth fuel machine statements .nil)

/-- **Statements in two parts**: the second part is executed if the first one does not fail. -/
theorem executes_append_iff {second : List Stmt} :
    Executes (statements ++ second) machine error after ↔
      (∃ middle, Executes statements machine none middle ∧ Executes second middle error after) ∨
        ∃ failure, error = some failure ∧ Executes statements machine (some failure) after := by
  constructor
  · intro executes
    induction statements generalizing machine with
    | nil => exact .inl ⟨machine, .nil, executes⟩
    | cons statement rest hypothesis =>
      cases executes with
      | fails failed => exact .inr ⟨_, rfl, .fails failed⟩
      | cons done later =>
        rcases hypothesis later with ⟨middle, front, behind⟩ | ⟨failure, rfl, front⟩
        · exact .inl ⟨middle, .cons done front, behind⟩
        · exact .inr ⟨failure, rfl, .cons done front⟩
  · rintro (⟨middle, front, behind⟩ | ⟨failure, rfl, front⟩)
    · induction statements generalizing machine with
      | nil =>
        cases front
        exact behind
      | cons statement rest hypothesis =>
        cases front with
        | cons done later => exact .cons done (hypothesis later)
    · induction statements generalizing machine with
      | nil => cases front
      | cons statement rest hypothesis =>
        cases front with
        | fails failed => exact .fails failed
        | cons done later => exact .cons done (hypothesis later)

/-- **Statements that fail** have a first one that does, behind others that do not. -/
theorem Executes.exists_failing {failure : RuntimeError}
    (executes : Executes statements machine (some failure) after) :
    ∃ before failing behind middle fuel, statements = before ++ failing :: behind ∧
      Executes before machine none middle ∧
      execute fuel failing middle = .failed failure after := by
  induction statements generalizing machine with
  | nil => cases executes
  | cons statement rest hypothesis =>
    cases executes with
    | @fails fuel _ _ _ _ _ failed =>
      exact ⟨[], statement, rest, machine, fuel, rfl, .nil, failed⟩
    | cons done later =>
      obtain ⟨before, failing, behind, middle, fuel, rfl, front, failed⟩ := hypothesis later
      exact ⟨statement :: before, failing, behind, middle, fuel, rfl, .cons done front, failed⟩

end Statements

/-! ### Interpreters -/

namespace Interpreter

variable {interpreter : Interpreter} {program : Program} {report : Report} {fuel more : Nat}

/-- **An interpreter comes to a report** on a program. -/
def Reports (interpreter : Interpreter) (program : Program) (report : Report) : Prop :=
  ∃ fuel, interpreter.interpret fuel program = some report

/-- A report is the answer of the program's statements, with the globals put back. -/
theorem interpret_eq_some_iff :
    interpreter.interpret fuel program = some report ↔
      ∃ after, (runBlock fuel program .nil interpreter.machine).Answer report.error after ∧
        report.interpreter = ofMachine after := by
  obtain ⟨error, left⟩ := report
  rw [interpret, Scriptlet.interpret]
  generalize runBlock fuel program .nil interpreter.machine = outcome
  constructor
  · intro reported
    cases outcome with
    | done value machine =>
      cases reported
      exact ⟨machine, .done value machine, rfl⟩
    | failed failure machine =>
      cases reported
      exact ⟨machine, .failed failure machine, rfl⟩
    | exhausted => cases reported
  · rintro ⟨after, answer, same⟩
    cases same
    cases answer with
    | done => rfl
    | failed => rfl

/-- **An interpreter reports what the statements leave** in the environment of its globals: what it
puts back is what it has taken out. -/
theorem reports_iff :
    interpreter.Reports program report ↔
      Executes program interpreter.machine report.error report.interpreter.machine := by
  constructor
  · rintro ⟨fuel, reported⟩
    obtain ⟨after, answer, same⟩ := interpret_eq_some_iff.mp reported
    have executes := executes_of_runBlock answer
    have alone : after.scope.enclosing = [] := executes.confined.enclosing
    rw [same, machine_ofMachine alone]
    exact executes
  · intro executes
    obtain ⟨fuel, answer⟩ := executes.exists_runBlock .nil
    exact ⟨fuel, interpret_eq_some_iff.mpr ⟨_, answer, (ofMachine_machine _).symm⟩⟩

theorem interpret_mono (enough : fuel ≤ more)
    (reported : interpreter.interpret fuel program = some report) :
    interpreter.interpret more program = some report := by
  obtain ⟨after, answer, same⟩ := interpret_eq_some_iff.mp reported
  exact interpret_eq_some_iff.mpr ⟨after, answer.kept (runBlock_mono enough _ _ _), same⟩

/-- The reports of a session: that of its first program, and those of the rest. -/
theorem session_cons_eq_some_iff {rest : List Program} {reports : List Report} :
    interpreter.session fuel (program :: rest) = some reports ↔
      ∃ first others, interpreter.interpret fuel program = some first ∧
        first.interpreter.session fuel rest = some others ∧ reports = first :: others := by
  rw [session]
  cases ran : interpreter.interpret fuel program with
  | none => simp
  | some first =>
    cases later : first.interpreter.session fuel rest with
    | none => simp [later]
    | some others => simp [later, eq_comm]

theorem session_mono {programs : List Program} {reports : List Report} (enough : fuel ≤ more)
    (reported : interpreter.session fuel programs = some reports) :
    interpreter.session more programs = some reports := by
  induction programs generalizing interpreter reports with
  | nil => exact reported
  | cons program rest hypothesis =>
    obtain ⟨first, others, ran, later, rfl⟩ := session_cons_eq_some_iff.mp reported
    refine session_cons_eq_some_iff.mpr ⟨first, others, ?_, hypothesis later, rfl⟩
    exact interpret_mono enough ran

/-- **A session reports what its statements leave in one environment.** -/
theorem exists_session_iff {programs : List Program} {reports : List Report} :
    (∃ fuel, interpreter.session fuel programs = some reports) ↔
      ExecutesAll programs interpreter.machine reports := by
  induction programs generalizing interpreter reports with
  | nil =>
    constructor
    · rintro ⟨fuel, reported⟩
      cases reported
      exact .nil
    · intro executes
      cases executes
      exact ⟨0, rfl⟩
  | cons program rest hypothesis =>
    constructor
    · rintro ⟨fuel, reported⟩
      obtain ⟨first, others, ran, later, rfl⟩ := session_cons_eq_some_iff.mp reported
      exact .cons (reports_iff.mp ⟨fuel, ran⟩) (hypothesis.mp ⟨fuel, later⟩)
    · intro executes
      cases executes with
      | @cons _ _ _ after error others first later =>
        -- the environment stays in place, and the interpreter finds it again
        have kept := machine_ofMachine first.confined.enclosing
        rw [← kept] at first later
        have reports : interpreter.Reports program ⟨error, ofMachine after⟩ := reports_iff.mpr first
        obtain ⟨fuel, ran⟩ := reports
        obtain ⟨enough, reported⟩ := hypothesis.mpr later
        refine ⟨max fuel enough, session_cons_eq_some_iff.mpr ⟨_, others, ?_, ?_, rfl⟩⟩
        · exact interpret_mono (Nat.le_max_left ..) ran
        · exact session_mono (Nat.le_max_right ..) reported

/-- A program gives the depth back. -/
theorem Reports.depth (reports : interpreter.Reports program report) :
    report.interpreter.depth = interpreter.depth :=
  (reports_iff.mp reports).depth

theorem session_depth {programs : List Program} {reports : List Report}
    (reported : interpreter.session fuel programs = some reports) :
    ∀ report ∈ reports, report.interpreter.depth = interpreter.depth := by
  induction programs generalizing interpreter reports with
  | nil =>
    cases reported
    exact List.forall_mem_nil _
  | cons program rest hypothesis =>
    obtain ⟨first, others, ran, later, rfl⟩ := session_cons_eq_some_iff.mp reported
    have level : first.interpreter.depth = interpreter.depth := Reports.depth ⟨fuel, ran⟩
    refine List.forall_mem_cons.mpr ⟨level, fun report member => ?_⟩
    exact (hypothesis later report member).trans level

/-- **A program in two parts** is the first one followed, if it succeeded, by the second one. -/
theorem reports_append_iff {first second : Program} :
    interpreter.Reports (first ++ second) report ↔
      ∃ middle, interpreter.Reports first middle ∧
        (middle.error = none ∧ middle.interpreter.Reports second report ∨
          middle.error ≠ none ∧ report = middle) := by
  rw [reports_iff, executes_append_iff]
  constructor
  · rintro (⟨middle, front, behind⟩ | ⟨failure, failed, front⟩)
    · have kept := machine_ofMachine front.confined.enclosing
      rw [← kept] at front behind
      have reports : interpreter.Reports first ⟨none, ofMachine middle⟩ := reports_iff.mpr front
      exact ⟨_, reports, .inl ⟨rfl, reports_iff.mpr behind⟩⟩
    · rw [← failed] at front
      exact ⟨report, reports_iff.mpr front, .inr ⟨failed ▸ Option.some_ne_none _, rfl⟩⟩
  · rintro ⟨middle, front, ⟨done, behind⟩ | ⟨failed, rfl⟩⟩
    · have executes := reports_iff.mp front
      rw [done] at executes
      exact .inl ⟨_, executes, reports_iff.mp behind⟩
    · obtain ⟨failure, given⟩ := Option.ne_none_iff_exists'.mp failed
      have executes := reports_iff.mp front
      rw [given] at executes
      exact .inr ⟨failure, given, executes⟩

/-- **A program that fails** has run the statements in front of the failing one, and what they have
bound stays bound. Of the failing statement nothing is left but what it has stored and printed
itself, in the environment that the interpreter puts back. -/
theorem Reports.exists_failing {failure : RuntimeError}
    (reports : interpreter.Reports program report) (failed : report.error = some failure) :
    ∃ before failing behind middle fuel, program = before ++ failing :: behind ∧
      interpreter.Reports before ⟨none, middle⟩ ∧
      execute fuel failing middle.machine = .failed failure report.interpreter.machine ∧
      (∀ name, middle.globals.contains name → report.interpreter.globals.contains name) ∧
      ∀ name ∉ failing.targets,
        report.interpreter.globals.get? name = middle.globals.get? name := by
  have executes := reports_iff.mp reports
  rw [failed] at executes
  obtain ⟨before, failing, behind, middle, fuel, split, front, ended⟩ := executes.exists_failing
  have kept := machine_ofMachine front.confined.enclosing
  rw [← kept] at front ended
  have single : Executes [failing] (ofMachine middle).machine (some failure)
      report.interpreter.machine := .fails ended
  have confined := single.confined
  rw [Stmt.targetsAll, Stmt.targetsAll, List.append_nil] at confined
  refine ⟨before, failing, behind, ofMachine middle, fuel, split, ?_, ended, ?_, ?_⟩
  · exact reports_iff.mpr front
  · exact confined.bound
  · exact confined.values

end Interpreter

/-- **Sessions equal the execution of their statements one by one**, also across failures. What an
interpreter reports on programs one after another, errors, globals with their layout, output and
depth, is what their statements leave in one environment that stays in place, where each program is
executed up to and including its first failing statement; more fuel never changes a report, and the
depth after every program is zero. So a program in two parts reports what the first part does and,
if that succeeds, the second part behind it. A program that fails has run the statements in front of
the failing one: no name they have bound is lost, no name but those that the failing statement
stores under has changed, and the next program finds the very environment that the failing statement
has left. -/
theorem sessions_execute_statements :
    (∀ sink programs reports,
      ((∃ fuel, (Interpreter.new sink).session fuel programs = some reports) ↔
        ExecutesAll programs (.start sink) reports) ∧
      ∀ fuel, (Interpreter.new sink).session fuel programs = some reports →
        (∀ more, fuel ≤ more → (Interpreter.new sink).session more programs = some reports) ∧
        ∀ report ∈ reports, report.interpreter.depth = 0) ∧
    (∀ (interpreter : Interpreter) first second report,
      interpreter.Reports (first ++ second) report ↔
        ∃ middle, interpreter.Reports first middle ∧
          (middle.error = none ∧ middle.interpreter.Reports second report ∨
            middle.error ≠ none ∧ report = middle)) ∧
    ∀ (interpreter : Interpreter) program report failure, interpreter.Reports program report →
      report.error = some failure →
        ∃ before failing behind middle fuel, program = before ++ failing :: behind ∧
          interpreter.Reports before ⟨none, middle⟩ ∧
          execute fuel failing middle.machine = .failed failure report.interpreter.machine ∧
          (∀ name, middle.globals.contains name → report.interpreter.globals.contains name) ∧
          ∀ name ∉ failing.targets,
            report.interpreter.globals.get? name = middle.globals.get? name := by
  refine ⟨?_, ?_, ?_⟩
  · intro sink programs reports
    rw [← Interpreter.machine_new sink]
    refine ⟨Interpreter.exists_session_iff, fun fuel reported => ⟨?_, ?_⟩⟩
    · exact fun more enough => Interpreter.session_mono enough reported
    · exact Interpreter.session_depth reported
  · exact fun interpreter first second report => Interpreter.reports_append_iff
  · exact fun interpreter program report failure reports failed => reports.exists_failing failed

/-! ### A session with a failure -/

/-- A program that fails on its second line, where a name has no value. -/
def failingProgram : Program :=
  [.expression 1 (.assign 1 "a" (.boolean 1 true)), .print 2 (.identifier 2 "b")]

/-- The failing program, and one that uses what it has bound. -/
def failingSession : List Program :=
  [failingProgram, [.expression 1 (.assign 1 "c" (.identifier 1 "a"))]]

/-- The second program finds what the first one has bound before it failed. -/
theorem sessions_execute_statements_failing :
    ∃ first second, (Interpreter.new .unlimited).session 9 failingSession = some [first, second] ∧
      first.error = some ⟨2, .unknownName "b"⟩ ∧ second.error = none ∧
      second.interpreter.globals.get? "c" = some (.boolean true) ∧
      ExecutesAll failingSession (.start .unlimited) [first, second] ∧
      first.interpreter.depth = 0 ∧
      ∃ before failing behind middle fuel, failingProgram = before ++ failing :: behind ∧
        (Interpreter.new .unlimited).Reports before ⟨none, middle⟩ ∧
        execute fuel failing middle.machine =
          .failed ⟨2, .unknownName "b"⟩ first.interpreter.machine := by
  have computed : ((Interpreter.new .unlimited).session 9 failingSession).map (fun reports =>
      reports.map fun report => (report.error, report.interpreter.globals.get? "c")) =
        some [(some ⟨2, .unknownName "b"⟩, none), (none, some (.boolean true))] := by
    rfl
  obtain ⟨reports, ran, seen⟩ := Option.map_eq_some_iff.mp computed
  obtain ⟨first, others, rfl, head, seen⟩ := List.map_eq_cons_iff.mp seen
  obtain ⟨second, nothing, rfl, next, seen⟩ := List.map_eq_cons_iff.mp seen
  obtain rfl := List.map_eq_nil_iff.mp seen
  obtain ⟨failed, -⟩ := Prod.mk.inj head
  obtain ⟨succeeded, bound⟩ := Prod.mk.inj next
  obtain ⟨sessions, -, failing⟩ := sessions_execute_statements
  obtain ⟨executed, answered⟩ := sessions .unlimited failingSession [first, second]
  obtain ⟨-, depth⟩ := answered 9 ran
  obtain ⟨report, rest, reported, -, same⟩ := Interpreter.session_cons_eq_some_iff.mp ran
  cases same
  obtain ⟨before, statement, behind, middle, fuel, split, front, ended, -⟩ :=
    failing _ _ _ _ ⟨9, reported⟩ failed
  exact ⟨first, second, ran, failed, succeeded, bound, executed.mp ⟨9, ran⟩,
    depth first List.mem_cons_self, before, statement, behind, middle, fuel, split, front, ended⟩

end Scriptlet
