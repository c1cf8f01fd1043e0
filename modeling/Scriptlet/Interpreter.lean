/-
**An interpreter that runs one program after another.**

Between two programs the interpreter keeps the table of globals. A program takes the table out and
runs on it as the only table in its scope; when the program ends, in whatever way, the table is put
back.

* `Interpreter.interpret`: one program, and the error that it ended with.
* `Interpreter.session`: programs in order, each on what the one before has left.
-/

import Scriptlet.Evaluation

namespace Scriptlet

/-- **An interpreter between two programs.** -/
structure Interpreter where
  /-- The names that programs have stored. -/
  globals : Table Value
  /-- The number of active calls. -/
  depth : Nat
  /-- The output. -/
  sink : Sink
  /-- The identity of the function defined next. -/
  fresh : Nat

/-- **What a program leaves**: the error that ended it early, and the interpreter. -/
structure Report where
  error : Option RuntimeError
  interpreter : Interpreter

namespace Interpreter

/-- An interpreter that has not run any program. -/
def new (sink : Sink) : Interpreter := ⟨.empty, 0, sink, 0⟩

/-- The machine for the next program, with the globals taken out. -/
def machine (interpreter : Interpreter) : Machine :=
  ⟨⟨interpreter.globals, []⟩, interpreter.depth, interpreter.sink, interpreter.fresh⟩

/-- The globals are put back from the table that a program has run in. -/
def ofMachine (machine : Machine) : Interpreter :=
  ⟨machine.scope.table, machine.depth, machine.sink, machine.fresh⟩

/-- **Run a program** up to its first error; none if the fuel is used up. -/
def interpret (fuel : Nat) (program : Program) (interpreter : Interpreter) : Option Report :=
  match Scriptlet.interpret fuel program interpreter.machine with
  | .done _ machine => some ⟨none, ofMachine machine⟩
  | .failed error machine => some ⟨some error, ofMachine machine⟩
  | .exhausted => none

/-- **Run programs one after another**, whatever the ones before have come to. -/
def session (fuel : Nat) : List Program → Interpreter → Option (List Report)
  | [], _ => some []
  | program :: rest, interpreter => do
    let report ← interpreter.interpret fuel program
    let reports ← session fuel rest report.interpreter
    return report :: reports

/-- The first program runs on a fresh machine. -/
theorem machine_new (sink : Sink) : (new sink).machine = .start sink := rfl

theorem ofMachine_machine (interpreter : Interpreter) :
    ofMachine interpreter.machine = interpreter := rfl

/-- Nothing is lost on the way through the interpreter, if only the globals were in sight. -/
theorem machine_ofMachine {machine : Machine} (alone : machine.scope.enclosing = []) :
    (ofMachine machine).machine = machine := by
  obtain ⟨⟨table, enclosing⟩, depth, sink, fresh⟩ := machine
  cases alone
  rfl

end Interpreter

end Scriptlet
