/-
**Running a script**: its text is parsed as a whole and then run from a fresh machine.

* `runScript`: the output and the first error of a text.
* `ScriptError.message`, `ScriptError.line`.
-/

import Scriptlet.Evaluation
import Scriptlet.Parser

namespace Scriptlet

open scoped Powers

/-- **An error of a script**, in its text or while it runs. -/
inductive ScriptError where
  | parse (error : ParseError)
  | runtime (error : RuntimeError)

namespace ScriptError

/-- An error in words. -/
def message : ScriptError → String
  | parse error => error.message
  | runtime error => error.message

/-- The line of an error. -/
def line : ScriptError → Nat
  | parse error => error.line
  | runtime error => error.line

end ScriptError

/-- **How a script ends.** -/
inductive ScriptResult where
  /-- The output, and the error that ended the script early. -/
  | finished (sink : Sink) (error : Option ScriptError)
  /-- The fuel is used up. -/
  | exhausted

/-- More fuel than any run that ends uses. -/
def ampleFuel : Nat := 2 ^ (62 : Nat)

/-- Run a program whose output goes to the given sink. -/
def runProgram (fuel : Nat) (program : Program) (sink : Sink) : ScriptResult :=
  match interpret fuel program (.start sink) with
  | .done _ machine => .finished machine.sink none
  | .failed error machine => .finished machine.sink (some (.runtime error))
  | .exhausted => .exhausted

/-- **Run a text** whose output goes to the given sink; nothing runs if the text is no program. -/
def runScript (fuel : Nat) (source : String) (sink : Sink) : ScriptResult :=
  match parse source with
  | .ok program => runProgram fuel program sink
  | .error error => .finished sink (some (.parse error))

end Scriptlet
