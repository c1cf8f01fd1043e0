/-
**The state of a running program and what a step of it leads to.**

* `Machine`: the scope, the number of active calls, the output and the next function identity.
* `Outcome`: a result or an error with the state it leaves, or no answer within the given fuel.
* `Outcome.bind`: go on after a result; errors and exhaustion end a run.
-/

import Scriptlet.Operation
import Scriptlet.Scope

namespace Scriptlet

/-- **The state of a running program.** -/
structure Machine where
  /-- The names in sight. -/
  scope : Scope Value
  /-- The number of active calls. -/
  depth : Nat
  /-- The output. -/
  sink : Sink
  /-- The identity of the function defined next. -/
  fresh : Nat

/-- **Where a run leads.** -/
inductive Outcome (α : Type) where
  /-- A result and the state it leaves. -/
  | done (value : α) (machine : Machine)
  /-- An error and the state it leaves. -/
  | failed (error : RuntimeError) (machine : Machine)
  /-- The fuel is used up. -/
  | exhausted

namespace Outcome

variable {α β : Type}

/-- **Go on after a result.** -/
@[inline] def bind (outcome : Outcome α) (next : α → Machine → Outcome β) : Outcome β :=
  match outcome with
  | done value machine => next value machine
  | failed error machine => failed error machine
  | exhausted => exhausted

@[simp] theorem done_bind (value : α) (machine : Machine) (next : α → Machine → Outcome β) :
    (done value machine).bind next = next value machine := rfl

@[simp] theorem failed_bind (error : RuntimeError) (machine : Machine)
    (next : α → Machine → Outcome β) :
    (failed error machine : Outcome α).bind next = failed error machine := rfl

@[simp] theorem exhausted_bind (next : α → Machine → Outcome β) :
    (exhausted : Outcome α).bind next = exhausted := rfl

/-- A result or a fault on a line, in an unchanged state. -/
@[inline] def ofResult (line : Nat) (result : Except RuntimeFault α) (machine : Machine) :
    Outcome α :=
  match result with
  | .ok value => done value machine
  | .error fault => failed ⟨line, fault⟩ machine

end Outcome

namespace Machine

/-- **A machine at the beginning of a program.** -/
def start (sink : Sink) : Machine := ⟨.empty, 0, sink, 0⟩

/-- The value of a name, or the fault that it has none. -/
def lookup (machine : Machine) (name : String) : Except RuntimeFault Value :=
  match machine.scope.get? name with
  | some value => .ok value
  | none => .error (.unknownName name)

/-- The function that a name stands for, if the number of arguments is right. -/
def callee (machine : Machine) (name : String) (given : Nat) : Except RuntimeFault Definition :=
  match machine.lookup name with
  | .error fault => .error fault
  | .ok (.function _ definition) =>
    if given = definition.parameters.length then .ok definition
    else .error (.argumentCount name given definition.parameters.length)
  | .ok other => .error (.notCallable name other.kind)

/-- Store a value in the innermost table. -/
def assign (machine : Machine) (name : String) (value : Value) : Machine :=
  { machine with scope := machine.scope.insert name value }

/-- A new function with an identity of its own. -/
def newFunction (machine : Machine) (definition : Definition) : Value × Machine :=
  (.function machine.fresh definition, { machine with fresh := machine.fresh + 1 })

/-- Store a new function under its name. -/
def define (machine : Machine) (definition : Definition) : Machine :=
  let (function, machine) := machine.newFunction definition
  machine.assign definition.name function

/-- **Print a value** and a newline. -/
def print (machine : Machine) (line : Nat) (value : Value) : Outcome Unit :=
  match machine.sink.writeLine value.printed with
  | (sink, none) => .done () { machine with sink := sink }
  | (sink, some refusal) => .failed ⟨line, .output refusal⟩ { machine with sink := sink }

/-- The state in which the body of a called function runs. -/
def enter (machine : Machine) (definition : Definition) (arguments : List Value) : Machine :=
  { machine with
    scope := machine.scope.frame definition.parameters arguments
    depth := machine.depth + 1 }

/-- The state in which the caller goes on when a call has ended: its own scope is back, and one call
less is active. -/
def leave (machine caller : Machine) : Machine :=
  { machine with scope := caller.scope, depth := machine.depth - 1 }

end Machine

/-- A call has ended, in whatever way. -/
@[inline] def Outcome.leave {α : Type} (outcome : Outcome α) (caller : Machine) : Outcome α :=
  match outcome with
  | done value machine => done value (machine.leave caller)
  | failed error machine => failed error (machine.leave caller)
  | exhausted => exhausted

end Scriptlet
