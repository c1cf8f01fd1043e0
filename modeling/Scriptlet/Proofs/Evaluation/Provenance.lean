/-
**Where functions come from.**

A function is made where its definition runs, and from there on it is only copied: stored, passed
and returned. So what is true of all definitions written in a text is true of every function that a
run of the text ever holds. The property has to reach from a function to the definitions written
inside it, because these run when the function is called.

* `Stmt.definitions`: the definitions that a statement may run itself.
* `Scope.Stores`: the values in the tables of a scope.
* `Value.Of`, `Scope.Of`: all functions have a property.
* `Outcome.Yields`: a property of the value and of the state that an outcome leaves.
* `carries`: **every function of the evaluator keeps a property of definitions**, by induction on
  the fuel.
-/

import Scriptlet.Evaluation

namespace Scriptlet

/-! ### Written definitions -/

mutual

/-- **The definitions that a statement may run**; those inside of a function run with its calls. -/
def Stmt.definitions : Stmt → List Definition
  | .print .. | .expression .. => []
  | .conditional _ branches => Branch.definitionsAll branches
  | .whileLoop _ _ body => Stmt.definitionsAll body
  | .forLoop _ _ _ body => Stmt.definitionsAll body
  | .define _ name parameters body => [⟨name, parameters, body⟩]

def Stmt.definitionsAll : List Stmt → List Definition
  | [] => []
  | first :: rest => first.definitions ++ Stmt.definitionsAll rest

def Branch.definitionsAll : List Branch → List Definition
  | [] => []
  | .guarded _ body :: rest => Stmt.definitionsAll body ++ Branch.definitionsAll rest

end

/-! ### Functions of a property -/

/-- A function has the given property; any other value has it anyway. -/
def Value.Of (code : Definition → Prop) : Value → Prop
  | .function _ definition => code definition
  | _ => True

theorem Value.Of.of_kind {code : Definition → Prop} {value : Value}
    (plain : value.kind ≠ .function) : value.Of code := by
  cases value with
  | function identity definition => exact absurd rfl plain
  | _ => trivial

theorem Value.Of.nil {code : Definition → Prop} : Value.Of code .nil := trivial

namespace Scope

section Contents

variable {α : Type} {scope : Scope α} {value : α}

/-- **A value is stored in a scope** if one of its tables has it. -/
def Stores (scope : Scope α) (value : α) : Prop :=
  ∃ table ∈ scope.table :: scope.enclosing, ∃ name, table.get? name = some value

theorem not_stores_empty : ¬ (empty : Scope α).Stores value := by
  rintro ⟨table, member, name, found⟩
  obtain rfl : table = .empty := by simpa [Scope.empty] using member
  rw [Table.get?_empty] at found
  cases found

/-- What a name stands for is stored. -/
theorem stores_of_get? {name : String} (found : scope.get? name = some value) :
    scope.Stores value := by
  have inside : ∀ tables : List (Table α), getFrom? name tables = some value →
      ∃ table ∈ tables, ∃ name, table.get? name = some value := by
    intro tables
    induction tables with
    | nil => exact fun found => nomatch found
    | cons table rest hypothesis =>
      intro found
      rw [getFrom?] at found
      split at found
      · next other here =>
        cases found
        exact ⟨table, List.mem_cons_self, name, here⟩
      · obtain ⟨inner, member, held⟩ := hypothesis found
        exact ⟨inner, List.mem_cons_of_mem _ member, held⟩
  exact inside _ found

/-- The new value is all that an insertion adds. -/
theorem stores_of_insert {name : String} {added : α}
    (stored : (scope.insert name added).Stores value) : value = added ∨ scope.Stores value := by
  obtain ⟨table, member, other, found⟩ := stored
  rcases List.mem_cons.mp member with rfl | outside
  · rw [Scope.insert, Table.get?_insert] at found
    split at found
    · cases found
      exact .inl rfl
    · exact .inr ⟨scope.table, List.mem_cons_self, other, found⟩
  · exact .inr ⟨table, List.mem_cons_of_mem _ outside, other, found⟩

/-- The frame of a call holds its arguments and what the root holds. -/
theorem stores_of_frame {parameters : List String} {arguments : List α}
    (stored : (scope.frame parameters arguments).Stores value) :
    value ∈ arguments ∨ scope.Stores value := by
  have along : ∀ (entries : List (String × α)) (inner : Scope α),
      (entries.foldl (fun inner entry => inner.insert entry.1 entry.2) inner).Stores value →
        (∃ entry ∈ entries, value = entry.2) ∨ inner.Stores value := by
    intro entries
    induction entries with
    | nil => exact fun _ stored => .inr stored
    | cons entry rest hypothesis =>
      intro inner stored
      rcases hypothesis _ stored with ⟨other, member, same⟩ | before
      · exact .inl ⟨other, List.mem_cons_of_mem _ member, same⟩
      · rcases stores_of_insert before with same | earlier
        · exact .inl ⟨entry, List.mem_cons_self, same⟩
        · exact .inr earlier
  rcases along _ _ stored with ⟨entry, member, rfl⟩ | ⟨table, member, name, found⟩
  · exact .inl (List.of_mem_zip member).2
  · rcases List.mem_cons.mp member with rfl | outside
    · rw [Table.get?_empty] at found
      cases found
    · obtain rfl := List.mem_singleton.mp outside
      exact .inr ⟨scope.root, scope.root_mem, name, found⟩

end Contents

variable {code : Definition → Prop} {scope : Scope Value}

/-- **All functions in all tables of a scope have a property.** -/
def Of (code : Definition → Prop) (scope : Scope Value) : Prop :=
  ∀ table ∈ scope.table :: scope.enclosing, ∀ name value,
    table.get? name = some value → value.Of code

theorem of_iff : scope.Of code ↔ ∀ value, scope.Stores value → value.Of code := by
  constructor
  · rintro all value ⟨table, member, name, found⟩
    exact all table member name value found
  · exact fun all table member name value found => all value ⟨table, member, name, found⟩

theorem of_empty : Of code (.empty : Scope Value) :=
  of_iff.mpr fun _ stored => absurd stored not_stores_empty

theorem Of.insert (all : scope.Of code) (name : String) {value : Value} (good : value.Of code) :
    (scope.insert name value).Of code := by
  refine of_iff.mpr fun other stored => ?_
  rcases stores_of_insert stored with rfl | before
  · exact good
  · exact of_iff.mp all other before

theorem Of.frame (all : scope.Of code) (parameters : List String) {arguments : List Value}
    (good : ∀ value ∈ arguments, value.Of code) : (scope.frame parameters arguments).Of code := by
  refine of_iff.mpr fun value stored => ?_
  rcases stores_of_frame stored with given | before
  · exact good value given
  · exact of_iff.mp all value before

end Scope

/-! ### Values and states of an outcome -/

namespace Outcome

variable {α β : Type} {good : α → Prop} {fine : β → Prop} {kept : Machine → Prop}

/-- **The value of an outcome has a property, and so has the state it leaves**; after an error,
only the state. -/
def Yields (good : α → Prop) (kept : Machine → Prop) : Outcome α → Prop
  | done value machine => good value ∧ kept machine
  | failed _ machine => kept machine
  | exhausted => True

theorem Yields.bind {outcome : Outcome α} {next : α → Machine → Outcome β}
    (first : outcome.Yields good kept)
    (later : ∀ value machine, good value → kept machine → (next value machine).Yields fine kept) :
    (outcome.bind next).Yields fine kept := by
  match outcome, first with
  | done value machine, ⟨holds, held⟩ => exact later value machine holds held
  | failed error machine, held => exact held
  | exhausted, _ => trivial

theorem yields_ofResult {line : Nat} {result : Except RuntimeFault α} {machine : Machine}
    (holds : ∀ value, result = .ok value → good value) (held : kept machine) :
    (ofResult line result machine).Yields good kept := by
  rcases result with fault | value
  · exact held
  · exact ⟨holds value rfl, held⟩

theorem yields_ofPlain {line : Nat} {result : Except RuntimeFault α} {machine : Machine}
    (held : kept machine) : (ofResult line result machine).Yields (fun _ => True) kept :=
  yields_ofResult (fun _ _ => trivial) held

end Outcome

/-! ### All functions of the evaluator -/

/-- All functions that a machine can find have a property. -/
def Machine.Of (code : Definition → Prop) (machine : Machine) : Prop := machine.scope.Of code

section Machines

variable {code : Definition → Prop} {machine : Machine}

theorem Machine.stores_of_lookup {name : String} {value : Value}
    (found : machine.lookup name = .ok value) : machine.scope.Stores value := by
  unfold Machine.lookup at found
  split at found
  · next other here =>
    cases found
    exact Scope.stores_of_get? here
  · cases found

theorem Machine.Of.lookup (held : machine.Of code) {name : String} {value : Value}
    (found : machine.lookup name = .ok value) : value.Of code :=
  Scope.of_iff.mp held value (stores_of_lookup found)

/-- The function that is called has the property. -/
theorem Machine.Of.callee (held : machine.Of code) {name : String} {given : Nat}
    {definition : Definition} (found : machine.callee name given = .ok definition) :
    code definition := by
  unfold Machine.callee at found
  split at found
  · cases found
  · next identity other here =>
    split at found
    · cases found
      exact held.lookup here
    · cases found
  · cases found

theorem Machine.Of.assign (held : machine.Of code) (name : String) {value : Value}
    (good : value.Of code) : (machine.assign name value).Of code :=
  Scope.Of.insert held name good

theorem Machine.Of.define (held : machine.Of code) {definition : Definition}
    (good : code definition) : (machine.define definition).Of code :=
  Scope.Of.insert held definition.name good

theorem Machine.Of.print (held : machine.Of code) (line : Nat) (value : Value) :
    (machine.print line value).Yields (fun _ => True) (Machine.Of code) := by
  unfold Machine.print
  split
  · exact ⟨trivial, held⟩
  · exact held

end Machines

/-- **Every function of the evaluator keeps a property of definitions**, up to a bound of the
fuel. -/
structure Carries (code : Definition → Prop) (fuel : Nat) : Prop where
  evaluate : ∀ {expression machine}, machine.Of code →
    (evaluate fuel expression machine).Yields (Value.Of code) (Machine.Of code)
  evaluateLogical : ∀ {line operator left right machine}, machine.Of code →
    (evaluateLogical fuel line operator left right machine).Yields (Value.Of code) (Machine.Of code)
  evaluateAll : ∀ {expressions machine}, machine.Of code →
    (evaluateAll fuel expressions machine).Yields (fun values => ∀ value ∈ values, value.Of code)
      (Machine.Of code)
  call : ∀ {line definition arguments machine}, code definition →
    (∀ value ∈ arguments, value.Of code) → machine.Of code →
    (call fuel line definition arguments machine).Yields (Value.Of code) (Machine.Of code)
  execute : ∀ {statement machine}, (∀ inner ∈ statement.definitions, code inner) →
    machine.Of code → (execute fuel statement machine).Yields (Value.Of code) (Machine.Of code)
  runBlock : ∀ {statements last machine}, (∀ inner ∈ Stmt.definitionsAll statements, code inner) →
    last.Of code → machine.Of code →
    (runBlock fuel statements last machine).Yields (Value.Of code) (Machine.Of code)
  runBranches : ∀ {branches machine}, (∀ inner ∈ Branch.definitionsAll branches, code inner) →
    machine.Of code → (runBranches fuel branches machine).Yields (Value.Of code) (Machine.Of code)
  runWhile : ∀ {condition body machine}, (∀ inner ∈ Stmt.definitionsAll body, code inner) →
    machine.Of code →
    (runWhile fuel condition body machine).Yields (Value.Of code) (Machine.Of code)
  runFor : ∀ {line name index stop body machine},
    (∀ inner ∈ Stmt.definitionsAll body, code inner) → machine.Of code →
    (runFor fuel line name index stop body machine).Yields (Value.Of code) (Machine.Of code)

section Steps

variable {code : Definition → Prop} {fuel : Nat} {machine : Machine}

theorem Carries.zero : Carries code 0 := by
  constructor
  all_goals intros; exact trivial

theorem Carries.evaluate_succ (previous : Carries code fuel) {expression : Expr}
    (held : machine.Of code) :
    (Scriptlet.evaluate (fuel + 1) expression machine).Yields (Value.Of code)
      (Machine.Of code) := by
  cases expression with
  | number | text | boolean | range => exact ⟨trivial, held⟩
  | identifier line name => exact Outcome.yields_ofResult (fun _ found => held.lookup found) held
  | unary line operator operand =>
    refine (previous.evaluate held).bind fun value _ _ inner => ?_
    exact Outcome.yields_ofResult (fun _ found => .of_kind (Value.kind_of_unary found)) inner
  | binary line operator left right =>
    rw [Scriptlet.evaluate]
    split
    · exact previous.evaluateLogical held
    · refine (previous.evaluate held).bind fun leftValue _ _ inner => ?_
      refine (previous.evaluate inner).bind fun rightValue _ _ innermost => ?_
      exact Outcome.yields_ofResult (fun _ found => .of_kind (Value.kind_of_binary found)) innermost
  | call line name arguments =>
    refine (Outcome.yields_ofResult (fun _ found => held.callee found) held).bind
      fun definition _ good known => ?_
    refine (previous.evaluateAll known).bind fun values _ all inner => ?_
    exact previous.call good all inner
  | assign line name value =>
    exact (previous.evaluate held).bind fun result _ good inner => ⟨good, inner.assign name good⟩

theorem Carries.evaluateLogical_succ (previous : Carries code fuel) {line : Nat}
    {operator : BinaryOperator} {left right : Expr} (held : machine.Of code) :
    (Scriptlet.evaluateLogical (fuel + 1) line operator left right machine).Yields (Value.Of code)
      (Machine.Of code) := by
  rw [Scriptlet.evaluateLogical]
  refine (previous.evaluate held).bind fun leftValue _ _ inner => ?_
  refine (Outcome.yields_ofPlain inner).bind fun answer _ _ known => ?_
  split
  · exact ⟨trivial, known⟩
  · refine (previous.evaluate known).bind fun rightValue _ _ innermost => ?_
    exact Outcome.yields_ofResult (fun _ found => .of_kind (Value.kind_of_rightAnswer found))
      innermost

theorem Carries.evaluateAll_succ (previous : Carries code fuel) {expressions : List Expr}
    (held : machine.Of code) :
    (Scriptlet.evaluateAll (fuel + 1) expressions machine).Yields
      (fun values => ∀ value ∈ values, value.Of code) (Machine.Of code) := by
  cases expressions with
  | nil => exact ⟨fun _ member => absurd member List.not_mem_nil, held⟩
  | cons first rest =>
    refine (previous.evaluate held).bind fun value _ good inner => ?_
    refine (previous.evaluateAll inner).bind fun values _ all innermost => ?_
    exact ⟨List.forall_mem_cons.mpr ⟨good, all⟩, innermost⟩

/-- The body of a call runs the definitions inside of the called function. -/
theorem Carries.call_succ (previous : Carries code fuel)
    (inherited : ∀ outer, code outer → ∀ inner ∈ Stmt.definitionsAll outer.body, code inner)
    {line : Nat} {definition : Definition} {arguments : List Value} (good : code definition)
    (all : ∀ value ∈ arguments, value.Of code) (held : machine.Of code) :
    (Scriptlet.call (fuel + 1) line definition arguments machine).Yields (Value.Of code)
      (Machine.Of code) := by
  rw [Scriptlet.call]
  by_cases deep : maximumDepth ≤ machine.depth
  · rw [if_pos deep]
    exact held
  · rw [if_neg deep]
    have entered : (machine.enter definition arguments).Of code :=
      Scope.Of.frame held definition.parameters all
    have body := previous.runBlock (inherited definition good) .nil entered
    match Scriptlet.runBlock fuel definition.body .nil _, body with
    | .done value inner, ⟨result, _⟩ => exact ⟨result, held⟩
    | .failed error inner, _ => exact held
    | .exhausted, _ => trivial

theorem Carries.execute_succ (previous : Carries code fuel) {statement : Stmt}
    (written : ∀ inner ∈ statement.definitions, code inner) (held : machine.Of code) :
    (Scriptlet.execute (fuel + 1) statement machine).Yields (Value.Of code) (Machine.Of code) := by
  match statement with
  | .print line value =>
    refine (previous.evaluate held).bind fun result _ _ inner => ?_
    exact (inner.print line result).bind fun _ _ _ innermost => ⟨trivial, innermost⟩
  | .conditional _ branches => exact previous.runBranches written held
  | .whileLoop _ condition body => exact previous.runWhile written held
  | .forLoop line name iterand body =>
    refine (previous.evaluate held).bind fun value _ _ inner => ?_
    refine (Outcome.yields_ofPlain inner).bind fun range _ _ known => ?_
    exact previous.runFor written known
  | .define _ name parameters body =>
    exact ⟨trivial, held.define (written _ List.mem_cons_self)⟩
  | .expression _ value => exact previous.evaluate held

theorem Carries.runBlock_succ (previous : Carries code fuel) {statements : List Stmt} {last : Value}
    (written : ∀ inner ∈ Stmt.definitionsAll statements, code inner) (good : last.Of code)
    (held : machine.Of code) :
    (Scriptlet.runBlock (fuel + 1) statements last machine).Yields (Value.Of code)
      (Machine.Of code) := by
  match statements with
  | [] => exact ⟨good, held⟩
  | first :: rest =>
    obtain ⟨here, later⟩ := List.forall_mem_append.mp written
    exact (previous.execute here held).bind fun value _ result inner =>
      previous.runBlock later result inner

theorem Carries.runBranches_succ (previous : Carries code fuel) {branches : List Branch}
    (written : ∀ inner ∈ Branch.definitionsAll branches, code inner) (held : machine.Of code) :
    (Scriptlet.runBranches (fuel + 1) branches machine).Yields (Value.Of code)
      (Machine.Of code) := by
  match branches with
  | [] => exact ⟨trivial, held⟩
  | .guarded condition body :: rest =>
    obtain ⟨here, later⟩ := List.forall_mem_append.mp written
    refine (previous.evaluate held).bind fun value _ _ inner => ?_
    refine (Outcome.yields_ofPlain inner).bind fun taken _ _ known => ?_
    split
    · exact (previous.runBlock here .nil known).bind fun _ _ _ innermost => ⟨trivial, innermost⟩
    · exact previous.runBranches later known

theorem Carries.runWhile_succ (previous : Carries code fuel) {condition : Expr} {body : List Stmt}
    (written : ∀ inner ∈ Stmt.definitionsAll body, code inner) (held : machine.Of code) :
    (Scriptlet.runWhile (fuel + 1) condition body machine).Yields (Value.Of code)
      (Machine.Of code) := by
  refine (previous.evaluate held).bind fun value _ _ inner => ?_
  refine (Outcome.yields_ofPlain inner).bind fun taken _ _ known => ?_
  split
  · exact (previous.runBlock written .nil known).bind fun _ _ _ innermost =>
      previous.runWhile written innermost
  · exact ⟨trivial, known⟩

theorem Carries.runFor_succ (previous : Carries code fuel) {line : Nat} {name : String}
    {index stop : Int} {body : List Stmt}
    (written : ∀ inner ∈ Stmt.definitionsAll body, code inner) (held : machine.Of code) :
    (Scriptlet.runFor (fuel + 1) line name index stop body machine).Yields (Value.Of code)
      (Machine.Of code) := by
  rw [Scriptlet.runFor]
  split
  · refine (Outcome.yields_ofPlain held).bind fun number _ _ known => ?_
    have begun : (Machine.assign _ name (.number number)).Of code :=
      known.assign name (.of_kind nofun)
    exact (previous.runBlock written .nil begun).bind fun _ _ _ inner =>
      previous.runFor written inner
  · exact ⟨trivial, held⟩

/-- **Every function of the evaluator keeps a property of definitions** that reaches to the
definitions inside of a function. -/
theorem carries
    (inherited : ∀ outer, code outer → ∀ inner ∈ Stmt.definitionsAll outer.body, code inner) :
    ∀ fuel, Carries code fuel
  | 0 => .zero
  | fuel + 1 =>
    have previous := carries inherited fuel
    { evaluate := previous.evaluate_succ
      evaluateLogical := previous.evaluateLogical_succ
      evaluateAll := previous.evaluateAll_succ
      call := previous.call_succ inherited
      execute := previous.execute_succ
      runBlock := previous.runBlock_succ
      runBranches := previous.runBranches_succ
      runWhile := previous.runWhile_succ
      runFor := previous.runFor_succ }

end Steps

end Scriptlet
