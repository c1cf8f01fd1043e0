/-
**A scope refines a stack of finite maps.**

The abstract side is a history: the insertions made into each table of the stack, newest first, and
nothing of bins, chains or hashes. The concrete side is a run of the same steps on a scope. The
relation between them is that each table holds its entries in the order of their first insertions,
with their latest values (`Holds`); one step keeps it, whatever collides and however often a table
grows.

* `Scope.Step`: insert, push or pop; `Scope.run`, `Scope.History.run`: what steps lead to.
* `Scope.represents_step`, `Scope.represents_run`: the relation is kept by a step and by a run.
* `Scope.run_refines`: **after any steps a scope answers as its history does.**
-/

import Mathlib.Data.List.Dedup
import Scriptlet.Machine

namespace Scriptlet

namespace Scope

variable {α : Type}

/-! ### Steps and histories -/

/-- A step on a stack of tables. -/
inductive Step (α : Type) where
  | insert (name : String) (value : α)
  | push
  | pop

/-- **The insertions into each table of a stack**, newest first, the innermost table first. -/
structure History (α : Type) where
  current : List (String × α)
  enclosing : List (List (String × α))

/-- A step on a scope. -/
def step (scope : Scope α) : Step α → Scope α
  | .insert name value => scope.insert name value
  | .push => scope.push
  | .pop => scope.pop

/-- The scope after some steps from an empty table. -/
def run (steps : List (Step α)) : Scope α := steps.foldl step .empty

namespace History

/-- A step is recorded; the only table is never dropped. -/
def step (history : History α) : Step α → History α
  | .insert name value => { history with current := (name, value) :: history.current }
  | .push => ⟨[], history.current :: history.enclosing⟩
  | .pop =>
    match history.enclosing with
    | [] => history
    | insertions :: rest => ⟨insertions, rest⟩

/-- The history of some steps from an empty table. -/
def run (steps : List (Step α)) : History α := steps.foldl step ⟨[], []⟩

end History

/-- **The value last inserted under a name.** -/
def latest (name : String) (insertions : List (String × α)) : Option α :=
  (insertions.find? fun entry => entry.1 = name).map Prod.snd

/-- The names of some insertions, each as often as it was inserted. -/
def inserted (insertions : List (String × α)) : List String := insertions.map Prod.fst

namespace History

/-- **The value of a name**: the last one inserted into the innermost table that has the name. -/
def get? (history : History α) (name : String) : Option α :=
  (history.current :: history.enclosing).findSome? (latest name)

/-- The insertions into the outermost table. -/
def outermost (history : History α) : List (String × α) :=
  history.enclosing.getLastD history.current

end History

/-! ### One table -/

/-- The entries that insertions leave, in the order of the first insertions. -/
def ordered (insertions : List (String × α)) : Chain α :=
  insertions.foldr (fun entry before => before.put entry.1 entry.2) []

/-- **A table holds what was inserted into it.** -/
def Holds (table : Table α) (insertions : List (String × α)) : Prop :=
  table.Ordered (ordered insertions)

theorem latest_cons (name : String) (entry : String × α) (insertions : List (String × α)) :
    latest name (entry :: insertions) =
      if name = entry.1 then some entry.2 else latest name insertions := by
  by_cases same : name = entry.1
  · simp [latest, same]
  · simp [latest, same, Ne.symm same]

theorem get?_ordered (name : String) (insertions : List (String × α)) :
    (ordered insertions).get? name = latest name insertions := by
  induction insertions with
  | nil => rfl
  | cons entry rest hypothesis =>
    rw [ordered, List.foldr_cons, Chain.get?_put, latest_cons]
    by_cases same : name = entry.1
    · rw [if_pos same, if_pos same]
    · rw [if_neg same, if_neg same]
      exact hypothesis

theorem nodup_ordered (insertions : List (String × α)) : (ordered insertions).names.Nodup := by
  induction insertions with
  | nil => exact List.nodup_nil
  | cons entry rest hypothesis => exact Chain.nodup_put hypothesis

theorem mem_names_ordered {name : String} {insertions : List (String × α)} :
    name ∈ (ordered insertions).names ↔ name ∈ inserted insertions := by
  induction insertions with
  | nil => exact Iff.rfl
  | cons entry rest hypothesis =>
    rw [ordered, List.foldr_cons, Chain.names_put, inserted, List.map_cons, List.mem_cons]
    change (name ∈ if entry.1 ∈ (ordered rest).names then (ordered rest).names
      else (ordered rest).names ++ [entry.1]) ↔ name = entry.1 ∨ name ∈ inserted rest
    by_cases known : entry.1 ∈ (ordered rest).names
    · rw [if_pos known, hypothesis]
      refine ⟨Or.inr, ?_⟩
      rintro (rfl | member)
      · exact hypothesis.mp known
      · exact member
    · rw [if_neg known, List.mem_append, List.mem_singleton, hypothesis, or_comm]

/-- **There are as many entries as distinct names.** -/
theorem length_ordered (insertions : List (String × α)) :
    (ordered insertions).length = (inserted insertions).dedup.length := by
  have same : (ordered insertions).names.Perm (inserted insertions).dedup := by
    rw [List.perm_ext_iff_of_nodup (nodup_ordered insertions) (List.nodup_dedup _)]
    intro name
    rw [mem_names_ordered, List.mem_dedup]
  rw [← Chain.length_names, same.length_eq]

/-- **What a table answers**: the values, the names and the number of the insertions it stands
for. -/
structure Answers (table : Table α) (insertions : List (String × α)) : Prop where
  get? : ∀ name, table.get? name = latest name insertions
  contains : ∀ name, table.contains name ↔ name ∈ inserted insertions
  size : table.size = (inserted insertions).dedup.length
  isEmpty : table.isEmpty ↔ insertions = []

theorem Holds.answers {table : Table α} {insertions : List (String × α)}
    (holds : Holds table insertions) : Answers table insertions := by
  have values : ∀ name, table.get? name = latest name insertions := by
    intro name
    rw [Table.Ordered.get? holds, get?_ordered]
  have size : table.size = (inserted insertions).dedup.length := by
    rw [← length_ordered]
    exact holds.size_eq
  refine ⟨values, fun name => ?_, size, ?_⟩
  · rw [Table.contains, Table.Ordered.get? holds, Chain.isSome_get?_iff, mem_names_ordered]
  · rw [Table.isEmpty, decide_eq_true_iff, size, List.length_eq_zero_iff, List.dedup_eq_nil,
      inserted, List.map_eq_nil_iff]

/-! ### The stack -/

/-- **A scope represents a history**: table by table. -/
def Represents (scope : Scope α) (history : History α) : Prop :=
  Holds scope.table history.current ∧ List.Forall₂ Holds scope.enclosing history.enclosing

theorem represents_step {scope : Scope α} {history : History α}
    (represents : Represents scope history) (action : Step α) :
    Represents (scope.step action) (history.step action) := by
  obtain ⟨current, enclosing⟩ := represents
  match action with
  | .insert name value => exact ⟨Table.Ordered.insert current name value, enclosing⟩
  | .push => exact ⟨Table.ordered_empty, .cons current enclosing⟩
  | .pop =>
    obtain ⟨table, tables⟩ := scope
    obtain ⟨insertions, others⟩ := history
    cases enclosing with
    | nil => exact ⟨current, .nil⟩
    | cons holds later => exact ⟨holds, later⟩

theorem represents_run (steps : List (Step α)) : Represents (run steps) (History.run steps) := by
  have along : ∀ (scope : Scope α) (history : History α), Represents scope history →
      Represents (steps.foldl step scope) (steps.foldl History.step history) := by
    induction steps with
    | nil => exact fun _ _ represents => represents
    | cons first rest hypothesis =>
      intro scope history represents
      exact hypothesis _ _ (represents_step represents first)
  exact along .empty ⟨[], []⟩ ⟨Table.ordered_empty, .nil⟩

/-! ### Answers of the stack -/

/-- A name is looked up from the inside out on both sides. -/
theorem getFrom?_of_holds {tables : List (Table α)} {histories : List (List (String × α))}
    (holds : List.Forall₂ Holds tables histories) (name : String) :
    getFrom? name tables = histories.findSome? (latest name) := by
  induction holds with
  | nil => rfl
  | @cons table insertions tables histories first later hypothesis =>
    rw [getFrom?, List.findSome?_cons, first.answers.get?, hypothesis]
    rfl

theorem getLastD_of_holds {tables : List (Table α)} {histories : List (List (String × α))}
    (holds : List.Forall₂ Holds tables histories) {table : Table α}
    {insertions : List (String × α)} (current : Holds table insertions) :
    Holds (tables.getLastD table) (histories.getLastD insertions) := by
  induction holds generalizing table insertions with
  | nil => exact current
  | cons first later hypothesis => simpa only [List.getLastD_cons] using hypothesis first

/-- **A scope answers as a history does.** -/
structure Refines (scope : Scope Value) (history : History Value) : Prop where
  /-- Every table of the stack answers for its own insertions. -/
  tables : List.Forall₂ Answers (scope.table :: scope.enclosing)
    (history.current :: history.enclosing)
  /-- The value of a name is the last one inserted into the innermost table that has it. -/
  get? : ∀ name, scope.get? name = history.get? name
  /-- A lookup is the same, and a name without a value is an error on the line of the lookup. -/
  lookup : ∀ (machine : Machine) (line : Nat) (name : String),
    Outcome.ofResult line ({ machine with scope := scope }.lookup name) machine =
      match history.get? name with
      | some value => .done value machine
      | none => .failed ⟨line, .unknownName name⟩ machine
  contains : ∀ name, scope.table.contains name ↔ name ∈ inserted history.current
  size : scope.table.size = (inserted history.current).dedup.length
  isEmpty : scope.table.isEmpty ↔ scope.table.size = 0
  /-- The root is the last table of the stack, and answers for the outermost insertions. -/
  root : (scope.table :: scope.enclosing).getLast? = some scope.root ∧
    Answers scope.root history.outermost
  /-- An insertion leaves every enclosing table as it is. -/
  insert : ∀ name value, (scope.insert name value).enclosing = scope.enclosing
  /-- A dropped table gives back what enclosed it, whatever was inserted into it. -/
  restored : ∀ insertions : List (String × Value),
    (insertions.foldl (fun inner entry => inner.insert entry.1 entry.2) scope.push).pop = scope

theorem Represents.refines {scope : Scope Value} {history : History Value}
    (represents : Represents scope history) : Refines scope history := by
  have all : List.Forall₂ Holds (scope.table :: scope.enclosing)
      (history.current :: history.enclosing) := .cons represents.1 represents.2
  have values : ∀ name, scope.get? name = history.get? name := getFrom?_of_holds all
  have current := represents.1.answers
  have each := all.imp fun _ _ => Holds.answers
  refine ⟨each, values, ?_, current.contains, current.size, ?_, ?_, ?_, ?_⟩
  · intro machine line name
    rw [Machine.lookup, values]
    cases history.get? name <;> rfl
  · exact decide_eq_true_iff
  · refine ⟨?_, (getLastD_of_holds represents.2 represents.1).answers⟩
    rw [List.getLast?_cons, root, List.getLastD_eq_getLast?]
  · exact fun _ _ => rfl
  · intro insertions
    have outside := enclosing_foldl_insert insertions scope.push
    rw [pop, outside]
    rfl

/-- **After any steps a scope answers as its history does**: it refines a stack of finite maps. -/
theorem run_refines (steps : List (Step Value)) : Refines (run steps) (History.run steps) :=
  (represents_run steps).refines

end Scope

end Scriptlet
