/-
**Scopes**: a table of names inside enclosing tables.

A name is looked up from the inside out and stored only in the innermost table. The outermost table
is the root; a call runs in a fresh table directly inside the root.

* `Scope.get?`, `Scope.insert`, `Scope.push`, `Scope.pop`, `Scope.root`.
-/

import Scriptlet.Table

namespace Scriptlet

/-- **A table and the tables around it**, the nearest first. -/
structure Scope (α : Type) where
  table : Table α
  enclosing : List (Table α)

namespace Scope

variable {α : Type}

/-- The scope of an empty table with nothing around it. -/
def empty : Scope α := ⟨.empty, []⟩

instance : Inhabited (Scope α) := ⟨empty⟩

/-- The value of a name in the nearest table that has it. -/
def getFrom? (name : String) : List (Table α) → Option α
  | [] => none
  | table :: rest =>
    match table.get? name with
    | some value => some value
    | none => getFrom? name rest

/-- **The value of a name**, looked up from the inside out. -/
def get? (scope : Scope α) (name : String) : Option α :=
  getFrom? name (scope.table :: scope.enclosing)

/-- **Store a value in the innermost table.** -/
def insert (scope : Scope α) (name : String) (value : α) : Scope α :=
  { scope with table := scope.table.insert name value }

/-- An empty table inside a scope. -/
def push (scope : Scope α) : Scope α := ⟨.empty, scope.table :: scope.enclosing⟩

/-- The innermost table is dropped, unless it is the only one. -/
def pop (scope : Scope α) : Scope α :=
  match scope.enclosing with
  | [] => scope
  | table :: rest => ⟨table, rest⟩

/-- The outermost table. -/
def root (scope : Scope α) : Table α := scope.enclosing.getLastD scope.table

/-- How many tables are around the innermost one. -/
def depth (scope : Scope α) : Nat := scope.enclosing.length

/-- Store values under names, as far as both lists go. -/
def insertAll (scope : Scope α) (names : List String) (values : List α) : Scope α :=
  (names.zip values).foldl (fun scope (name, value) => scope.insert name value) scope

/-- **The scope of a call**: parameters in a fresh table inside the root. -/
def frame (scope : Scope α) (parameters : List String) (arguments : List α) : Scope α :=
  insertAll ⟨.empty, [scope.root]⟩ parameters arguments

/-- **A stored value is what its name stands for, and no other name has changed.** -/
theorem get?_insert (scope : Scope α) (name : String) (value : α) (other : String) :
    (scope.insert name value).get? other =
      if other = name then some value else scope.get? other := by
  rw [get?, getFrom?, insert, Table.get?_insert]
  by_cases same : other = name
  · rw [if_pos same, if_pos same]
  · rw [if_neg same, if_neg same]
    rfl

/-- A stored value reaches the root only if there is no other table. -/
theorem get?_root_insert (scope : Scope α) (name : String) (value : α) (other : String) :
    (scope.insert name value).root.get? other =
      if scope.enclosing = [] ∧ other = name then some value else scope.root.get? other := by
  obtain ⟨table, enclosing⟩ := scope
  cases enclosing with
  | nil =>
    simp only [true_and]
    exact Table.get?_insert ..
  | cons outer rest =>
    simp only [reduceCtorEq, false_and, if_false]
    rfl

/-- The root is one of the tables of a scope. -/
theorem root_mem (scope : Scope α) : scope.root ∈ scope.table :: scope.enclosing :=
  List.getLastD_mem_cons ..

/-- Insertions change only the innermost table. -/
theorem enclosing_foldl_insert (entries : List (String × α)) (scope : Scope α) :
    (entries.foldl (fun inner entry => inner.insert entry.1 entry.2) scope).enclosing =
      scope.enclosing := by
  induction entries generalizing scope with
  | nil => rfl
  | cons entry rest hypothesis => exact hypothesis _

/-- The tables around the frame of a call: only the root. -/
theorem enclosing_frame (scope : Scope α) (parameters : List String) (arguments : List α) :
    (scope.frame parameters arguments).enclosing = [scope.root] :=
  enclosing_foldl_insert (parameters.zip arguments) _

end Scope

end Scriptlet
