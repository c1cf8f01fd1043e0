/-
**Writes stay where they are written.**

A run leaves every enclosing table as it is, and changes no name of its own table but those that its
text stores under; a name that has a value keeps having one. A call has no text in its caller's
scope except for its arguments, so it changes nothing else there, and nothing else in the root.

* `Scope.Confined`: the changes of a scope are confined to some names.
* `Scope.stable_confined`: a run keeps its changes confined to the names it is written with.
* `execution_confined`: **the changes of every expression, statement and call are confined**, after
  a result and after an error.
-/

import Scriptlet.Proofs.Evaluation.Preservation

namespace Scriptlet

namespace Scope

variable {α : Type} {before after : Scope α} {names : List String}

/-- **The changes of a scope are confined to some names** of its innermost table. -/
structure Confined (before : Scope α) (names : List String) (after : Scope α) : Prop where
  enclosing : after.enclosing = before.enclosing
  values : ∀ name ∉ names, after.table.get? name = before.table.get? name
  bound : ∀ name, before.table.contains name → after.table.contains name

theorem Confined.refl (scope : Scope α) (names : List String) : scope.Confined names scope :=
  ⟨rfl, fun _ _ => rfl, fun _ known => known⟩

/-- Storing under one of the names keeps the changes confined. -/
theorem Confined.insert (confined : before.Confined names after) {name : String}
    (target : name ∈ names) (value : α) : before.Confined names (after.insert name value) := by
  refine ⟨confined.enclosing, ?_, ?_⟩
  · intro other outside
    have different : other ≠ name := fun same => outside (same ▸ target)
    show (after.table.insert name value).get? other = _
    rw [Table.get?_insert, if_neg different, confined.values other outside]
  · intro other known
    show (after.table.insert name value).contains other
    rw [Table.contains_insert, confined.bound other known, Bool.or_true]

/-- The outermost table changes only if it is the innermost one, and then only under the names. -/
theorem Confined.root (confined : before.Confined names after) {name : String}
    (outside : name ∉ names) : after.root.get? name = before.root.get? name := by
  unfold Scope.root
  rw [confined.enclosing]
  rcases before.enclosing with _ | ⟨first, rest⟩
  · exact confined.values name outside
  · rfl

/-- **A run keeps its changes confined to the names it stores under.** -/
theorem stable_confined (scope : Scope Value) (names : List String) :
    Stable names fun machine => scope.Confined names machine.scope where
  assign := fun value target confined => confined.insert target value
  scope := fun confined same => same ▸ confined

theorem stable_eq (scope : Scope Value) : Stable [] fun machine => machine.scope = scope where
  assign := fun _ target => nomatch target
  scope := fun before same => same.trans before

end Scope

/-- **Write isolation**: an expression or a statement changes no enclosing table, and in its own
table only names that it stores under outside of function bodies; no name loses its value. A call
changes, in the table of its caller and in the root, only names that its arguments store under; it
ends with the scope of its caller, and its body leaves the root as it is. -/
theorem execution_confined (fuel : Nat) (machine : Machine) :
    (∀ expression, (evaluate fuel expression machine).Ends fun after =>
      machine.scope.Confined expression.targets after.scope) ∧
    (∀ statement, (execute fuel statement machine).Ends fun after =>
      machine.scope.Confined statement.targets after.scope) ∧
    (∀ line name arguments, (evaluate fuel (.call line name arguments) machine).Ends fun after =>
      ∀ other ∉ Expr.targetsAll arguments,
        after.scope.table.get? other = machine.scope.table.get? other ∧
          after.scope.root.get? other = machine.scope.root.get? other) ∧
    (∀ line definition arguments, (call fuel line definition arguments machine).Ends fun after =>
      after.scope = machine.scope) ∧
    ∀ definition arguments,
      (runBlock fuel definition.body .nil (machine.enter definition arguments)).Ends fun after =>
        after.scope.enclosing = [machine.scope.root] := by
  have confined : ∀ names, Preserves names (fun after => machine.scope.Confined names after.scope)
      fuel := fun names => preserves (machine.scope.stable_confined names) fuel
  have expressions : ∀ expression, (evaluate fuel expression machine).Ends fun after =>
      machine.scope.Confined expression.targets after.scope := fun expression =>
    (confined expression.targets).evaluate (List.Subset.refl _) (.refl _ _)
  refine ⟨expressions, ?_, ?_, ?_, ?_⟩
  · intro statement
    exact (confined statement.targets).execute (List.Subset.refl _) (.refl _ _)
  · intro line name arguments
    refine (expressions (.call line name arguments)).imp fun after changes other outside => ?_
    exact ⟨changes.values other outside, changes.root outside⟩
  · intro line definition arguments
    exact (preserves machine.scope.stable_eq fuel).call rfl
  · intro definition arguments
    have frame := machine.scope.enclosing_frame definition.parameters arguments
    have body := preserves ((machine.enter definition arguments).scope.stable_confined
      (Stmt.targetsAll definition.body)) fuel
    refine (body.runBlock (List.Subset.refl _) (.refl _ _)).imp fun after changes => ?_
    rw [changes.enclosing]
    exact frame

end Scriptlet
