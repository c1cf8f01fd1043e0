/-
**What a run reads.**

A text reads the names written in it, and the functions it calls read their own frames and the root.
So two frames inside one root that agree on the written names cannot be told apart by running the
text in them: not by their other names, and not by the layout of their tables. A called function
cannot tell any two callers apart.

* `Scope.Beside`: frames inside one root.
* `Coincide`: the states that two runs leave differ only in what their frames differed in before.
* `frames_coincide`: **the names written in a text are all that a run of it sees of its frame**, and
  a call sees nothing of it.
-/

import Scriptlet.Proofs.Evaluation.Agreement
import Scriptlet.Proofs.Evaluation.Preservation

namespace Scriptlet

/-! ### Frames inside one root -/

namespace Scope

variable {α : Type}

/-- **Two frames inside the same root**; what else is around them may differ. -/
structure Beside (first second : Scope α) : Prop where
  root : first.root = second.root
  firstInside : first.enclosing ≠ []
  secondInside : second.enclosing ≠ []

/-- The frames of any two calls are inside the same root. -/
theorem beside_frame (scope : Scope α) (parameters others : List String)
    (arguments values : List α) :
    (scope.frame parameters arguments).Beside (scope.frame others values) := by
  have root : ∀ names given, (scope.frame names given).root = scope.root := by
    intro names given
    rw [Scope.root, enclosing_frame]
    rfl
  have inside : ∀ names given, (scope.frame names given).enclosing ≠ [] := by
    intro names given
    rw [enclosing_frame]
    exact List.cons_ne_nil _ _
  exact ⟨(root _ _).trans (root _ _).symm, inside _ _, inside _ _⟩

/-- Frames inside the same root agree, as far as their names do. -/
theorem Beside.agree {first second : Scope Value} (beside : first.Beside second)
    {seen : String → Prop} (same : ∀ name, seen name → first.get? name = second.get? name) :
    first.Agree id seen (fun name => first.table.get? name = second.table.get? name) second := by
  refine ⟨?_, ?_, ?_, ?_⟩
  · intro name visible
    rw [Value.map_mapLines_id, same name visible]
  · intro name known
    rw [Value.map_mapLines_id, known]
  · intro name
    rw [Value.map_mapLines_id, beside.root]
  · exact iff_of_false beside.secondInside beside.firstInside

end Scope

/-! ### Two runs -/

/-- **The states that two runs leave** in frames that some names stand for the same in: they are the
same outside of the frames, the names still stand for the same, and no name of the two tables has
come to differ. -/
structure Coincide (names : List String) (first second : Scope Value) (after other : Machine) :
    Prop where
  depth : after.depth = other.depth
  sink : after.sink = other.sink
  fresh : after.fresh = other.fresh
  firstEnclosing : after.scope.enclosing = first.enclosing
  secondEnclosing : other.scope.enclosing = second.enclosing
  values : ∀ name ∈ names, after.scope.get? name = other.scope.get? name
  tables : ∀ name, first.table.get? name = second.table.get? name →
    after.scope.table.get? name = other.scope.table.get? name

/-- Two runs that went the same way, with what each of them keeps of its own state. -/
theorem Outcome.Matches.ends {α : Type} {values : α → α → Prop}
    {errors : RuntimeError → RuntimeError → Prop} {states : Machine → Machine → Prop}
    {left right : Machine → Prop} {first second : Outcome α}
    (matched : first.Matches values errors states second) (one : first.Ends left)
    (two : second.Ends right) :
    first.Matches values errors (fun after other => states after other ∧ left after ∧ right other)
      second := by
  cases matched with
  | done same related => exact .done same ⟨related, one, two⟩
  | failed same related => exact .failed same ⟨related, one, two⟩
  | exhausted => exact .exhausted

/-- Runs that change no line and no enclosing table leave states that coincide. -/
theorem Outcome.Matches.coincide {names : List String} {first second : Scope Value}
    {result other : Outcome Value}
    (matched : result.Follows id (Value.mapLines id) (Machine.Agree id (· ∈ names)
      fun name => first.table.get? name = second.table.get? name) other)
    (one : result.Ends fun after => after.scope.enclosing = first.enclosing)
    (two : other.Ends fun after => after.scope.enclosing = second.enclosing) :
    result.Matches (· = ·) (· = ·) (Coincide names first second) other := by
  refine (matched.ends one two).imp ?_ ?_ ?_
  · rintro value _ rfl
    exact value.mapLines_id.symm
  · rintro error _ rfl
    rfl
  · rintro machine after ⟨agree, kept, held⟩
    refine ⟨agree.depth.symm, agree.sink.symm, agree.fresh.symm, kept, held, ?_, ?_⟩
    · intro name written
      rw [agree.scope.get? name written, Value.map_mapLines_id]
    · intro name known
      rw [agree.scope.table name known, Value.map_mapLines_id]

theorem stable_enclosing (names : List String) (tables : List (Table Value)) :
    Stable names fun machine => machine.scope.enclosing = tables where
  assign := fun _ _ same => same
  scope := fun same equal => equal ▸ same

/-- The frame of a call is made from the root alone. -/
theorem Machine.enter_of_root (machine : Machine) {first second : Scope Value}
    (root : first.root = second.root) (definition : Definition) (arguments : List Value) :
    Machine.enter { machine with scope := first } definition arguments =
      Machine.enter { machine with scope := second } definition arguments := by
  unfold Machine.enter Scope.frame
  rw [root]

/-- **Read isolation**: an expression or a statement runs the same in two frames inside one root in
which the names written in it, outside of function bodies, stand for the same: to the same value or
error, with the same output and the same number of active calls, and these names still stand for the
same in the end. A call runs the same in any two frames inside one root, and leaves them as they
are. -/
theorem frames_coincide (fuel : Nat) (machine : Machine) (first second : Scope Value)
    (beside : first.Beside second) :
    (∀ expression : Expr, (∀ name ∈ expression.names, first.get? name = second.get? name) →
      (evaluate fuel expression { machine with scope := first }).Matches (· = ·) (· = ·)
        (Coincide expression.names first second)
        (evaluate fuel expression { machine with scope := second })) ∧
    (∀ statement : Stmt, (∀ name ∈ statement.names, first.get? name = second.get? name) →
      (execute fuel statement { machine with scope := first }).Matches (· = ·) (· = ·)
        (Coincide statement.names first second)
        (execute fuel statement { machine with scope := second })) ∧
    ∀ line definition arguments,
      (call fuel line definition arguments { machine with scope := first }).Matches (· = ·) (· = ·)
        (fun after other => after.scope = first ∧ other = { after with scope := second })
        (call fuel line definition arguments { machine with scope := second }) := by
  have agree : ∀ names : List String, (∀ name ∈ names, first.get? name = second.get? name) →
      Machine.Agree id (· ∈ names) (fun name => first.table.get? name = second.table.get? name)
        { machine with scope := first } { machine with scope := second } := fun names same =>
    ⟨beside.agree same, rfl, rfl, rfl⟩
  have keeps : ∀ (names : List String) (scope : Scope Value),
      Preserves names (fun after => after.scope.enclosing = scope.enclosing) fuel :=
    fun names scope => preserves (stable_enclosing names scope.enclosing) fuel
  refine ⟨?_, ?_, ?_⟩
  · intro expression same
    have matched := (simulates id fuel).evaluate (fun _ written => written) (agree _ same)
    rw [Expr.mapLines_id] at matched
    exact matched.coincide ((keeps _ first).evaluate (List.Subset.refl _) rfl)
      ((keeps _ second).evaluate (List.Subset.refl _) rfl)
  · intro statement same
    have matched := (simulates id fuel).execute (fun _ written => written) (agree _ same)
    rw [Stmt.mapLines_id] at matched
    exact matched.coincide ((keeps _ first).execute (List.Subset.refl _) rfl)
      ((keeps _ second).execute (List.Subset.refl _) rfl)
  · intro line definition arguments
    cases fuel with
    | zero => exact .exhausted
    | succ fuel =>
      rw [call, call, machine.enter_of_root beside.root]
      split
      · exact .failed rfl ⟨rfl, rfl⟩
      · generalize runBlock fuel definition.body .nil _ = outcome
        cases outcome with
        | done value inner => exact .done rfl ⟨rfl, rfl⟩
        | failed error inner => exact .failed rfl ⟨rfl, rfl⟩
        | exhausted => exact .exhausted

/-- A root with a function that reads the name `y`. -/
def readingRoot : Scope Value :=
  Scope.insert .empty "f" (.function 0 ⟨"f", ["n"], [.expression 1 (.identifier 1 "y")]⟩)

/-- A call of that function does not see whether its caller has a name `y`. -/
theorem frames_coincide_hidden :
    let first := readingRoot.frame ["x", "y"] [.boolean true, .boolean false]
    let second := readingRoot.frame ["x"] [.boolean true]
    let statement : Stmt := .expression 2 (.assign 2 "x" (.call 2 "f" [.identifier 2 "x"]))
    (∀ name ∈ statement.names, first.get? name = second.get? name) ∧
      first.get? "y" ≠ second.get? "y" ∧
      (execute 9 statement { Machine.start .unlimited with scope := first }).Matches (· = ·) (· = ·)
        (Coincide statement.names first second)
        (execute 9 statement { Machine.start .unlimited with scope := second }) := by
  intro first second statement
  have same : ∀ name ∈ statement.names, first.get? name = second.get? name := by
    simp [statement, first, second, Stmt.names, Expr.names, Expr.namesAll, Scope.frame,
      Scope.insertAll, Scope.get?_insert]
  refine ⟨same, ?_, ?_⟩
  · simp [first, second, readingRoot, Scope.frame, Scope.insertAll, Scope.insert, Scope.get?,
      Scope.getFrom?, Scope.root, Scope.empty, Table.get?_insert]
  · exact (frames_coincide 9 (.start .unlimited) first second
      (readingRoot.beside_frame _ _ _ _)).2.1 statement same

end Scriptlet
