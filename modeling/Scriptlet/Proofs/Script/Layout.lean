/-
**The layout of a script does not matter.**

Blanks, newlines and comments between the tokens of a text change the lines of the tokens and
nothing else. The parser hands the lines on to the tree, the evaluator hands them on to its errors,
and neither decides anything by them; so two texts with the same tokens run the same, up to the line
of the error that ends them.

* `ScriptError.mapLines`, `ScriptResult.mapLines`: the end of a script with its lines changed.
* `parseStream_mapLines`: reading all of a stream commutes with every change of lines.
* `runProgram_mapLines`: **running a program commutes with every change of lines.**
* `runScript_unique`: how a script ends does not depend on the fuel.
* `runScript_of_sameTokens`: **texts with the same tokens run the same.**
-/

import Scriptlet.Proofs.Evaluation.Agreement
import Scriptlet.Proofs.Parser.Lines
import Scriptlet.Proofs.Stepping.Evaluator
import Scriptlet.Script

namespace Scriptlet

/-! ### Ends of scripts -/

/-- The same error on another line. -/
def ScriptError.mapLines (change : Nat → Nat) : ScriptError → ScriptError
  | .parse error => .parse (error.mapLines change)
  | .runtime error => .runtime (error.mapLines change)

/-- The end of a script with its line changed; the output has no lines. -/
def ScriptResult.mapLines (change : Nat → Nat) : ScriptResult → ScriptResult
  | .finished sink error => .finished sink (error.map (ScriptError.mapLines change))
  | .exhausted => .exhausted

/-- **How a script ends, apart from the line of its error.** -/
def ScriptResult.withoutLines (result : ScriptResult) : ScriptResult :=
  result.mapLines fun _ => 0

theorem ScriptResult.withoutLines_eq_exhausted_iff {result : ScriptResult} :
    result.withoutLines = .exhausted ↔ result = .exhausted := by
  cases result with
  | finished sink error => exact ⟨nofun, nofun⟩
  | exhausted => exact ⟨fun _ => rfl, fun _ => rfl⟩

/-! ### Reading -/

/-- All of a stream, read within its bound. -/
def parseStream (stream : Stream) : Except ParseError Program :=
  match Parser.program (Parser.budget stream) stream with
  | .ok program => .ok program
  | .error (.refused error) => .error error
  | .error .exhausted => .error ⟨stream.line, .unexpectedEnd⟩

theorem parse_eq (source : String) : parse source = Stream.ofSource source >>= parseStream := rfl

/-- A program or an error with all lines changed. -/
def relinedProgram (change : Nat → Nat) : Except ParseError Program → Except ParseError Program
  | .ok program => .ok (Stmt.mapLinesAll change program)
  | .error error => .error (error.mapLines change)

theorem parseStream_mapLines (change : Nat → Nat) (stream : Stream) :
    parseStream (stream.mapLines change) = relinedProgram change (parseStream stream) := by
  have budget : Parser.budget (stream.mapLines change) = Parser.budget stream := by
    simp only [Parser.budget, Stream.mapLines, List.length_map]
  unfold parseStream
  rw [budget, Parser.program_mapLines]
  rcases Parser.program (Parser.budget stream) stream with (error | _) | program <;> rfl

/-- Texts whose tokens and faults are the same up to lines are parsed the same up to lines. -/
theorem parse_of_mapLines {change : Nat → Nat} {source other : String}
    (same : (scan source).map (ScanResult.mapLines change) =
      (scan other).map (ScanResult.mapLines change)) :
    relinedProgram change (parse source) = relinedProgram change (parse other) := by
  rw [parse_eq, parse_eq, Stream.ofSource, Stream.ofSource]
  generalize scan source = results at same
  generalize scan other = others at same
  match results, others with
  | [], [] => rfl
  | .error error :: _, .error fault :: _ =>
    have equal : error.mapLines change = fault.mapLines change := by
      simpa [ScanResult.mapLines] using (List.cons.inj same).1
    exact congrArg Except.error equal
  | .ok token :: rest, .ok first :: later =>
    have front : token.mapLines change = first.mapLines change := by
      simpa [ScanResult.mapLines] using (List.cons.inj same).1
    have equal : Stream.mapLines change ⟨token, rest⟩ = Stream.mapLines change ⟨first, later⟩ := by
      simp only [Stream.mapLines, front, (List.cons.inj same).2]
    show relinedProgram change (parseStream _) = relinedProgram change (parseStream _)
    rw [← parseStream_mapLines, ← parseStream_mapLines, equal]
  | [], _ :: _ | _ :: _, [] => cases same
  | .error _ :: _, .ok _ :: _ | .ok _ :: _, .error _ :: _ =>
    simp [ScanResult.mapLines] at same

/-! ### Running -/

/-- Fresh machines agree. -/
theorem Machine.agree_start (change : Nat → Nat) (sink : Sink) :
    Machine.Agree change (fun _ => True) (fun _ => True) (.start sink) (.start sink) := by
  have empty : ∀ name, (Table.empty : Table Value).get? name =
      ((Table.empty : Table Value).get? name).map (Value.mapLines change) := by
    intro name
    rw [Table.get?_empty]
    rfl
  refine ⟨⟨?_, fun name _ => empty name, empty, Iff.rfl⟩, rfl, rfl, rfl⟩
  intro name _
  simp [Machine.start, Scope.empty, Scope.get?, Scope.getFrom?]

/-- **Running a program commutes with every change of lines.** -/
theorem runProgram_mapLines (change : Nat → Nat) (fuel : Nat) (program : Program) (sink : Sink) :
    runProgram fuel (Stmt.mapLinesAll change program) sink =
      (runProgram fuel program sink).mapLines change := by
  have block : (runBlock fuel program .nil (.start sink)).Follows change (Value.mapLines change)
      (Machine.Agree change (fun _ => True) fun _ => True)
      (runBlock fuel (Stmt.mapLinesAll change program) .nil (.start sink)) :=
    (simulates change fuel).runBlock (fun _ _ => trivial) (Machine.agree_start change sink)
  have whole : (interpret fuel program (.start sink)).Follows change id
      (Machine.Agree change (fun _ => True) fun _ => True)
      (interpret fuel (Stmt.mapLinesAll change program) (.start sink)) :=
    block.bind fun _ _ _ agree => .done rfl agree
  unfold runProgram
  generalize interpret fuel program (.start sink) = result at whole
  generalize interpret fuel (Stmt.mapLinesAll change program) (.start sink) = other at whole
  cases whole with
  | done _ agree => exact congrArg (ScriptResult.finished · none) agree.sink
  | failed same agree =>
    subst same
    exact congrArg (ScriptResult.finished · _) agree.sink
  | exhausted => rfl

/-- Texts that are parsed the same up to lines run the same up to lines. -/
theorem runScript_of_relined {change : Nat → Nat} {source other : String}
    (same : relinedProgram change (parse source) = relinedProgram change (parse other))
    (fuel : Nat) (sink : Sink) :
    (runScript fuel source sink).mapLines change = (runScript fuel other sink).mapLines change := by
  unfold runScript
  generalize parse source = result at same
  generalize parse other = answer at same
  match result, answer with
  | .ok program, .ok second =>
    show (runProgram _ _ _).mapLines _ = (runProgram _ _ _).mapLines _
    rw [← runProgram_mapLines, ← runProgram_mapLines, Except.ok.inj same]
  | .error error, .error fault =>
    have equal : error.mapLines change = fault.mapLines change := Except.error.inj same
    show ScriptResult.finished _ (some (.parse _)) = .finished _ (some (.parse _))
    rw [equal]
  | .ok _, .error _ | .error _, .ok _ => cases same

/-! ### Ends and fuel -/

/-- How a script ends whose program comes to the given state. -/
def ScriptResult.ofFinal : Option State → ScriptResult
  | none => .exhausted
  | some ⟨.error error, _, machine⟩ => .finished machine.sink (some (.runtime error))
  | some ⟨_, _, machine⟩ => .finished machine.sink none

theorem runProgram_eq_ofFinal (fuel : Nat) (program : Program) (sink : Sink) :
    runProgram fuel program sink =
      .ofFinal ((Action.interpret program).run fuel (.start sink)).final := by
  rw [runProgram, Action.run]
  cases interpret fuel program (.start sink) <;> rfl

/-- **How a script ends does not depend on the fuel** that it ended with. -/
theorem runScript_unique {source : String} {sink : Sink} {fuel more : Nat}
    (ended : runScript fuel source sink ≠ .exhausted)
    (again : runScript more source sink ≠ .exhausted) :
    runScript fuel source sink = runScript more source sink := by
  unfold runScript at ended again ⊢
  generalize parse source = read at ended again ⊢
  cases read with
  | error error => rfl
  | ok program =>
    simp only [runProgram_eq_ofFinal] at ended again ⊢
    cases first : ((Action.interpret program).run fuel (.start sink)).final with
    | none => exact absurd (congrArg ScriptResult.ofFinal first) ended
    | some after =>
      cases second : ((Action.interpret program).run more (.start sink)).final with
      | none => exact absurd (congrArg ScriptResult.ofFinal second) again
      | some other => rw [Action.final_of_final first second]

/-! ### Texts with the same tokens -/

/-- The kind and the characters of a token, without its line. -/
def Token.form (token : Token) : TokenKind × String := (token.kind, token.lexeme)

/-- Without lines, tokens are their forms. -/
theorem mapLines_zero_ok (tokens : List Token) :
    (tokens.map Except.ok).map (ScanResult.mapLines fun _ => 0) =
      (tokens.map Token.form).map fun form => .ok ⟨form.1, form.2, 0⟩ := by
  rw [List.map_map, List.map_map]
  rfl

/-- **The layout of a script does not matter**: two texts that are scanned without a fault to tokens
of the same kinds and characters run the same with equal sinks. They take the same fuel, both end or
neither does, and when they have ended they have written the same bytes and have both run to their
end, or stopped at the same error but for its line. -/
theorem runScript_of_sameTokens (source other : String) (tokens others : List Token)
    (scanned : scan source = tokens.map .ok) (rescanned : scan other = others.map .ok)
    (same : tokens.map Token.form = others.map Token.form) (sink : Sink) :
    (∀ fuel, (runScript fuel source sink).withoutLines = (runScript fuel other sink).withoutLines) ∧
    ((∃ fuel, runScript fuel source sink ≠ .exhausted) ↔
      ∃ fuel, runScript fuel other sink ≠ .exhausted) ∧
    ∀ fuel more, runScript fuel source sink ≠ .exhausted → runScript more other sink ≠ .exhausted →
      (runScript fuel source sink).withoutLines = (runScript more other sink).withoutLines := by
  have lines : (scan source).map (ScanResult.mapLines fun _ => 0) =
      (scan other).map (ScanResult.mapLines fun _ => 0) := by
    rw [scanned, rescanned, mapLines_zero_ok, mapLines_zero_ok, same]
  have runs : ∀ fuel,
      (runScript fuel source sink).withoutLines = (runScript fuel other sink).withoutLines :=
    fun fuel => runScript_of_relined (parse_of_mapLines lines) fuel sink
  have ends : ∀ fuel,
      runScript fuel source sink = .exhausted ↔ runScript fuel other sink = .exhausted := by
    intro fuel
    rw [← ScriptResult.withoutLines_eq_exhausted_iff, runs,
      ScriptResult.withoutLines_eq_exhausted_iff]
  refine ⟨runs, exists_congr fun fuel => not_congr (ends fuel), ?_⟩
  intro fuel more ended again
  have unfinished := (not_congr (ends fuel)).mp ended
  rw [runs, runScript_unique unfinished again]

/-- Comments and newlines move the error of an unknown name to another line, and change nothing
else. -/
theorem runScript_of_sameTokens_commented :
    ∃ tokens others : List Token, scan "puts x" = tokens.map .ok ∧
      scan "# a note\n\nputs # again\n\tx" = others.map .ok ∧
      tokens.map Token.form = others.map Token.form ∧ tokens ≠ others ∧
      ∀ fuel, (runScript fuel "puts x" .unlimited).withoutLines =
        (runScript fuel "# a note\n\nputs # again\n\tx" .unlimited).withoutLines := by
  have scanned : scan "puts x" =
      [⟨.keyword .putsWord, "puts", 1⟩, ⟨.identifier, "x", 1⟩, .endOfInput 1].map .ok := by
    decide +kernel
  have rescanned : scan "# a note\n\nputs # again\n\tx" =
      [⟨.keyword .putsWord, "puts", 3⟩, ⟨.identifier, "x", 4⟩, .endOfInput 4].map .ok := by
    decide +kernel
  refine ⟨_, _, scanned, rescanned, rfl, by decide, ?_⟩
  exact (runScript_of_sameTokens _ _ _ _ scanned rescanned rfl .unlimited).1

end Scriptlet
