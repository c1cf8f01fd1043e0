/-
**What a parsed program looks like.**

The kinds of token leave little freedom to the trees: a name is spelled as a name, a number is
written without a sign, a string ends at its first quote, the bounds of a range are digits, and a
loop runs over a range token. So every parsed tree is well formed, at every depth.

* `Stmt.WellFormed`, `Stmt.WellFormedAll`, `Definition.WellFormed`: well-formed trees.
* `Grammar.Derives.wellFormed`: **a tree that is derived from spelled tokens is well formed**, by
  induction on the derivation.
* `Parser.wellFormedAll_of_parse`: a parsed program is well formed.
-/

import Scriptlet.Proofs.Parser.Soundness
import Scriptlet.Proofs.Printer

namespace Scriptlet

/-! ### Well-formed trees -/

/-- **A number without a sign**; not-a-number is none. -/
inductive Number.Unsigned : Number → Prop
  | infinite : Unsigned (.infinite false)
  | finite (magnitude : Magnitude) : Unsigned (.finite false magnitude)

mutual

/-- **A well-formed expression.** -/
def Expr.WellFormed : Expr → Prop
  | .number _ value => value.Unsigned
  | .text _ value => '"' ∉ value.toList
  | .boolean _ _ => True
  | .range _ value => 0 ≤ value.first.toInt ∧ 0 ≤ value.last.toInt
  | .identifier _ name => IsName name
  | .unary _ _ operand => operand.WellFormed
  | .binary _ _ left right => left.WellFormed ∧ right.WellFormed
  | .call _ name arguments => IsName name ∧ Expr.WellFormedAll arguments
  | .assign _ name value => IsName name ∧ value.WellFormed

def Expr.WellFormedAll : List Expr → Prop
  | [] => True
  | first :: rest => first.WellFormed ∧ Expr.WellFormedAll rest

end

mutual

/-- **A well-formed statement**: a conditional has a branch, and a loop runs over a range
literal. -/
def Stmt.WellFormed : Stmt → Prop
  | .print _ value => value.WellFormed
  | .conditional _ branches => branches ≠ [] ∧ Branch.WellFormedAll branches
  | .whileLoop _ condition body => condition.WellFormed ∧ Stmt.WellFormedAll body
  | .forLoop _ name iterand body =>
    IsName name ∧ (∃ line range, iterand = .range line range) ∧ iterand.WellFormed ∧
      Stmt.WellFormedAll body
  | .define _ name parameters body =>
    IsName name ∧ (∀ parameter ∈ parameters, IsName parameter) ∧ Stmt.WellFormedAll body
  | .expression _ value => value.WellFormed

def Stmt.WellFormedAll : List Stmt → Prop
  | [] => True
  | first :: rest => first.WellFormed ∧ Stmt.WellFormedAll rest

def Branch.WellFormedAll : List Branch → Prop
  | [] => True
  | .guarded condition body :: rest =>
    condition.WellFormed ∧ Stmt.WellFormedAll body ∧ Branch.WellFormedAll rest

end

/-- **A well-formed function.** -/
structure Definition.WellFormed (definition : Definition) : Prop where
  name : IsName definition.name
  parameters : ∀ parameter ∈ definition.parameters, IsName parameter
  body : Stmt.WellFormedAll definition.body

theorem Branch.wellFormedAll_append : ∀ {first second : List Branch},
    Branch.WellFormedAll first → Branch.WellFormedAll second →
      Branch.WellFormedAll (first ++ second)
  | [], _, _, later => later
  | .guarded _ _ :: _, _, ⟨condition, body, rest⟩, later =>
    ⟨condition, body, wellFormedAll_append rest later⟩

/-! ### Literals -/

/-- A ratio that is rounded without a sign has none. -/
theorem Number.unsigned_ofRatio (numerator denominator : Nat) :
    (ofRatio false numerator denominator).Unsigned := by
  unfold ofRatio
  generalize Magnitude.round numerator denominator = rounded
  cases rounded with
  | none => exact .infinite
  | some magnitude => exact .finite magnitude

/-- A decimal has no sign. -/
theorem Number.unsigned_ofDecimal (digits places : Nat) : (ofDecimal digits places).Unsigned := by
  unfold ofDecimal
  exact unsigned_ofRatio _ _

theorem Numeral.unsigned {text : List Char} {value : Number} (numeral : Numeral text value) :
    value.Unsigned := by
  cases numeral with
  | whole run => exact Number.unsigned_ofDecimal _ _
  | decimal run behind => exact Number.unsigned_ofDecimal _ _

/-- The bounds of a range literal are not negative. -/
theorem RangeSpelling.nonneg {text : List Char} {range : Range}
    (spelled : RangeSpelling text range) : 0 ≤ range.first.toInt ∧ 0 ≤ range.last.toInt := by
  obtain ⟨first, last, -, low, high⟩ := spelled
  rw [low, high]
  exact ⟨Int.natCast_nonneg _, Int.natCast_nonneg _⟩

/-- A name token is spelled as a name. -/
theorem Token.isName {token : Token} (named : token.kind = .identifier) (spelled : token.Spelled) :
    IsName token.lexeme := by
  rw [Token.Spelled, named] at spelled
  exact spelled

/-! ### Derivations -/

namespace Grammar

/-- What well-formed means for the tree of a nonterminal. -/
def Nonterminal.WellFormed : (nonterminal : Nonterminal) → nonterminal.Tree → Prop
  | .program, trees => Stmt.WellFormedAll trees
  | .statements, trees => Stmt.WellFormedAll trees
  | .statement, tree => tree.WellFormed
  | .elsifs, branches => Branch.WellFormedAll branches
  | .otherwise, branches => Branch.WellFormedAll branches
  | .parameters, listed => ∀ name ∈ listed, IsName name
  | .names, listed => ∀ name ∈ listed, IsName name
  | .expression, tree => tree.WellFormed
  | .assignment, tree => tree.WellFormed
  | .operation _, tree => tree.WellFormed
  | .primary, tree => tree.WellFormed
  | .arguments, values => Expr.WellFormedAll values

/-- **A tree that is derived from spelled tokens is well formed.** -/
theorem Derives.wellFormed {nonterminal : Nonterminal} {tokens : List Token}
    {tree : nonterminal.Tree} (derived : Derives nonterminal tokens tree)
    (spelled : ∀ token ∈ tokens, token.Spelled) : nonterminal.WellFormed tree := by
  induction derived with
  | program _ _ statements =>
    exact statements (List.forall_mem_append.mp spelled).1
  | noStatements => trivial
  | moreStatements _ _ head tail =>
    obtain ⟨front, behind⟩ := List.forall_mem_append.mp spelled
    exact ⟨head front, tail behind⟩
  | print _ _ printed => exact printed (List.forall_mem_cons.mp spelled).2
  | conditional _ _ _ _ _ _ tested guarded others fallback =>
    simp only [List.forall_mem_append, List.forall_mem_cons] at spelled
    obtain ⟨⟨⟨⟨⟨-, condition⟩, body⟩, elsifs⟩, otherwise⟩, -⟩ := spelled
    refine ⟨List.cons_ne_nil _ _, tested condition, guarded body, ?_⟩
    exact Branch.wellFormedAll_append (others elsifs) (fallback otherwise)
  | whileLoop _ _ _ _ tested repeated =>
    simp only [List.forall_mem_append, List.forall_mem_cons] at spelled
    obtain ⟨⟨⟨-, condition⟩, body⟩, -⟩ := spelled
    exact ⟨tested condition, repeated body⟩
  | forLoop _ named _ _ bounds _ _ _ repeated =>
    simp only [List.forall_mem_append, List.forall_mem_cons] at spelled
    obtain ⟨⟨-, name, -, -, body⟩, -⟩ := spelled
    exact ⟨Token.isName named name, ⟨_, _, rfl⟩, bounds.nonneg, repeated body⟩
  | define _ named _ _ _ listed bodied =>
    simp only [List.forall_mem_append, List.forall_mem_cons] at spelled
    obtain ⟨⟨⟨-, name, list⟩, body⟩, -⟩ := spelled
    exact ⟨Token.isName named name, listed list, bodied body⟩
  | evaluated _ hypothesis => exact hypothesis spelled
  | noElsifs => trivial
  | moreElsifs _ _ _ _ tested guarded others =>
    simp only [List.forall_mem_append, List.forall_mem_cons] at spelled
    obtain ⟨⟨⟨-, condition⟩, body⟩, rest⟩ := spelled
    exact ⟨tested condition, guarded body, others rest⟩
  | noOtherwise => trivial
  | otherwise _ _ guarded =>
    exact ⟨trivial, guarded (List.forall_mem_cons.mp spelled).2, trivial⟩
  | noParameters | emptyParameters => exact List.forall_mem_nil _
  | parameters _ _ _ listed =>
    simp only [List.forall_mem_append, List.forall_mem_cons] at spelled
    exact listed spelled.1.2
  | lastName named =>
    have name := Token.isName named (spelled _ List.mem_cons_self)
    exact List.forall_mem_cons.mpr ⟨name, List.forall_mem_nil _⟩
  | moreNames named _ _ tail =>
    simp only [List.forall_mem_cons] at spelled
    obtain ⟨name, -, rest⟩ := spelled
    exact List.forall_mem_cons.mpr ⟨Token.isName named name, tail rest⟩
  | expression _ hypothesis => exact hypothesis spelled
  | plain _ hypothesis => exact hypothesis spelled
  | assign _ _ _ left right =>
    simp only [List.forall_mem_append, List.forall_mem_cons] at spelled
    obtain ⟨target, -, source⟩ := spelled
    exact ⟨left target, right source⟩
  | operand _ _ hypothesis => exact hypothesis spelled
  | binary _ _ _ _ before behind =>
    simp only [List.forall_mem_append, List.forall_mem_cons] at spelled
    obtain ⟨left, -, right⟩ := spelled
    exact ⟨before left, behind right⟩
  | negate _ _ hypothesis => exact hypothesis (List.forall_mem_cons.mp spelled).2
  | not _ _ hypothesis => exact hypothesis (List.forall_mem_cons.mp spelled).2
  | single _ hypothesis => exact hypothesis spelled
  | text _ quoted =>
    show '"' ∉ (String.ofList _).toList
    rw [String.toList_ofList]
    exact quoted.1
  | number _ numeral => exact numeral.unsigned
  | range _ bounds _ => exact bounds.nonneg
  | yes | no => trivial
  | identifier named => exact Token.isName named (spelled _ List.mem_cons_self)
  | emptyCall named => exact ⟨Token.isName named (spelled _ List.mem_cons_self), trivial⟩
  | call named _ _ _ listed =>
    simp only [List.forall_mem_append, List.forall_mem_cons] at spelled
    obtain ⟨⟨name, -, list⟩, -⟩ := spelled
    exact ⟨Token.isName named name, listed list⟩
  | grouping _ _ _ hypothesis =>
    simp only [List.forall_mem_append, List.forall_mem_cons] at spelled
    exact hypothesis spelled.1.2
  | lastArgument _ hypothesis => exact ⟨hypothesis spelled, trivial⟩
  | moreArguments _ _ _ first tail =>
    simp only [List.forall_mem_append, List.forall_mem_cons] at spelled
    obtain ⟨tokens, -, rest⟩ := spelled
    exact ⟨first tokens, tail rest⟩

end Grammar

/-! ### Parsed programs -/

/-- **A parsed program is well formed**, at every depth. -/
theorem Parser.wellFormedAll_of_parse {source : String} {program : Program}
    (accepted : parse source = .ok program) : Stmt.WellFormedAll program := by
  obtain ⟨stream, begun, read⟩ := parse_eq_ok_iff.mp accepted
  have scanned : Scanned stream.results := results_of_ofSource begun ▸ scan_scanned source
  obtain ⟨body, last, results, -, derived⟩ := program_sound scanned read
  refine derived.wellFormed fun token member => ?_
  refine scanned.spelled ?_
  rw [results]
  exact List.mem_map_of_mem (List.mem_append_left _ member)

end Scriptlet
