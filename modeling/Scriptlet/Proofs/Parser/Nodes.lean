/-
**Every node of a parsed program is determined by a token.**

A literal and a name are determined by their own token, an operation by its operator, a call and an
assignment by the name in front, a statement by its first token; the condition `true` of a last
branch comes from the word `else`. The line of a node is that of the token that determines it.

* `Expr.nodes`, `Stmt.nodes`, `Stmt.nodesAll`: the nodes of a tree at all depths.
* `Determines token node`: the token determines the node.
* `Grammar.Derives.determined`: **every node of a derived tree is determined by one of the tokens**,
  by induction on the derivation.
* `Stmt.mapLinesAll_of_fixes`: a change of lines that leaves the lines of all nodes alone leaves the
  tree alone.
-/

import Scriptlet.Proofs.Lines
import Scriptlet.Proofs.Parser.Completeness

namespace Scriptlet

/-! ### Nodes -/

/-- A node of a syntax tree. -/
inductive Node where
  | expression (tree : Expr)
  | statement (tree : Stmt)

/-- The line of a statement. -/
def Stmt.line : Stmt → Nat
  | print line _ | conditional line _ | whileLoop line _ _ | forLoop line _ _ _
  | define line _ _ _ | expression line _ => line

/-- The line of a node. -/
def Node.line : Node → Nat
  | expression tree => tree.line
  | statement tree => tree.line

mutual

/-- **The nodes of an expression**, itself in front. -/
def Expr.nodes (tree : Expr) : List Node :=
  .expression tree ::
    match tree with
    | .number _ _ | .text _ _ | .boolean _ _ | .range _ _ | .identifier _ _ => []
    | .unary _ _ operand => operand.nodes
    | .binary _ _ left right => left.nodes ++ right.nodes
    | .call _ _ arguments => Expr.nodesAll arguments
    | .assign _ _ value => value.nodes

/-- The nodes of expressions. -/
def Expr.nodesAll : List Expr → List Node
  | [] => []
  | first :: rest => first.nodes ++ Expr.nodesAll rest

end

mutual

/-- **The nodes of a statement**, itself in front. -/
def Stmt.nodes (tree : Stmt) : List Node :=
  .statement tree ::
    match tree with
    | .print _ value | .expression _ value => value.nodes
    | .conditional _ branches => Branch.nodesAll branches
    | .whileLoop _ condition body => condition.nodes ++ Stmt.nodesAll body
    | .forLoop _ _ iterand body => iterand.nodes ++ Stmt.nodesAll body
    | .define _ _ _ body => Stmt.nodesAll body

/-- The nodes of statements. -/
def Stmt.nodesAll : List Stmt → List Node
  | [] => []
  | first :: rest => first.nodes ++ Stmt.nodesAll rest

/-- The nodes of branches. -/
def Branch.nodesAll : List Branch → List Node
  | [] => []
  | .guarded condition body :: rest =>
    condition.nodes ++ Stmt.nodesAll body ++ Branch.nodesAll rest

end

/-- The nodes of branches in two parts. -/
theorem Branch.nodesAll_append : ∀ first second : List Branch,
    Branch.nodesAll (first ++ second) = Branch.nodesAll first ++ Branch.nodesAll second
  | [], _ => rfl
  | .guarded _ _ :: rest, second => by
    rw [List.cons_append, Branch.nodesAll, Branch.nodesAll, Branch.nodesAll_append rest second]
    exact (List.append_assoc ..).symm

/-! ### Tokens that determine nodes -/

open Grammar

/-- **A token determines a node**: what the node is made from, and its line. -/
inductive Determines : Token → Node → Prop
  | number {token : Token} {value : Number} (literal : token.kind = .number)
      (spelled : Numeral token.lexeme.toList value) :
      Determines token (.expression (.number token.line value))
  | text {token : Token} {contents : List Char} (literal : token.kind = .text)
      (spelled : Quoted token.lexeme.toList contents) :
      Determines token (.expression (.text token.line (String.ofList contents)))
  | range {token : Token} {kind : RangeKind} {value : Range} (literal : token.kind = .range kind)
      (spelled : RangeSpelling token.lexeme.toList value) (same : value.kind = kind) :
      Determines token (.expression (.range token.line value))
  | yes {token : Token} (literal : token.kind = .keyword .trueWord) :
      Determines token (.expression (.boolean token.line true))
  | no {token : Token} (literal : token.kind = .keyword .falseWord) :
      Determines token (.expression (.boolean token.line false))
  | otherwise {token : Token} (opened : token.kind = .keyword .elseWord) :
      Determines token (.expression (.boolean token.line true))
  | identifier {token : Token} (named : token.kind = .identifier) :
      Determines token (.expression (.identifier token.line token.lexeme))
  | unary {token : Token} {operator : UnaryOperator} {operand : Expr}
      (marked : token.kind.unaryOperator? = some operator) :
      Determines token (.expression (.unary token.line operator operand))
  | binary {token : Token} {operator : BinaryOperator} {left right : Expr}
      (marked : token.kind.binaryOperator? = some operator) :
      Determines token (.expression (.binary token.line operator left right))
  | call {token : Token} {arguments : List Expr} (named : token.kind = .identifier) :
      Determines token (.expression (.call token.line token.lexeme arguments))
  | assign {token : Token} {value : Expr} (named : token.kind = .identifier) :
      Determines token (.expression (.assign token.line token.lexeme value))
  | print {token : Token} {value : Expr} (opened : token.kind = .keyword .putsWord) :
      Determines token (.statement (.print token.line value))
  | conditional {token : Token} {branches : List Branch} (opened : token.kind = .keyword .ifWord) :
      Determines token (.statement (.conditional token.line branches))
  | whileLoop {token : Token} {condition : Expr} {body : List Stmt}
      (opened : token.kind = .keyword .whileWord) :
      Determines token (.statement (.whileLoop token.line condition body))
  | forLoop {token : Token} {name : String} {iterand : Expr} {body : List Stmt}
      (opened : token.kind = .keyword .forWord) :
      Determines token (.statement (.forLoop token.line name iterand body))
  | define {token : Token} {name : String} {parameters : List String} {body : List Stmt}
      (opened : token.kind = .keyword .defWord) :
      Determines token (.statement (.define token.line name parameters body))
  | evaluated {token : Token} {rest : List Token} {value : Expr}
      (derived : Derives .expression (token :: rest) value) :
      Determines token (.statement (.expression token.line value))

/-- A node has the line of the token that determines it. -/
theorem Determines.line_eq {token : Token} {node : Node} (determines : Determines token node) :
    node.line = token.line := by
  cases determines <;> rfl

/-- The token of a name. -/
theorem Determines.of_identifier {token : Token} {line : Nat} {name : String}
    (determines : Determines token (.expression (.identifier line name))) :
    token.kind = .identifier ∧ token.line = line ∧ token.lexeme = name := by
  cases determines with
  | identifier named => exact ⟨named, rfl, rfl⟩

/-- Each of some nodes is determined by one of some tokens. -/
def Determined (tokens : List Token) (nodes : List Node) : Prop :=
  ∀ node ∈ nodes, ∃ token ∈ tokens, Determines token node

namespace Determined

variable {tokens others : List Token} {nodes later : List Node}

theorem nil : Determined tokens [] :=
  List.forall_mem_nil _

theorem cons {token : Token} {node : Node} (determines : Determines token node)
    (member : token ∈ tokens) (rest : Determined tokens nodes) :
    Determined tokens (node :: nodes) :=
  List.forall_mem_cons.mpr ⟨⟨token, member, determines⟩, rest⟩

theorem append (front : Determined tokens nodes) (behind : Determined tokens later) :
    Determined tokens (nodes ++ later) :=
  List.forall_mem_append.mpr ⟨front, behind⟩

theorem mono (determined : Determined tokens nodes) (more : tokens ⊆ others) :
    Determined others nodes := by
  intro node member
  obtain ⟨token, known, determines⟩ := determined node member
  exact ⟨token, more known, determines⟩

end Determined

/-! ### Derivations -/

namespace Grammar

/-- The nodes of the tree of a nonterminal. -/
def Nonterminal.nodes : (nonterminal : Nonterminal) → nonterminal.Tree → List Node
  | .program, trees => Stmt.nodesAll trees
  | .statements, trees => Stmt.nodesAll trees
  | .statement, tree => tree.nodes
  | .elsifs, branches => Branch.nodesAll branches
  | .otherwise, branches => Branch.nodesAll branches
  | .parameters, _ => []
  | .names, _ => []
  | .expression, tree => tree.nodes
  | .assignment, tree => tree.nodes
  | .operation _, tree => tree.nodes
  | .primary, tree => tree.nodes
  | .arguments, values => Expr.nodesAll values

/-- **Every node of a derived tree is determined by one of the tokens.** -/
theorem Derives.determined {nonterminal : Nonterminal} {tokens : List Token}
    {tree : nonterminal.Tree} (derived : Derives nonterminal tokens tree) :
    Determined tokens (nonterminal.nodes tree) := by
  induction derived with
  | program _ _ statements => exact statements.mono (List.subset_append_left _ _)
  | noStatements | noElsifs | noOtherwise | noParameters | emptyParameters | parameters | lastName
  | moreNames => exact .nil
  | moreStatements _ _ head tail =>
    refine .append (head.mono ?_) (tail.mono ?_)
    · exact List.subset_append_left _ _
    · exact List.subset_append_right _ _
  | print puts _ printed =>
    refine .cons (.print puts) List.mem_cons_self (printed.mono ?_)
    exact List.subset_cons_self _ _
  | conditional opened _ _ _ _ _ tested guarded others fallback =>
    refine .cons (.conditional opened) (by simp) ?_
    show Determined _ (Branch.nodesAll (_ :: _ ++ _))
    rw [Branch.nodesAll_append]
    refine .append (.append (.append (tested.mono ?_) (guarded.mono ?_)) (others.mono ?_))
      (fallback.mono ?_)
    all_goals
      intro token member
      simp [member]
  | whileLoop opened _ _ _ tested repeated =>
    refine .cons (.whileLoop opened) (by simp) (.append (tested.mono ?_) (repeated.mono ?_))
    all_goals
      intro token member
      simp [member]
  | forLoop opened _ _ ranged spelled same _ _ repeated =>
    refine .cons (.forLoop opened) (by simp) (.append ?_ (repeated.mono ?_))
    · exact .cons (.range ranged spelled same) (by simp) .nil
    · intro token member
      simp [member]
  | define opened _ _ _ _ _ bodied =>
    refine .cons (.define opened) (by simp) (bodied.mono ?_)
    intro token member
    simp [member]
  | evaluated derived hypothesis => exact .cons (.evaluated derived) List.mem_cons_self hypothesis
  | moreElsifs _ _ _ _ tested guarded others =>
    refine .append (.append (tested.mono ?_) (guarded.mono ?_)) (others.mono ?_)
    all_goals
      intro token member
      simp [member]
  | otherwise opened _ guarded =>
    refine .append (.append ?_ (guarded.mono (List.subset_cons_self _ _))) .nil
    exact .cons (.otherwise opened) List.mem_cons_self .nil
  | expression _ hypothesis => exact hypothesis
  | plain _ hypothesis => exact hypothesis
  | assign _ _ _ left right =>
    -- the name stands somewhere in the target, perhaps in parentheses
    obtain ⟨token, member, determines⟩ := left _ List.mem_cons_self
    obtain ⟨named, rfl, rfl⟩ := determines.of_identifier
    refine .cons (.assign named) (List.mem_append_left _ member) (right.mono ?_)
    intro token member
    simp [member]
  | operand _ _ hypothesis => exact hypothesis
  | @binary level left right mark symbol operator first second listed _ marked _ before behind =>
    have written : mark.kind.binaryOperator? = some operator := by
      rw [marked]
      exact (Level.operator_of_mem listed).1
    refine .cons (.binary written) (by simp) (.append (before.mono ?_) (behind.mono ?_))
    all_goals
      intro token member
      simp [member]
  | negate marked _ hypothesis =>
    refine .cons (.unary (by rw [marked]; rfl)) List.mem_cons_self (hypothesis.mono ?_)
    exact List.subset_cons_self _ _
  | not marked _ hypothesis =>
    refine .cons (.unary (by rw [marked]; rfl)) List.mem_cons_self (hypothesis.mono ?_)
    exact List.subset_cons_self _ _
  | single _ hypothesis => exact hypothesis
  | text literal spelled => exact .cons (.text literal spelled) List.mem_cons_self .nil
  | number literal spelled => exact .cons (.number literal spelled) List.mem_cons_self .nil
  | range literal spelled same =>
    exact .cons (.range literal spelled same) List.mem_cons_self .nil
  | yes literal => exact .cons (.yes literal) List.mem_cons_self .nil
  | no literal => exact .cons (.no literal) List.mem_cons_self .nil
  | identifier named => exact .cons (.identifier named) List.mem_cons_self .nil
  | emptyCall named => exact .cons (.call named) List.mem_cons_self .nil
  | call named _ _ _ listed =>
    refine .cons (.call named) (by simp) (listed.mono ?_)
    intro token member
    simp [member]
  | grouping _ _ _ hypothesis =>
    refine hypothesis.mono ?_
    intro token member
    simp [member]
  | lastArgument _ hypothesis => exact .append hypothesis .nil
  | moreArguments _ _ _ first tail =>
    refine .append (first.mono ?_) (tail.mono ?_)
    all_goals
      intro token member
      simp [member]

end Grammar

/-! ### Changes of lines -/

/-- A change leaves the lines of some nodes alone. -/
def Fixes (change : Nat → Nat) (nodes : List Node) : Prop :=
  ∀ node ∈ nodes, change node.line = node.line

theorem Fixes.cons {change : Nat → Nat} {node : Node} {nodes : List Node}
    (fixed : Fixes change (node :: nodes)) : change node.line = node.line ∧ Fixes change nodes :=
  List.forall_mem_cons.mp fixed

theorem Fixes.append {change : Nat → Nat} {front behind : List Node}
    (fixed : Fixes change (front ++ behind)) : Fixes change front ∧ Fixes change behind :=
  List.forall_mem_append.mp fixed

mutual

theorem Expr.mapLines_of_fixes {change : Nat → Nat} :
    ∀ tree : Expr, Fixes change tree.nodes → tree.mapLines change = tree
  | .number _ value, fixed => congrArg (Expr.number · value) fixed.cons.1
  | .text _ value, fixed => congrArg (Expr.text · value) fixed.cons.1
  | .boolean _ value, fixed => congrArg (Expr.boolean · value) fixed.cons.1
  | .range _ value, fixed => congrArg (Expr.range · value) fixed.cons.1
  | .identifier _ name, fixed => congrArg (Expr.identifier · name) fixed.cons.1
  | .unary _ operator operand, fixed => by
    obtain ⟨line, inside⟩ := fixed.cons
    rw [Expr.mapLines, operand.mapLines_of_fixes inside]
    exact congrArg (Expr.unary · operator operand) line
  | .binary _ operator left right, fixed => by
    obtain ⟨line, inside⟩ := fixed.cons
    obtain ⟨front, behind⟩ := inside.append
    rw [Expr.mapLines, left.mapLines_of_fixes front, right.mapLines_of_fixes behind]
    exact congrArg (Expr.binary · operator left right) line
  | .call _ name arguments, fixed => by
    obtain ⟨line, inside⟩ := fixed.cons
    rw [Expr.mapLines, Expr.mapLinesAll_of_fixes arguments inside]
    exact congrArg (Expr.call · name arguments) line
  | .assign _ name value, fixed => by
    obtain ⟨line, inside⟩ := fixed.cons
    rw [Expr.mapLines, value.mapLines_of_fixes inside]
    exact congrArg (Expr.assign · name value) line

theorem Expr.mapLinesAll_of_fixes {change : Nat → Nat} :
    ∀ trees : List Expr, Fixes change (Expr.nodesAll trees) → Expr.mapLinesAll change trees = trees
  | [], _ => rfl
  | first :: rest, fixed => by
    obtain ⟨front, behind⟩ := fixed.append
    rw [Expr.mapLinesAll, first.mapLines_of_fixes front, Expr.mapLinesAll_of_fixes rest behind]

end

mutual

theorem Stmt.mapLines_of_fixes {change : Nat → Nat} :
    ∀ tree : Stmt, Fixes change tree.nodes → tree.mapLines change = tree
  | .print _ value, fixed => by
    obtain ⟨line, inside⟩ := fixed.cons
    rw [Stmt.mapLines, value.mapLines_of_fixes inside]
    exact congrArg (Stmt.print · value) line
  | .expression _ value, fixed => by
    obtain ⟨line, inside⟩ := fixed.cons
    rw [Stmt.mapLines, value.mapLines_of_fixes inside]
    exact congrArg (Stmt.expression · value) line
  | .conditional _ branches, fixed => by
    obtain ⟨line, inside⟩ := fixed.cons
    rw [Stmt.mapLines, Branch.mapLinesAll_of_fixes branches inside]
    exact congrArg (Stmt.conditional · branches) line
  | .whileLoop _ condition body, fixed => by
    obtain ⟨line, inside⟩ := fixed.cons
    obtain ⟨front, behind⟩ := inside.append
    rw [Stmt.mapLines, condition.mapLines_of_fixes front, Stmt.mapLinesAll_of_fixes body behind]
    exact congrArg (Stmt.whileLoop · condition body) line
  | .forLoop _ name iterand body, fixed => by
    obtain ⟨line, inside⟩ := fixed.cons
    obtain ⟨front, behind⟩ := inside.append
    rw [Stmt.mapLines, iterand.mapLines_of_fixes front, Stmt.mapLinesAll_of_fixes body behind]
    exact congrArg (Stmt.forLoop · name iterand body) line
  | .define _ name parameters body, fixed => by
    obtain ⟨line, inside⟩ := fixed.cons
    rw [Stmt.mapLines, Stmt.mapLinesAll_of_fixes body inside]
    exact congrArg (Stmt.define · name parameters body) line

/-- **A change that leaves the lines of all nodes alone** leaves the program alone. -/
theorem Stmt.mapLinesAll_of_fixes {change : Nat → Nat} :
    ∀ trees : List Stmt, Fixes change (Stmt.nodesAll trees) → Stmt.mapLinesAll change trees = trees
  | [], _ => rfl
  | first :: rest, fixed => by
    obtain ⟨front, behind⟩ := fixed.append
    rw [Stmt.mapLinesAll, first.mapLines_of_fixes front, Stmt.mapLinesAll_of_fixes rest behind]

theorem Branch.mapLinesAll_of_fixes {change : Nat → Nat} :
    ∀ branches : List Branch,
      Fixes change (Branch.nodesAll branches) → Branch.mapLinesAll change branches = branches
  | [], _ => rfl
  | .guarded condition body :: rest, fixed => by
    obtain ⟨inside, behind⟩ := fixed.append
    obtain ⟨tested, guarded⟩ := inside.append
    rw [Branch.mapLinesAll, condition.mapLines_of_fixes tested,
      Stmt.mapLinesAll_of_fixes body guarded, Branch.mapLinesAll_of_fixes rest behind]

end

end Scriptlet
