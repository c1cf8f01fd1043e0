/-
**Every expression of the grammar is read, with its tree.**

Derivations have levels, and the reader climbs precedences with one token in front. A derivation
at a level is the beginning of what the loop reads, so the statement carried through the levels is
one about continuations (`ReadsOperation`): if the loop goes on behind the tokens with their tree
as its left operand, the reader comes to the same result from in front of them. What may stand
behind is said once for each nonterminal: no operator that binds tighter than the level, and no
parenthesis, which would turn a name into a call.

The bound on the recursion is explicit: eight levels for each token.

* `Parser.completes`: what each nonterminal derives is read, by induction on the derivation.
* `Parser.readsAs_of_derives`: the expressions among them, in front of every token that is no
  operator, no assignment and no parenthesis.
* `Parser.Parenthesized`: the same expression with parentheses added around its parts.
* `Parser.expression_complete`: **the tree of an expression is read, and so it is unique; operators
  group by their precedences and to the left, those in front bind tightest, assignments group to
  the right, and added parentheses change nothing.**
-/

import Scriptlet.Proofs.Parser.RoundTrip
import Scriptlet.Proofs.Parser.Soundness

namespace Scriptlet

namespace Grammar

namespace Level

/-- **The precedence of the operators of a level.** -/
def precedence : Level → Nat
  | logicOr => 0
  | logicAnd => 1
  | equality => 2
  | comparison => 3
  | term => 4
  | factor => 5
  | unary => 6

theorem precedence_le_six (level : Level) : level.precedence ≤ 6 := by
  cases level <;> decide

@[simp] theorem levelOf_precedence (level : Level) : Parser.levelOf level.precedence = level := by
  cases level <;> rfl

theorem precedence_tighter {level : Level} (loose : level ≠ .unary) :
    level.tighter.precedence = level.precedence + 1 := by
  cases level with
  | unary => exact absurd rfl loose
  | _ => rfl

/-- The operators of a level are written by their symbols and have its precedence. -/
theorem operator_of_mem {level : Level} {symbol : Symbol} {operator : BinaryOperator}
    (listed : (symbol, operator) ∈ level.operators) :
    symbol.binaryOperator? = some operator ∧ operator.precedence = level.precedence := by
  have each : ∀ pair ∈ level.operators,
      pair.1.binaryOperator? = some pair.2 ∧ pair.2.precedence = level.precedence := by
    cases level <;> decide
  exact each (symbol, operator) listed

end Level

end Grammar

namespace Parser

open Grammar

/-! ### What it is to be read -/

/-- **A token that can follow an expression**: it neither goes on with an operation, nor assigns,
nor calls. -/
def FollowsExpression (kind : TokenKind) : Prop :=
  kind.binaryOperator? = none ∧ kind ≠ .symbol .assign ∧ kind ≠ .symbol .leftParen

/-- **Tokens are read as a tree**, in front of every token that can follow an expression. -/
def ReadsAs (tokens : List Token) (tree : Expr) : Prop :=
  ∀ (after : Stream) (fuel : Nat), FollowsExpression after.current.kind →
    8 * tokens.length + 3 ≤ fuel → expression fuel (after.prepend tokens) = .ok (tree, after)

/-- Tokens are read as an operand, in front of every token that does not call. -/
def ReadsOperand (tokens : List Token) (tree : Expr) : Prop :=
  ∀ (after : Stream) (fuel : Nat), after.current.kind ≠ .symbol .leftParen →
    8 * tokens.length ≤ fuel + 6 → operand fuel (after.prepend tokens) = .ok (tree, after)

/-- **Tokens begin an operation.** Behind them stands no operator that binds tighter than theirs.
If the loop over the operators from some level on goes on there with their tree, an operation from
that level on goes on in front of them with the same result. -/
def ReadsOperation (precedence : Nat) (tokens : List Token) (tree : Expr) : Prop :=
  ∀ (level bound : Nat) (after : Stream) (result : Except Stop (Expr × Stream)),
    level ≤ precedence → operatorFrom? (precedence + 1) after = none →
    after.current.kind ≠ .symbol .leftParen →
    (∀ fuel, bound ≤ fuel → operations fuel level tree after = result) →
    ∀ fuel, bound + 8 * tokens.length < fuel →
      operation fuel level (after.prepend tokens) = result

/-- Tokens are read as arguments up to the parenthesis that closes them. -/
def ReadsArguments (tokens : List Token) (values : List Expr) : Prop :=
  ∀ (after : Stream) (closing : Token) (fuel : Nat), closing.kind = .symbol .rightParen →
    8 * tokens.length + 4 ≤ fuel →
    argumentsUntilClosed fuel (after.prepend (tokens ++ [closing])) = .ok (values, after)

/-- **What it is to be read, for each nonterminal** of an expression. -/
def Completes : (nonterminal : Nonterminal) → List Token → nonterminal.Tree → Prop
  | .expression, tokens, tree | .assignment, tokens, tree => ReadsAs tokens tree
  | .operation level, tokens, tree =>
    (level = .unary → ReadsOperand tokens tree) ∧ ReadsOperation level.precedence tokens tree
  | .primary, tokens, tree => ReadsOperand tokens tree
  | .arguments, tokens, values => ReadsArguments tokens values
  | .program, _, _ | .statements, _, _ | .statement, _, _ | .elsifs, _, _ | .otherwise, _, _
  | .parameters, _, _ | .names, _, _ => True

/-! ### Operands -/

section Operands

variable {fuel : Nat} {stream after : Stream} {token opening closing : Token}
  {inner list : List Token} {tree : Expr} {values : List Expr}

/-- An operand without an operator in front is a primary expression. -/
theorem operand_of_primary {result : Except Stop (Expr × Stream)}
    (bare : stream.current.kind.unaryOperator? = none) (read : primary fuel stream = result) :
    operand (fuel + 1) stream = result := by
  rw [operand, bare]
  exact read

/-- A token that is a primary expression of its own. -/
theorem readsOperand_of_token (bare : token.kind.unaryOperator? = none)
    (read : ∀ (fuel : Nat) (after : Stream), after.current.kind ≠ .symbol .leftParen →
      primary (fuel + 1) (after.prepend [token]) = .ok (tree, after)) :
    ReadsOperand [token] tree := by
  intro after fuel uncalled enough
  obtain ⟨fuel, rfl⟩ : ∃ depth, fuel = depth + 2 :=
    ⟨fuel - 2, by rw [List.length_singleton] at enough; omega⟩
  exact operand_of_primary bare (read fuel after uncalled)

/-- An operator in front of an operand makes an operand. -/
theorem ReadsOperand.unary {mark : Token} {operator : UnaryOperator}
    (inside : ReadsOperand inner tree) (marked : mark.kind.unaryOperator? = some operator) :
    ReadsOperand (mark :: inner) (.unary mark.line operator tree) := by
  intro after fuel uncalled enough
  rw [List.length_cons] at enough
  obtain ⟨fuel, rfl⟩ : ∃ depth, fuel = depth + 1 := ⟨fuel - 1, by omega⟩
  have front : (after.prepend (mark :: inner)).current.kind.unaryOperator? = some operator := marked
  rw [operand, front]
  simp [inside after fuel uncalled (by omega)]

theorem followsExpression_rightParen (closed : closing.kind = .symbol .rightParen) :
    FollowsExpression (after.prepend [closing]).current.kind := by
  show FollowsExpression closing.kind
  rw [closed]
  exact ⟨rfl, by decide, by decide⟩

/-- An expression in parentheses is an operand, whatever follows it. -/
theorem ReadsAs.grouping (inside : ReadsAs inner tree) (opened : opening.kind = .symbol .leftParen)
    (closed : closing.kind = .symbol .rightParen) :
    ReadsOperand (opening :: inner ++ [closing]) tree := by
  intro after fuel _ enough
  simp only [List.cons_append, List.length_cons, List.length_append, List.length_nil] at enough
  obtain ⟨fuel, rfl⟩ : ∃ depth, fuel = depth + 2 := ⟨fuel - 2, by omega⟩
  have read := inside (after.prepend [closing]) fuel (followsExpression_rightParen closed)
    (by omega)
  rw [Stream.prepend_prepend] at read
  refine operand_of_primary ?_ ?_
  · show opening.kind.unaryOperator? = none
    rw [opened]
    rfl
  · rw [primary, List.cons_append]
    simp [opened, read, Stream.expect_prepend closed]

/-- A name in front of a list of arguments is a call. -/
theorem readsOperand_call (named : token.kind = .identifier)
    (opened : opening.kind = .symbol .leftParen)
    (read : ∀ (after : Stream) (fuel : Nat), 8 * list.length < fuel →
      arguments fuel (after.prepend list) = .ok (values, after)) :
    ReadsOperand (token :: opening :: list) (.call token.line token.lexeme values) := by
  intro after fuel _ enough
  simp only [List.length_cons] at enough
  obtain ⟨fuel, rfl⟩ : ∃ depth, fuel = depth + 2 := ⟨fuel - 2, by omega⟩
  refine operand_of_primary ?_ ?_
  · show token.kind.unaryOperator? = none
    rw [named]
    rfl
  · rw [primary]
    simp [named, Stream.accept_prepend opened, read after fuel (by omega)]

/-- Arguments begin with an expression, and so with no closing parenthesis. -/
theorem arguments_begin (listed : Derives .arguments list values) :
    ∃ first rest, list = first :: rest ∧ first.kind ≠ .symbol .rightParen := by
  obtain ⟨tokens, others, value, rfl, derived⟩ : ∃ tokens others value,
      list = tokens ++ others ∧ Derives .expression tokens value := by
    cases listed with
    | lastArgument derived => exact ⟨_, [], _, (List.append_nil _).symm, derived⟩
    | moreArguments derived => exact ⟨_, _, _, rfl, derived⟩
  obtain ⟨first, rest, rfl⟩ := List.exists_cons_of_ne_nil (derived.tokens_ne_nil rfl)
  refine ⟨first, rest ++ others, rfl, fun closed => ?_⟩
  have begun := derived.begins rfl first rfl
  rw [closed] at begun
  exact absurd begun (by decide)

/-- Arguments that are read up to their closing parenthesis. -/
theorem ReadsArguments.arguments (listed : Derives .arguments list values)
    (inside : ReadsArguments list values) (closed : closing.kind = .symbol .rightParen)
    (after : Stream) (fuel : Nat) (enough : 8 * (list ++ [closing]).length < fuel) :
    arguments fuel (after.prepend (list ++ [closing])) = .ok (values, after) := by
  rw [List.length_append, List.length_singleton] at enough
  obtain ⟨fuel, rfl⟩ : ∃ depth, fuel = depth + 1 := ⟨fuel - 1, by omega⟩
  have read := inside after closing fuel closed (by omega)
  obtain ⟨first, rest, rfl, opens⟩ := arguments_begin listed
  rw [Parser.arguments, Stream.accept_of_ne opens]
  exact read

end Operands

/-! ### Operations -/

section Operations

variable {level precedence : Nat} {after : Stream} {tokens left right : List Token} {mark : Token}
  {tree first second : Expr}

/-- Where no operator of a level or a tighter one stands, none of a tighter level stands. -/
theorem operatorFrom?_tighter {tight : Nat} (none_left : operatorFrom? level after = none)
    (tighter : level ≤ tight) : operatorFrom? tight after = none := by
  rw [operatorFrom?, Option.filter_eq_none_iff] at none_left ⊢
  intro operator read included
  refine none_left operator read ?_
  simp only [decide_eq_true_eq] at included ⊢
  omega

/-- The loop ends where no operator of its level stands. -/
theorem operations_of_none {fuel : Nat} (none_left : operatorFrom? level after = none)
    (enough : 1 ≤ fuel) : operations fuel level tree after = .ok (tree, after) := by
  obtain ⟨fuel, rfl⟩ : ∃ depth, fuel = depth + 1 := ⟨fuel - 1, by omega⟩
  rw [operations, none_left]

/-- An operation that nothing continues is read to its end. -/
theorem ReadsOperation.ended (reads : ReadsOperation precedence tokens tree)
    (loose : level ≤ precedence) (none_left : operatorFrom? level after = none)
    (uncalled : after.current.kind ≠ .symbol .leftParen) (fuel : Nat)
    (enough : 8 * tokens.length + 2 ≤ fuel) :
    operation fuel level (after.prepend tokens) = .ok (tree, after) :=
  reads level 1 after _ loose (operatorFrom?_tighter none_left (by omega)) uncalled
    (fun _ => operations_of_none none_left) fuel (by omega)

/-- An operand begins an operation at every level. -/
theorem ReadsOperand.operation (reads : ReadsOperand tokens tree) :
    ReadsOperation precedence tokens tree := by
  intro level bound after result _ _ uncalled continued fuel enough
  obtain ⟨fuel, rfl⟩ : ∃ depth, fuel = depth + 1 := ⟨fuel - 1, by omega⟩
  rw [Parser.operation, reads after fuel uncalled (by omega)]
  exact continued fuel (by omega)

/-- What begins an operation of a tight level begins one of the next looser level. -/
theorem ReadsOperation.loosen (reads : ReadsOperation (precedence + 1) tokens tree) :
    ReadsOperation precedence tokens tree := by
  intro level bound after result loose none_left uncalled continued
  exact reads level bound after result (by omega) (operatorFrom?_tighter none_left (by omega))
    uncalled continued

/-- **An operator between its operands begins an operation of its level**: its left operand is one
and its right operand is one of the next tighter level. -/
theorem ReadsOperation.binary {operator : BinaryOperator}
    (before : ReadsOperation operator.precedence left first)
    (marked : mark.kind.binaryOperator? = some operator)
    (behind : ReadsOperation (operator.precedence + 1) right second) :
    ReadsOperation operator.precedence (left ++ mark :: right)
      (.binary mark.line operator first second) := by
  intro level bound after result loose none_left uncalled continued fuel enough
  rw [List.length_append, List.length_cons] at enough
  have front (level : Nat) : operatorFrom? level (after.prepend (mark :: right)) =
      if level ≤ operator.precedence then some operator else none := by
    show (mark.kind.binaryOperator?).filter _ = _
    rw [marked, Option.filter_some]
    simp only [decide_eq_true_eq]
  rw [← Stream.prepend_prepend]
  refine before level (bound + 8 * right.length + 3) _ result loose ?_ ?_ ?_ fuel (by omega)
  · rw [front, if_neg (by omega)]
  · show mark.kind ≠ _
    intro called
    rw [called] at marked
    cases marked
  -- one turn of the loop: the operator, its right operand, and the loop behind it
  · intro fuel enough
    obtain ⟨fuel, rfl⟩ : ∃ depth, fuel = depth + 1 := ⟨fuel - 1, by omega⟩
    have read := behind.ended (Nat.le_refl _) none_left uncalled fuel (by omega)
    rw [operations, front, if_pos loose]
    simp only [Stream.advance_prepend, orStop_ok, ok_bind, read]
    exact continued fuel (by omega)

end Operations

/-! ### Expressions -/

section Expressions

variable {tokens target source list : List Token} {mark comma : Token} {line : Nat} {name : String}
  {tree value : Expr} {values : List Expr}

/-- An operation is an expression. -/
theorem ReadsOperation.expression (reads : ReadsOperation 0 tokens tree) :
    ReadsAs tokens tree := by
  intro after fuel follows enough
  obtain ⟨last, plain, uncalled⟩ := follows
  obtain ⟨fuel, rfl⟩ : ∃ depth, fuel = depth + 1 := ⟨fuel - 1, by omega⟩
  exact expression_of_operation (reads.ended (Nat.le_refl 0)
    (operatorFrom?_of_ends ⟨last, plain⟩ 0) uncalled fuel (by omega)) plain

/-- **An assignment to a name**; its value is what follows the sign, to the end. -/
theorem ReadsOperation.assign (left : ReadsOperation 0 target (.identifier line name))
    (assigned : mark.kind = .symbol .assign) (right : ReadsAs source value) :
    ReadsAs (target ++ mark :: source) (.assign line name value) := by
  intro after fuel follows enough
  rw [List.length_append, List.length_cons] at enough
  obtain ⟨fuel, rfl⟩ : ∃ depth, fuel = depth + 1 := ⟨fuel - 1, by omega⟩
  have kind : (after.prepend (mark :: source)).current.kind = .symbol .assign := assigned
  have none_left : operatorFrom? 0 (after.prepend (mark :: source)) = none := by
    rw [operatorFrom?, kind]
    rfl
  have read := left.ended (Nat.le_refl 0) none_left (by rw [kind]; decide) fuel (by omega)
  rw [Stream.prepend_prepend] at read
  rw [Parser.expression, read]
  simp [Stream.accept_prepend assigned, right after fuel follows (by omega), assignTo]

/-- The last argument is followed by the closing parenthesis. -/
theorem ReadsAs.lastArgument (reads : ReadsAs tokens value) : ReadsArguments tokens [value] := by
  intro after closing fuel closed enough
  obtain ⟨fuel, rfl⟩ : ∃ depth, fuel = depth + 1 := ⟨fuel - 1, by omega⟩
  have read := reads (after.prepend [closing]) fuel (followsExpression_rightParen closed) (by omega)
  have undivided : (after.prepend [closing]).current.kind ≠ .symbol .comma := by
    show closing.kind ≠ _
    rw [closed]
    decide
  rw [Stream.prepend_prepend] at read
  rw [argumentsUntilClosed, read]
  simp [Stream.accept_of_ne undivided, Stream.expect_prepend closed]

/-- Any other argument is followed by a comma. -/
theorem ReadsAs.moreArguments (reads : ReadsAs tokens value)
    (divided : comma.kind = .symbol .comma) (others : ReadsArguments list values) :
    ReadsArguments (tokens ++ comma :: list) (value :: values) := by
  intro after closing fuel closed enough
  rw [List.length_append, List.length_cons] at enough
  obtain ⟨fuel, rfl⟩ : ∃ depth, fuel = depth + 1 := ⟨fuel - 1, by omega⟩
  have follows : FollowsExpression (after.prepend (comma :: list ++ [closing])).current.kind := by
    show FollowsExpression comma.kind
    rw [divided]
    exact ⟨rfl, by decide, by decide⟩
  have read := reads _ fuel follows (by omega)
  rw [Stream.prepend_prepend] at read
  rw [List.append_assoc, argumentsUntilClosed, read]
  simp [Stream.accept_prepend divided, others after closing fuel closed (by omega)]

end Expressions

/-! ### All derivations -/

/-- **What the grammar derives is read**, whatever the nonterminal. -/
theorem completes {nonterminal : Nonterminal} {tokens : List Token} {tree : nonterminal.Tree}
    (derived : Derives nonterminal tokens tree) : Completes nonterminal tokens tree := by
  induction derived with
  | program | noStatements | moreStatements | print | conditional | whileLoop | forLoop | define
  | evaluated | noElsifs | moreElsifs | noOtherwise | otherwise | noParameters | emptyParameters
  | parameters | lastName | moreNames => trivial
  | expression _ reads => exact reads
  | plain _ reads => exact reads.2.expression
  | assign _ assigned _ left right => exact left.2.assign assigned right
  | @operand level _ _ loose _ reads =>
    refine ⟨fun tightest => absurd tightest loose, ReadsOperation.loosen ?_⟩
    rw [← Level.precedence_tighter loose]
    exact reads.2
  | @binary level _ _ mark symbol operator _ _ listed _ marked _ before behind =>
    obtain ⟨written, same⟩ := Level.operator_of_mem listed
    have loose : level ≠ .unary := by
      rintro rfl
      cases listed
    have read : mark.kind.binaryOperator? = some operator := by
      rw [marked]
      exact written
    refine ⟨fun tightest => absurd tightest loose, ?_⟩
    have first := before.2
    have second := behind.2
    rw [Level.precedence_tighter loose] at second
    rw [← same] at first second ⊢
    exact first.binary read second
  | negate marked _ reads =>
    have read := (reads.1 rfl).unary (by rw [marked]; rfl : _ = some UnaryOperator.negate)
    exact ⟨fun _ => read, read.operation⟩
  | not marked _ reads =>
    have read := (reads.1 rfl).unary (by rw [marked]; rfl : _ = some UnaryOperator.not)
    exact ⟨fun _ => read, read.operation⟩
  | single _ reads => exact ⟨fun _ => reads, ReadsOperand.operation reads⟩
  | text literal spelled =>
    refine readsOperand_of_token (by rw [literal]; rfl) fun fuel after _ => ?_
    simp [primary, literal, textLiteral_of_quoted spelled]
  | number literal spelled =>
    refine readsOperand_of_token (by rw [literal]; rfl) fun fuel after _ => ?_
    simp [primary, literal, numberLiteral_of_numeral spelled]
  | range literal spelled same =>
    refine readsOperand_of_token (by rw [literal]; rfl) fun fuel after _ => ?_
    simp [primary, literal, rangeLiteral_of_spelling spelled same]
  | yes literal =>
    refine readsOperand_of_token (by rw [literal]; rfl) fun fuel after _ => ?_
    simp [primary, literal]
  | no literal =>
    refine readsOperand_of_token (by rw [literal]; rfl) fun fuel after _ => ?_
    simp [primary, literal]
  | identifier named =>
    refine readsOperand_of_token (by rw [named]; rfl) fun fuel after uncalled => ?_
    simp [primary, named, Stream.accept_of_ne uncalled]
  | emptyCall named opened closed =>
    refine readsOperand_call named opened fun after fuel enough => ?_
    obtain ⟨fuel, rfl⟩ : ∃ depth, fuel = depth + 1 := ⟨fuel - 1, by omega⟩
    simp [arguments, Stream.accept_prepend closed]
  | call named opened listed closed reads =>
    exact readsOperand_call named opened (ReadsArguments.arguments listed reads closed)
  | grouping opened _ closed reads => exact ReadsAs.grouping reads opened closed
  | lastArgument _ reads => exact ReadsAs.lastArgument reads
  | moreArguments _ divided _ reads others => exact ReadsAs.moreArguments reads divided others

/-- **An expression of the grammar is read as its tree.** -/
theorem readsAs_of_derives {tokens : List Token} {tree : Expr}
    (derived : Derives .expression tokens tree) : ReadsAs tokens tree := completes derived

/-- **The tree of an expression is unique**: at the end of the input only one is read. -/
theorem tree_unique {tokens : List Token} {tree other : Expr}
    (derived : Derives .expression tokens tree) (again : Derives .expression tokens other) :
    tree = other := by
  have follows : FollowsExpression ended.current.kind := ⟨rfl, by decide, by decide⟩
  have one := readsAs_of_derives derived ended _ follows (Nat.le_refl _)
  have two := readsAs_of_derives again ended _ follows (Nat.le_refl _)
  exact congrArg Prod.fst (Except.ok.inj (one.symm.trans two))

/-! ### Groups of operators -/

section Groups

variable {left middle right : List Token} {mark other : Token} {operator next : BinaryOperator}
  {first second third : Expr}

/-- Operations are expressions. -/
theorem derives_expression {precedence : Nat} {tokens : List Token} {tree : Expr}
    (derived : Derives (.operation (levelOf precedence)) tokens tree) :
    Derives .expression tokens tree :=
  .expression (.plain (loosen (Nat.zero_le precedence) derived))

/-- **Two operators group to the left** unless the second one binds tighter. -/
theorem derives_left (marked : mark.kind.binaryOperator? = some operator)
    (followed : other.kind.binaryOperator? = some next)
    (looser : next.precedence ≤ operator.precedence)
    (one : Derives (.operation (levelOf operator.precedence)) left first)
    (two : Derives (.operation (levelOf (operator.precedence + 1))) middle second)
    (three : Derives (.operation (levelOf (next.precedence + 1))) right third) :
    Derives .expression (left ++ mark :: middle ++ other :: right)
      (.binary other.line next (.binary mark.line operator first second) third) :=
  derives_expression (derives_binary followed (loosen looser (derives_binary marked one two)) three)

/-- **Two operators group to the right** if the second one binds tighter. -/
theorem derives_right (marked : mark.kind.binaryOperator? = some operator)
    (followed : other.kind.binaryOperator? = some next)
    (tighter : operator.precedence < next.precedence)
    (one : Derives (.operation (levelOf operator.precedence)) left first)
    (two : Derives (.operation (levelOf next.precedence)) middle second)
    (three : Derives (.operation (levelOf (next.precedence + 1))) right third) :
    Derives .expression (left ++ mark :: middle ++ other :: right)
      (.binary mark.line operator first (.binary other.line next second third)) := by
  rw [List.append_assoc, List.cons_append]
  exact derives_expression
    (derives_binary marked one (loosen tighter (derives_binary followed two three)))

/-- **An operator in front binds tighter** than every operator between operands. -/
theorem derives_front {sign : UnaryOperator} (signed : mark.kind.unaryOperator? = some sign)
    (followed : other.kind.binaryOperator? = some next)
    (one : Derives (.operation .unary) left first)
    (two : Derives (.operation (levelOf (next.precedence + 1))) right second) :
    Derives .expression (mark :: left ++ other :: right)
      (.binary other.line next (.unary mark.line sign first) second) := by
  have tightest : Derives (.operation (levelOf 6)) (mark :: left) (.unary mark.line sign first) :=
    derives_unary signed one
  have bound := precedence_le_five next
  exact derives_expression (derives_binary followed (loosen (by omega) tightest) two)

/-- **Two assignments group to the right.** -/
theorem derives_assign {line nextLine : Nat} {name nextName : String}
    (one : Derives (.operation .logicOr) left (.identifier line name))
    (assigned : mark.kind = .symbol .assign)
    (two : Derives (.operation .logicOr) middle (.identifier nextLine nextName))
    (again : other.kind = .symbol .assign) (three : Derives .expression right third) :
    Derives .expression (left ++ mark :: middle ++ other :: right)
      (.assign line name (.assign nextLine nextName third)) := by
  rw [List.append_assoc, List.cons_append]
  cases three with
  | expression three => exact .expression (.assign one assigned (.assign two again three))

end Groups

/-! ### Added parentheses -/

/-- **The same derivation with parentheses added**, around any of the expressions that it is made
of and any number of times. -/
inductive Parenthesized :
    (nonterminal : Nonterminal) → List Token → List Token → nonterminal.Tree → Prop
  | same {nonterminal : Nonterminal} {tokens : List Token} {tree : nonterminal.Tree}
      (derived : Derives nonterminal tokens tree) : Parenthesized nonterminal tokens tokens tree
  -- the added pairs
  | aroundAssignment {opening closing : Token} {tokens changed : List Token} {tree : Expr}
      (opened : opening.kind = .symbol .leftParen)
      (inside : Parenthesized .assignment tokens changed tree)
      (closed : closing.kind = .symbol .rightParen) :
      Parenthesized .assignment tokens (opening :: changed ++ [closing]) tree
  | aroundOperation {level : Level} {opening closing : Token} {tokens changed : List Token}
      {tree : Expr} (opened : opening.kind = .symbol .leftParen)
      (inside : Parenthesized (.operation level) tokens changed tree)
      (closed : closing.kind = .symbol .rightParen) :
      Parenthesized (.operation level) tokens (opening :: changed ++ [closing]) tree
  -- the parts of a derivation
  | expression {tokens changed : List Token} {tree : Expr}
      (inside : Parenthesized .assignment tokens changed tree) :
      Parenthesized .expression tokens changed tree
  | plain {tokens changed : List Token} {tree : Expr}
      (inside : Parenthesized (.operation .logicOr) tokens changed tree) :
      Parenthesized .assignment tokens changed tree
  | assign {target changedTarget source changedSource : List Token} {mark : Token} {line : Nat}
      {name : String} {value : Expr}
      (left : Parenthesized (.operation .logicOr) target changedTarget (.identifier line name))
      (assigned : mark.kind = .symbol .assign)
      (right : Parenthesized .assignment source changedSource value) :
      Parenthesized .assignment (target ++ mark :: source) (changedTarget ++ mark :: changedSource)
        (.assign line name value)
  | operand {level : Level} {tokens changed : List Token} {tree : Expr} (loose : level ≠ .unary)
      (inside : Parenthesized (.operation level.tighter) tokens changed tree) :
      Parenthesized (.operation level) tokens changed tree
  | binary {level : Level} {left changedLeft right changedRight : List Token} {mark : Token}
      {symbol : Symbol} {operator : BinaryOperator} {first second : Expr}
      (listed : (symbol, operator) ∈ level.operators)
      (before : Parenthesized (.operation level) left changedLeft first)
      (marked : mark.kind = .symbol symbol)
      (behind : Parenthesized (.operation level.tighter) right changedRight second) :
      Parenthesized (.operation level) (left ++ mark :: right) (changedLeft ++ mark :: changedRight)
        (.binary mark.line operator first second)
  | unary {mark : Token} {operator : UnaryOperator} {tokens changed : List Token} {value : Expr}
      (marked : mark.kind.unaryOperator? = some operator)
      (inside : Parenthesized (.operation .unary) tokens changed value) :
      Parenthesized (.operation .unary) (mark :: tokens) (mark :: changed)
        (.unary mark.line operator value)
  | single {tokens changed : List Token} {tree : Expr}
      (inside : Parenthesized .primary tokens changed tree) :
      Parenthesized (.operation .unary) tokens changed tree
  | call {name opening closing : Token} {list changed : List Token} {values : List Expr}
      (named : name.kind = .identifier) (opened : opening.kind = .symbol .leftParen)
      (inside : Parenthesized .arguments list changed values)
      (closed : closing.kind = .symbol .rightParen) :
      Parenthesized .primary (name :: opening :: list ++ [closing])
        (name :: opening :: changed ++ [closing]) (.call name.line name.lexeme values)
  | grouping {opening closing : Token} {tokens changed : List Token} {tree : Expr}
      (opened : opening.kind = .symbol .leftParen)
      (inside : Parenthesized .expression tokens changed tree)
      (closed : closing.kind = .symbol .rightParen) :
      Parenthesized .primary (opening :: tokens ++ [closing]) (opening :: changed ++ [closing]) tree
  | lastArgument {tokens changed : List Token} {value : Expr}
      (inside : Parenthesized .expression tokens changed value) :
      Parenthesized .arguments tokens changed [value]
  | moreArguments {tokens changed rest changedRest : List Token} {comma : Token} {value : Expr}
      {values : List Expr} (inside : Parenthesized .expression tokens changed value)
      (divided : comma.kind = .symbol .comma)
      (tail : Parenthesized .arguments rest changedRest values) :
      Parenthesized .arguments (tokens ++ comma :: rest) (changed ++ comma :: changedRest)
        (value :: values)

/-- A primary expression is an operation of every level. -/
theorem derives_primary {level : Level} {tokens : List Token} {tree : Expr}
    (derived : Derives .primary tokens tree) : Derives (.operation level) tokens tree := by
  have tightest : Derives (.operation (levelOf 6)) tokens tree := .single derived
  have loose := loosen level.precedence_le_six tightest
  rwa [Level.levelOf_precedence] at loose

/-- **Added parentheses leave the tree as it is.** -/
theorem Parenthesized.derives {nonterminal : Nonterminal} {tokens changed : List Token}
    {tree : nonterminal.Tree} (added : Parenthesized nonterminal tokens changed tree) :
    Derives nonterminal tokens tree ∧ Derives nonterminal changed tree := by
  induction added with
  | same derived => exact ⟨derived, derived⟩
  | aroundAssignment opened _ closed inside =>
    exact ⟨inside.1, .plain (derives_primary (.grouping opened (.expression inside.2) closed))⟩
  | @aroundOperation level _ _ _ changed tree opened _ closed inside =>
    have inner : Derives (.operation (levelOf level.precedence)) changed tree := by
      rw [Level.levelOf_precedence]
      exact inside.2
    exact ⟨inside.1, derives_primary (.grouping opened (derives_expression inner) closed)⟩
  | expression _ inside => exact ⟨.expression inside.1, .expression inside.2⟩
  | plain _ inside => exact ⟨.plain inside.1, .plain inside.2⟩
  | assign _ assigned _ left right =>
    exact ⟨.assign left.1 assigned right.1, .assign left.2 assigned right.2⟩
  | operand loose _ inside => exact ⟨.operand loose inside.1, .operand loose inside.2⟩
  | binary listed _ marked _ before behind =>
    exact ⟨.binary listed before.1 marked behind.1, .binary listed before.2 marked behind.2⟩
  | unary marked _ inside => exact ⟨derives_unary marked inside.1, derives_unary marked inside.2⟩
  | single _ inside => exact ⟨.single inside.1, .single inside.2⟩
  | call named opened _ closed inside =>
    exact ⟨.call named opened inside.1 closed, .call named opened inside.2 closed⟩
  | grouping opened _ closed inside =>
    exact ⟨.grouping opened inside.1 closed, .grouping opened inside.2 closed⟩
  | lastArgument _ inside => exact ⟨.lastArgument inside.1, .lastArgument inside.2⟩
  | moreArguments _ divided _ inside tail =>
    exact ⟨.moreArguments inside.1 divided tail.1, .moreArguments inside.2 divided tail.2⟩

/-! ### The whole -/

/-- **Every expression of the grammar is read with its tree**, up to the token that follows it.
So the tree is unique; operators group by their precedences and to the left, those in front bind
tightest, assignments group to the right, and added parentheses leave the tree as it is. -/
theorem expression_complete :
    (∀ tokens tree, Derives .expression tokens tree → ReadsAs tokens tree) ∧
    (∀ tokens tree other, Derives .expression tokens tree → Derives .expression tokens other →
      tree = other) ∧
    (∀ left middle right first second third mark other operator next,
      mark.kind.binaryOperator? = some operator → other.kind.binaryOperator? = some next →
      next.precedence ≤ operator.precedence →
      Derives (.operation (levelOf operator.precedence)) left first →
      Derives (.operation (levelOf (operator.precedence + 1))) middle second →
      Derives (.operation (levelOf (next.precedence + 1))) right third →
      ReadsAs (left ++ mark :: middle ++ other :: right)
        (.binary other.line next (.binary mark.line operator first second) third)) ∧
    (∀ left middle right first second third mark other operator next,
      mark.kind.binaryOperator? = some operator → other.kind.binaryOperator? = some next →
      operator.precedence < next.precedence →
      Derives (.operation (levelOf operator.precedence)) left first →
      Derives (.operation (levelOf next.precedence)) middle second →
      Derives (.operation (levelOf (next.precedence + 1))) right third →
      ReadsAs (left ++ mark :: middle ++ other :: right)
        (.binary mark.line operator first (.binary other.line next second third))) ∧
    (∀ left right first second mark other sign next,
      mark.kind.unaryOperator? = some sign → other.kind.binaryOperator? = some next →
      Derives (.operation .unary) left first →
      Derives (.operation (levelOf (next.precedence + 1))) right second →
      ReadsAs (mark :: left ++ other :: right)
        (.binary other.line next (.unary mark.line sign first) second)) ∧
    (∀ left middle right line name nextLine nextName value mark other,
      Derives (.operation .logicOr) left (.identifier line name) →
      mark.kind = .symbol .assign →
      Derives (.operation .logicOr) middle (.identifier nextLine nextName) →
      other.kind = .symbol .assign → Derives .expression right value →
      ReadsAs (left ++ mark :: middle ++ other :: right)
        (.assign line name (.assign nextLine nextName value))) ∧
    (∀ tokens changed tree, Parenthesized .expression tokens changed tree →
      ReadsAs tokens tree ∧ ReadsAs changed tree) := by
  refine ⟨fun _ _ => readsAs_of_derives, fun _ _ _ => tree_unique, ?_, ?_, ?_, ?_, ?_⟩
  · intro left middle right first second third mark other operator next marked followed looser one
      two three
    exact readsAs_of_derives (derives_left marked followed looser one two three)
  · intro left middle right first second third mark other operator next marked followed tighter one
      two three
    exact readsAs_of_derives (derives_right marked followed tighter one two three)
  · intro left right first second mark other sign next signed followed one two
    exact readsAs_of_derives (derives_front signed followed one two)
  · intro left middle right line name nextLine nextName value mark other one assigned two again
      three
    exact readsAs_of_derives (derives_assign one assigned two again three)
  · intro tokens changed tree added
    exact ⟨readsAs_of_derives added.derives.1, readsAs_of_derives added.derives.2⟩

/-- The value of an assignment is a difference whose first operand is negated, with parentheses
around that operand or without. -/
theorem expression_complete_difference :
    ReadsAs
      ([⟨.identifier, "a", 1⟩] ++ ⟨.symbol .assign, "=", 1⟩ ::
        ([⟨.symbol .minus, "-", 1⟩, ⟨.range .inclusive, "1..3", 2⟩] ++
          [⟨.symbol .minus, "-", 2⟩, ⟨.identifier, "b", 3⟩]))
      (.assign 1 "a" (.binary 2 .subtract (.unary 1 .negate (.range 2 ⟨.inclusive, 1, 3⟩))
        (.identifier 3 "b"))) ∧
    ReadsAs
      ([⟨.identifier, "a", 1⟩] ++ ⟨.symbol .assign, "=", 1⟩ ::
        (⟨.symbol .leftParen, "(", 1⟩ ::
            [⟨.symbol .minus, "-", 1⟩, ⟨.range .inclusive, "1..3", 2⟩] ++
            [⟨.symbol .rightParen, ")", 2⟩] ++
          [⟨.symbol .minus, "-", 2⟩, ⟨.identifier, "b", 3⟩]))
      (.assign 1 "a" (.binary 2 .subtract (.unary 1 .negate (.range 2 ⟨.inclusive, 1, 3⟩))
        (.identifier 3 "b"))) := by
  have spelled : RangeSpelling "1..3".toList ⟨.inclusive, 1, 3⟩ :=
    ⟨['1'], ['3'], ⟨by decide, by decide, rfl⟩, rfl, rfl⟩
  have negated : Derives (.operation .factor)
      [⟨.symbol .minus, "-", 1⟩, ⟨.range .inclusive, "1..3", 2⟩]
      (.unary 1 .negate (.range 2 ⟨.inclusive, 1, 3⟩)) :=
    .operand (by decide) (.negate rfl (.single (.range rfl spelled rfl)))
  refine expression_complete.2.2.2.2.2.2 _ _ _ (.expression
    (.assign (.same (derives_primary (.identifier rfl))) rfl (.plain ?_)))
  -- the difference is an operation of the loosest level
  refine .operand (by decide) (.operand (by decide) (.operand (by decide) (.operand (by decide) ?_)))
  exact .binary (by decide) (.operand (by decide) (.aroundOperation rfl (.same negated) rfl)) rfl
    (.same (derives_primary (.identifier rfl)))

end Parser

end Scriptlet
