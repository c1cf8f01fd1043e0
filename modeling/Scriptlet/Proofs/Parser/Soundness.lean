/-
**What the parser accepts is derivable from the grammar**, with the tree that it returns.

A reader takes a stream to the stream behind the tokens it has consumed. The statement carried
through every reader is that these tokens, all of them and in order, are derivable with its result
(`Reads`). It is proved for all readers at once, by induction on the bound of their recursion.

Operators are read by precedence climbing, and grammars have levels. What ties the two together is
said of `operations`: its left operand is derivable at some level, and the operator in front binds
no tighter than that level (`ExpressionsSound.operations`).

* `Parser.program_sound`: the statements of a stream, up to the end of the input.
* `Parser.parse_derives`: **a text that is parsed scans without faults, and all its tokens together
  are derivable from `program` with the returned trees.**
-/

import Scriptlet.Proofs.Grammar
import Scriptlet.Proofs.Token.Stream

namespace Scriptlet

namespace Parser

open Grammar

/-! ### Steps of a reader -/

section Steps

variable {α β : Type}

/-- A reader in two steps succeeds only through both of them. -/
theorem exists_of_bind_eq_ok {first : Except Stop α} {next : α → Except Stop β} {result : β}
    (run : (first >>= next) = .ok result) :
    ∃ value, first = .ok value ∧ next value = .ok result := by
  rcases first with stop | value
  · cases run
  · exact ⟨value, rfl, run⟩

theorem eq_ok_of_orStop {result : Except ParseError α} {value : α}
    (run : orStop result = .ok value) : result = .ok value := by
  rcases result with error | other
  · cases run
  · rw [Except.ok.inj run]

variable {stream : Stream} {kind : TokenKind} {result : β} (scanned : Scanned stream.results)
include scanned

/-- A reader that consumes the token in front goes on behind it. -/
theorem exists_of_advance {next : Token × Stream → Except Stop β}
    (inside : stream.current.kind ≠ .endOfInput)
    (run : (orStop stream.advance >>= next) = .ok result) :
    ∃ token behind, stream = behind.prepend [token] ∧ Scanned behind.results ∧
      next (token, behind) = .ok result := by
  obtain ⟨⟨token, behind⟩, step, later⟩ := exists_of_bind_eq_ok run
  obtain rfl := Stream.eq_prepend_of_advance scanned inside (eq_ok_of_orStop step)
  exact ⟨token, behind, rfl, Stream.scanned_of_prepend scanned, later⟩

/-- A reader that accepts a kind goes on behind a token of that kind, or where it is. -/
theorem exists_of_accept {next : Option Stream → Except Stop β} (inside : kind ≠ .endOfInput)
    (run : (orStop (stream.accept kind) >>= next) = .ok result) :
    next none = .ok result ∨
      ∃ token behind, token.kind = kind ∧ stream = behind.prepend [token] ∧
        Scanned behind.results ∧ next (some behind) = .ok result := by
  obtain ⟨accepted, step, later⟩ := exists_of_bind_eq_ok run
  cases accepted with
  | none => exact .inl later
  | some behind =>
    obtain ⟨token, same, rfl⟩ := Stream.eq_prepend_of_accept scanned inside (eq_ok_of_orStop step)
    exact .inr ⟨token, behind, same, rfl, Stream.scanned_of_prepend scanned, later⟩

/-- A reader that expects a kind goes on behind a token of that kind. -/
theorem exists_of_expect {next : Token × Stream → Except Stop β} (inside : kind ≠ .endOfInput)
    (run : (orStop (stream.expect kind) >>= next) = .ok result) :
    ∃ token behind, token.kind = kind ∧ stream = behind.prepend [token] ∧
      Scanned behind.results ∧ next (token, behind) = .ok result := by
  obtain ⟨⟨token, behind⟩, step, later⟩ := exists_of_bind_eq_ok run
  obtain ⟨same, rfl⟩ := Stream.eq_prepend_of_expect scanned inside (eq_ok_of_orStop step)
  exact ⟨token, behind, same, rfl, Stream.scanned_of_prepend scanned, later⟩

end Steps

/-- **The tokens between two streams are derivable with a tree.** -/
def Reads (nonterminal : Nonterminal) (stream : Stream) (tree : nonterminal.Tree) (after : Stream) :
    Prop :=
  ∃ tokens, stream = after.prepend tokens ∧ Derives nonterminal tokens tree

/-- The same with one more token, which closes them. -/
def ReadsUntil (closer : TokenKind) (nonterminal : Nonterminal) (stream : Stream)
    (tree : nonterminal.Tree) (after : Stream) : Prop :=
  ∃ tokens closing, closing.kind = closer ∧ stream = after.prepend (tokens ++ [closing]) ∧
    Derives nonterminal tokens tree

/-! ### Precedences and levels -/

/-- The level of a precedence. -/
def levelOf : Nat → Level
  | 0 => .logicOr
  | 1 => .logicAnd
  | 2 => .equality
  | 3 => .comparison
  | 4 => .term
  | 5 => .factor
  | _ => .unary

theorem tighter_levelOf : ∀ precedence, (levelOf precedence).tighter = levelOf (precedence + 1)
  | 0 | 1 | 2 | 3 | 4 | 5 => rfl
  | _ + 6 => rfl

/-- What a tight level derives, a looser level derives. -/
theorem loosen {loose tight : Nat} {tokens : List Token} {tree : Expr} (looser : loose ≤ tight)
    (derived : Derives (.operation (levelOf tight)) tokens tree) :
    Derives (.operation (levelOf loose)) tokens tree := by
  induction looser with
  | refl => exact derived
  | @step tight _ hypothesis =>
    refine hypothesis ?_
    rw [← tighter_levelOf] at derived
    by_cases tightest : levelOf tight = .unary
    · rw [tightest] at derived ⊢
      exact derived
    · exact .operand tightest derived

/-- An operator that is read belongs to the level of its precedence. -/
theorem mem_operators {kind : TokenKind} {operator : BinaryOperator}
    (read : kind.binaryOperator? = some operator) :
    ∃ symbol, kind = .symbol symbol ∧
      (symbol, operator) ∈ (levelOf operator.precedence).operators := by
  cases kind with
  | symbol symbol =>
    refine ⟨symbol, rfl, ?_⟩
    cases symbol <;> cases read <;> decide
  | _ => cases read

/-- An operator that is read joins operands of its level. -/
theorem derives_binary {left right : List Token} {mark : Token} {operator : BinaryOperator}
    {first second : Expr} (marked : mark.kind.binaryOperator? = some operator)
    (before : Derives (.operation (levelOf operator.precedence)) left first)
    (behind : Derives (.operation (levelOf (operator.precedence + 1))) right second) :
    Derives (.operation (levelOf operator.precedence)) (left ++ mark :: right)
      (.binary mark.line operator first second) := by
  obtain ⟨symbol, written, listed⟩ := mem_operators marked
  refine .binary listed before written ?_
  rw [tighter_levelOf]
  exact behind

/-- An operator that is read in front of an operand belongs to the tightest level. -/
theorem derives_unary {mark : Token} {operator : UnaryOperator} {inner : List Token} {value : Expr}
    (marked : mark.kind.unaryOperator? = some operator)
    (derived : Derives (.operation .unary) inner value) :
    Derives (.operation .unary) (mark :: inner) (.unary mark.line operator value) := by
  obtain ⟨kind, lexeme, line⟩ := mark
  cases kind with
  | symbol symbol =>
    cases symbol <;> cases marked
    · exact .negate rfl derived
    · exact .not rfl derived
  | _ => cases marked

theorem precedence_le_five (operator : BinaryOperator) : operator.precedence ≤ 5 := by
  cases operator <;> decide

/-- Behind the operators of a level the next one binds looser. -/
theorem precedence_lt_of_operatorFrom? {level : Nat} {stream : Stream} {operator : BinaryOperator}
    (none_left : operatorFrom? level stream = none)
    (read : stream.current.kind.binaryOperator? = some operator) :
    operator.precedence < level := by
  rw [operatorFrom?, read, Option.filter_eq_none_iff] at none_left
  simpa using none_left operator rfl

/-! ### Expressions -/

/-- A range literal stands for the range of its digits. -/
theorem spelling_of_rangeLiteral {kind : RangeKind} {token : Token} {range : Range}
    (literal : token.kind = .range kind) (spelled : token.Spelled)
    (run : rangeLiteral kind token = .ok range) :
    RangeSpelling token.lexeme.toList range ∧ range.kind = kind := by
  rw [Token.Spelled, literal] at spelled
  obtain ⟨first, last, dotted⟩ := spelled
  rw [rangeLiteral_of_dotted dotted] at run
  cases found : decodeRange? kind first last with
  | none =>
    rw [found] at run
    cases run
  | some decoded =>
    rw [found] at run
    cases run
    obtain ⟨same, low, high⟩ := (decodeRange?_eq_some_iff dotted.1 dotted.2.1).mp found
    exact ⟨⟨first, last, same ▸ dotted, low, high⟩, same⟩

/-- **Every reader of expressions returns what it has read**, up to a bound of the recursion. -/
structure ExpressionsSound (fuel : Nat) : Prop where
  expression : ∀ {stream after tree}, Scanned stream.results →
    expression fuel stream = .ok (tree, after) → Reads .expression stream tree after
  operation : ∀ {level stream after tree}, Scanned stream.results →
    operation fuel level stream = .ok (tree, after) →
    Reads (.operation (levelOf level)) stream tree after ∧ operatorFrom? level after = none
  operations : ∀ {level bound left front stream after tree}, Scanned stream.results →
    level ≤ bound → Derives (.operation (levelOf bound)) front left →
    (∀ operator, stream.current.kind.binaryOperator? = some operator →
      operator.precedence ≤ bound) →
    operations fuel level left stream = .ok (tree, after) →
    (∃ tokens, stream = after.prepend tokens ∧
      Derives (.operation (levelOf level)) (front ++ tokens) tree) ∧
    operatorFrom? level after = none
  operand : ∀ {stream after tree}, Scanned stream.results →
    operand fuel stream = .ok (tree, after) → Reads (.operation .unary) stream tree after
  primary : ∀ {stream after tree}, Scanned stream.results →
    primary fuel stream = .ok (tree, after) → Reads .primary stream tree after
  arguments : ∀ {stream after values}, Scanned stream.results →
    arguments fuel stream = .ok (values, after) →
    (∃ closing, closing.kind = .symbol .rightParen ∧ stream = after.prepend [closing] ∧
      values = []) ∨ ReadsUntil (.symbol .rightParen) .arguments stream values after
  argumentsUntilClosed : ∀ {stream after values}, Scanned stream.results →
    argumentsUntilClosed fuel stream = .ok (values, after) →
    ReadsUntil (.symbol .rightParen) .arguments stream values after

section ExpressionSteps

variable {fuel level bound : Nat} {stream after : Stream} {tree left : Expr} {values : List Expr}
  {front : List Token} (sound : ExpressionsSound fuel) (scanned : Scanned stream.results)
include sound scanned

theorem expression_sound_step (run : expression (fuel + 1) stream = .ok (tree, after)) :
    Reads .expression stream tree after := by
  rw [expression] at run
  obtain ⟨⟨target, middle⟩, first, later⟩ := exists_of_bind_eq_ok run
  obtain ⟨⟨front, rfl, derived⟩, -⟩ := sound.operation scanned first
  replace scanned := Stream.scanned_of_prepend scanned
  rcases exists_of_accept scanned (by decide) later with
    plain | ⟨mark, behind, assigned, rfl, scanned, choice⟩
  · cases plain
    exact ⟨front, rfl, .expression (.plain derived)⟩
  · obtain ⟨⟨value, rest⟩, second, judgement⟩ := exists_of_bind_eq_ok choice
    obtain ⟨source, rfl, valued⟩ := sound.expression scanned second
    obtain ⟨assignment, judged, returned⟩ := exists_of_bind_eq_ok judgement
    cases returned
    -- only a bare name is judged a target
    cases target <;> cases judged
    cases valued with
    | expression valued =>
      exact ⟨front ++ mark :: source, by simp, .expression (.assign derived assigned valued)⟩

theorem operation_sound_step (run : operation (fuel + 1) level stream = .ok (tree, after)) :
    Reads (.operation (levelOf level)) stream tree after ∧ operatorFrom? level after = none := by
  rw [operation] at run
  obtain ⟨⟨left, middle⟩, first, later⟩ := exists_of_bind_eq_ok run
  obtain ⟨front, rfl, derived⟩ := sound.operand scanned first
  replace scanned := Stream.scanned_of_prepend scanned
  -- whatever the level, no operator binds tighter than the operators in front of an operand
  have tightest : Derives (.operation (levelOf (level + 6))) front left := derived
  have bounded : ∀ operator, middle.current.kind.binaryOperator? = some operator →
      operator.precedence ≤ level + 6 := by
    intro operator _
    have bound := precedence_le_five operator
    omega
  obtain ⟨⟨tokens, rfl, result⟩, stopped⟩ :=
    sound.operations scanned (Nat.le_add_right level 6) tightest bounded later
  exact ⟨⟨front ++ tokens, by simp, result⟩, stopped⟩

theorem operations_sound_step (tighter : level ≤ bound)
    (derived : Derives (.operation (levelOf bound)) front left)
    (bounded : ∀ operator, stream.current.kind.binaryOperator? = some operator →
      operator.precedence ≤ bound)
    (run : operations (fuel + 1) level left stream = .ok (tree, after)) :
    (∃ tokens, stream = after.prepend tokens ∧
      Derives (.operation (levelOf level)) (front ++ tokens) tree) ∧
    operatorFrom? level after = none := by
  rw [operations] at run
  cases next : operatorFrom? level stream with
  | none =>
    rw [next] at run
    cases run
    exact ⟨⟨[], rfl, by simpa using loosen tighter derived⟩, next⟩
  | some operator =>
    rw [next] at run
    obtain ⟨read, passed⟩ := Option.filter_eq_some_iff.mp next
    have included : level ≤ operator.precedence := by simpa using passed
    obtain ⟨symbol, marked, -⟩ := mem_operators read
    obtain ⟨mark, middle, rfl, scanned, later⟩ :=
      exists_of_advance scanned (by rw [marked]; simp) run
    obtain ⟨⟨right, rest⟩, second, last⟩ := exists_of_bind_eq_ok later
    obtain ⟨⟨behind, rfl, operand⟩, stopped⟩ := sound.operation scanned second
    -- the new left operand has the level of the operator, and nothing tighter follows it
    have whole : Derives (.operation (levelOf operator.precedence)) (front ++ mark :: behind)
        (.binary mark.line operator left right) :=
      derives_binary read (loosen (bounded operator read) derived) operand
    have nothing : ∀ other, rest.current.kind.binaryOperator? = some other →
        other.precedence ≤ operator.precedence := fun other found =>
      Nat.lt_succ_iff.mp (precedence_lt_of_operatorFrom? stopped found)
    replace scanned := Stream.scanned_of_prepend scanned
    obtain ⟨⟨tokens, rfl, result⟩, ended⟩ := sound.operations scanned included whole nothing last
    exact ⟨⟨mark :: behind ++ tokens, by simp, by simpa using result⟩, ended⟩

theorem operand_sound_step (run : operand (fuel + 1) stream = .ok (tree, after)) :
    Reads (.operation .unary) stream tree after := by
  rw [operand] at run
  cases mark : stream.current.kind.unaryOperator? with
  | none =>
    rw [mark] at run
    obtain ⟨tokens, rfl, derived⟩ := sound.primary scanned run
    exact ⟨tokens, rfl, .single derived⟩
  | some operator =>
    rw [mark] at run
    have inside : stream.current.kind ≠ .endOfInput := by
      intro ended
      rw [ended] at mark
      cases mark
    obtain ⟨token, middle, rfl, scanned, later⟩ := exists_of_advance scanned inside run
    obtain ⟨⟨value, rest⟩, second, returned⟩ := exists_of_bind_eq_ok later
    obtain ⟨tokens, rfl, derived⟩ := sound.operand scanned second
    cases returned
    exact ⟨token :: tokens, by simp, derives_unary mark derived⟩

theorem primary_sound_step (run : primary (fuel + 1) stream = .ok (tree, after)) :
    Reads .primary stream tree after := by
  rw [primary] at run
  have spelled := Stream.spelled_current scanned
  by_cases inside : stream.current.kind = .endOfInput
  · obtain ⟨⟨token, behind⟩, step, later⟩ := exists_of_bind_eq_ok run
    obtain rfl := Stream.current_of_advance (eq_ok_of_orStop step)
    dsimp only at later
    rw [inside] at later
    cases later
  obtain ⟨token, middle, rfl, scanned, later⟩ := exists_of_advance scanned inside run
  replace spelled : token.Spelled := spelled
  dsimp only at later
  split at later
  · next literal =>
    rw [Token.Spelled, literal] at spelled
    obtain ⟨value, numeral⟩ := spelled
    rw [numberLiteral_of_numeral numeral] at later
    cases later
    exact ⟨[token], rfl, .number literal numeral⟩
  · next literal =>
    rw [Token.Spelled, literal] at spelled
    obtain ⟨contents, quoted⟩ := spelled
    rw [textLiteral_of_quoted quoted] at later
    cases later
    exact ⟨[token], rfl, .text literal quoted⟩
  · next kind literal =>
    obtain ⟨range, decoded, returned⟩ := exists_of_bind_eq_ok later
    cases returned
    obtain ⟨spelling, same⟩ := spelling_of_rangeLiteral literal spelled decoded
    exact ⟨[token], rfl, .range literal spelling same⟩
  · next literal =>
    cases later
    exact ⟨[token], rfl, .yes literal⟩
  · next literal =>
    cases later
    exact ⟨[token], rfl, .no literal⟩
  · next named =>
    rcases exists_of_accept scanned (by decide) later with
      plain | ⟨opening, behind, opens, rfl, scanned, choice⟩
    · cases plain
      exact ⟨[token], rfl, .identifier named⟩
    · obtain ⟨⟨values, rest⟩, read, returned⟩ := exists_of_bind_eq_ok choice
      cases returned
      rcases sound.arguments scanned read with
        ⟨closing, closes, rfl, rfl⟩ | ⟨list, closing, closes, rfl, derived⟩
      · exact ⟨[token, opening, closing], by simp, .emptyCall named opens closes⟩
      · exact ⟨token :: opening :: list ++ [closing], by simp, .call named opens derived closes⟩
  · next opened =>
    obtain ⟨⟨value, rest⟩, read, closed⟩ := exists_of_bind_eq_ok later
    obtain ⟨inner, rfl, derived⟩ := sound.expression scanned read
    obtain ⟨closing, last, closes, rfl, -, returned⟩ :=
      exists_of_expect (Stream.scanned_of_prepend scanned) (by decide) closed
    cases returned
    exact ⟨token :: inner ++ [closing], by simp, .grouping opened derived closes⟩
  · cases later
  · cases later

theorem arguments_sound_step (run : arguments (fuel + 1) stream = .ok (values, after)) :
    (∃ closing, closing.kind = .symbol .rightParen ∧ stream = after.prepend [closing] ∧
      values = []) ∨ ReadsUntil (.symbol .rightParen) .arguments stream values after := by
  rw [arguments] at run
  rcases exists_of_accept scanned (by decide) run with
    more | ⟨closing, behind, closes, rfl, -, closed⟩
  · exact .inr (sound.argumentsUntilClosed scanned more)
  · cases closed
    exact .inl ⟨closing, closes, rfl, rfl⟩

theorem argumentsUntilClosed_sound_step
    (run : argumentsUntilClosed (fuel + 1) stream = .ok (values, after)) :
    ReadsUntil (.symbol .rightParen) .arguments stream values after := by
  rw [argumentsUntilClosed] at run
  obtain ⟨⟨value, middle⟩, first, later⟩ := exists_of_bind_eq_ok run
  obtain ⟨tokens, rfl, derived⟩ := sound.expression scanned first
  replace scanned := Stream.scanned_of_prepend scanned
  rcases exists_of_accept scanned (by decide) later with
    closed | ⟨comma, behind, divides, rfl, scanned, choice⟩
  · obtain ⟨closing, last, closes, rfl, -, returned⟩ := exists_of_expect scanned (by decide) closed
    cases returned
    exact ⟨tokens, closing, closes, by simp, .lastArgument derived⟩
  · obtain ⟨⟨others, rest⟩, second, returned⟩ := exists_of_bind_eq_ok choice
    obtain ⟨list, closing, closes, rfl, tail⟩ := sound.argumentsUntilClosed scanned second
    cases returned
    exact ⟨tokens ++ comma :: list, closing, closes, by simp, .moreArguments derived divides tail⟩

end ExpressionSteps

/-- **Every reader of expressions returns what it has read.** -/
theorem expressionsSound : ∀ fuel, ExpressionsSound fuel
  | 0 =>
    { expression := fun _ run => by cases run
      operation := fun _ run => by cases run
      operations := fun _ _ _ _ run => by cases run
      operand := fun _ run => by cases run
      primary := fun _ run => by cases run
      arguments := fun _ run => by cases run
      argumentsUntilClosed := fun _ run => by cases run }
  | fuel + 1 =>
    have sound := expressionsSound fuel
    { expression := expression_sound_step sound
      operation := operation_sound_step sound
      operations := operations_sound_step sound
      operand := operand_sound_step sound
      primary := primary_sound_step sound
      arguments := arguments_sound_step sound
      argumentsUntilClosed := argumentsUntilClosed_sound_step sound }

/-! ### Names, parameters and the ranges of loops -/

section Lists

variable {fuel : Nat} {stream after : Stream}

theorem identifier_sound {name : String} (scanned : Scanned stream.results)
    (run : identifier stream = .ok (name, after)) :
    ∃ token, token.kind = .identifier ∧ name = token.lexeme ∧ stream = after.prepend [token] := by
  obtain ⟨token, rest, named, rfl, -, returned⟩ := exists_of_expect scanned (by decide) run
  cases returned
  exact ⟨token, named, rfl, rfl⟩

theorem rangeToken_sound {tree : Expr} (scanned : Scanned stream.results)
    (run : rangeToken stream = .ok (tree, after)) :
    ∃ token kind range, token.kind = .range kind ∧ RangeSpelling token.lexeme.toList range ∧
      range.kind = kind ∧ tree = .range token.line range ∧ stream = after.prepend [token] := by
  rw [rangeToken] at run
  split at run
  · next kind literal =>
    have spelled := Stream.spelled_current scanned
    obtain ⟨token, rest, rfl, -, later⟩ := exists_of_advance scanned (by rw [literal]; simp) run
    obtain ⟨range, decoded, returned⟩ := exists_of_bind_eq_ok later
    cases returned
    obtain ⟨spelling, same⟩ := spelling_of_rangeLiteral literal spelled decoded
    exact ⟨token, kind, range, literal, spelling, same, rfl, rfl⟩
  · cases run

theorem namesUntilClosed_sound : ∀ {fuel : Nat} {stream : Stream} {names : List String},
    Scanned stream.results → namesUntilClosed fuel stream = .ok (names, after) →
    ReadsUntil (.symbol .rightParen) .names stream names after
  | 0, _, _, _, run => by cases run
  | fuel + 1, stream, names, scanned, run => by
    rw [namesUntilClosed] at run
    obtain ⟨⟨name, middle⟩, first, later⟩ := exists_of_bind_eq_ok run
    obtain ⟨token, named, rfl, rfl⟩ := identifier_sound scanned first
    replace scanned := Stream.scanned_of_prepend scanned
    rcases exists_of_accept scanned (by decide) later with
      closed | ⟨comma, behind, divides, rfl, scanned, choice⟩
    · obtain ⟨closing, last, closes, rfl, -, returned⟩ :=
        exists_of_expect scanned (by decide) closed
      cases returned
      exact ⟨[token], closing, closes, by simp, .lastName named⟩
    · obtain ⟨⟨others, rest⟩, second, returned⟩ := exists_of_bind_eq_ok choice
      cases returned
      obtain ⟨list, closing, closes, rfl, tail⟩ := namesUntilClosed_sound scanned second
      exact ⟨token :: comma :: list, closing, closes, by simp, .moreNames named divides tail⟩

theorem parameters_sound {names : List String} (scanned : Scanned stream.results)
    (run : parameters fuel stream = .ok (names, after)) :
    Reads .parameters stream names after := by
  rcases exists_of_accept scanned (by decide) run with
    bare | ⟨opening, behind, opens, rfl, scanned, choice⟩
  · cases bare
    exact ⟨[], rfl, .noParameters⟩
  · rcases exists_of_accept scanned (by decide) choice with
      more | ⟨closing, rest, closes, rfl, -, closed⟩
    · obtain ⟨tokens, closing, closes, rfl, derived⟩ := namesUntilClosed_sound scanned more
      exact ⟨opening :: tokens ++ [closing], by simp, .parameters opens derived closes⟩
    · cases closed
      exact ⟨[opening, closing], by simp, .emptyParameters opens closes⟩

end Lists

/-! ### Statements -/

/-- The branches behind the first one, and the word that closes the conditional. -/
def ReadsOthers (stream : Stream) (branches : List Branch) (after : Stream) : Prop :=
  ∃ elsifs otherwise last middle final, stream = after.prepend (elsifs ++ otherwise ++ [last]) ∧
    Derives .elsifs elsifs middle ∧ Derives .otherwise otherwise final ∧
    last.kind = .keyword .endWord ∧ branches = middle ++ final

/-- A condition, the statements that it guards, and the branches behind them. -/
def ReadsBranches (stream : Stream) (branches : List Branch) (after : Stream) : Prop :=
  ∃ condition body between test trees others,
    stream = (between.prepend body).prepend condition ∧ Derives .expression condition test ∧
    Derives .statements body trees ∧ ReadsOthers between others after ∧
    branches = .guarded test trees :: others

/-- **Every reader of statements returns what it has read**, up to a bound of the recursion. -/
structure StatementsSound (fuel : Nat) : Prop where
  statement : ∀ {stream after tree}, Scanned stream.results →
    statement fuel stream = .ok (tree, after) → Reads .statement stream tree after
  block : ∀ {ends stream after trees}, Scanned stream.results →
    block fuel ends stream = .ok (trees, after) → Reads .statements stream trees after
  closedBlock : ∀ {stream after trees}, Scanned stream.results →
    closedBlock fuel stream = .ok (trees, after) →
    ReadsUntil (.keyword .endWord) .statements stream trees after
  branches : ∀ {stream after trees}, Scanned stream.results →
    branches fuel stream = .ok (trees, after) → ReadsBranches stream trees after
  otherBranches : ∀ {stream after trees}, Scanned stream.results →
    otherBranches fuel stream = .ok (trees, after) → ReadsOthers stream trees after

section StatementSteps

variable {fuel : Nat} {stream after : Stream} {tree : Stmt} {trees : List Stmt}
  {others : List Branch} {ends : List Keyword} (sound : StatementsSound fuel)
  (scanned : Scanned stream.results)
include sound scanned

theorem statement_sound_step (run : statement (fuel + 1) stream = .ok (tree, after)) :
    Reads .statement stream tree after := by
  -- each statement but the last is told by its first word, which is consumed
  rw [statement] at run
  split at run
  · next puts =>
    obtain ⟨word, middle, rfl, scanned, later⟩ := exists_of_advance scanned (by rw [puts]; simp) run
    obtain ⟨⟨value, rest⟩, read, returned⟩ := exists_of_bind_eq_ok later
    obtain ⟨operand, rfl, derived⟩ := (expressionsSound fuel).expression scanned read
    cases returned
    exact ⟨word :: operand, by simp, .print puts derived⟩
  · next opened =>
    obtain ⟨word, middle, rfl, scanned, later⟩ :=
      exists_of_advance scanned (by rw [opened]; simp) run
    obtain ⟨⟨branches, rest⟩, read, returned⟩ := exists_of_bind_eq_ok later
    obtain ⟨condition, body, between, test, trees, others, rfl, tested, guarded,
      ⟨elsifs, otherwise, last, middle, final, rfl, listed, fallback, closed, rfl⟩, rfl⟩ :=
      sound.branches scanned read
    cases returned
    exact ⟨word :: condition ++ body ++ elsifs ++ otherwise ++ [last], by simp,
      .conditional opened tested guarded listed fallback closed⟩
  · next opened =>
    obtain ⟨word, middle, rfl, scanned, later⟩ :=
      exists_of_advance scanned (by rw [opened]; simp) run
    obtain ⟨⟨test, rest⟩, read, block⟩ := exists_of_bind_eq_ok later
    obtain ⟨condition, rfl, tested⟩ := (expressionsSound fuel).expression scanned read
    obtain ⟨⟨trees, last⟩, body, returned⟩ := exists_of_bind_eq_ok block
    obtain ⟨tokens, closing, closed, rfl, repeated⟩ :=
      sound.closedBlock (Stream.scanned_of_prepend scanned) body
    cases returned
    exact ⟨word :: condition ++ tokens ++ [closing], by simp,
      .whileLoop opened tested repeated closed⟩
  · next opened =>
    obtain ⟨word, middle, rfl, scanned, later⟩ :=
      exists_of_advance scanned (by rw [opened]; simp) run
    obtain ⟨⟨name, behind⟩, first, second⟩ := exists_of_bind_eq_ok later
    obtain ⟨counter, named, rfl, rfl⟩ := identifier_sound scanned first
    obtain ⟨inWord, rest, within, rfl, scanned, third⟩ :=
      exists_of_expect (Stream.scanned_of_prepend scanned) (by decide) second
    obtain ⟨⟨iterand, bodyStream⟩, ranged, fourth⟩ := exists_of_bind_eq_ok third
    obtain ⟨bounds, kind, range, literal, spelling, same, rfl, rfl⟩ :=
      rangeToken_sound scanned ranged
    obtain ⟨⟨trees, last⟩, body, returned⟩ := exists_of_bind_eq_ok fourth
    obtain ⟨tokens, closing, closed, rfl, repeated⟩ :=
      sound.closedBlock (Stream.scanned_of_prepend scanned) body
    cases returned
    exact ⟨word :: counter :: inWord :: bounds :: tokens ++ [closing], by simp,
      .forLoop opened named within literal spelling same repeated closed⟩
  · next opened =>
    obtain ⟨word, middle, rfl, scanned, later⟩ :=
      exists_of_advance scanned (by rw [opened]; simp) run
    obtain ⟨⟨name, behind⟩, first, second⟩ := exists_of_bind_eq_ok later
    obtain ⟨title, named, rfl, rfl⟩ := identifier_sound scanned first
    replace scanned := Stream.scanned_of_prepend scanned
    obtain ⟨⟨names, rest⟩, listed, third⟩ := exists_of_bind_eq_ok second
    obtain ⟨list, rfl, derived⟩ := parameters_sound scanned listed
    obtain ⟨⟨trees, last⟩, body, returned⟩ := exists_of_bind_eq_ok third
    obtain ⟨tokens, closing, closed, rfl, bodied⟩ :=
      sound.closedBlock (Stream.scanned_of_prepend scanned) body
    cases returned
    exact ⟨word :: title :: list ++ tokens ++ [closing], by simp,
      .define opened named derived bodied closed⟩
  · obtain ⟨⟨value, rest⟩, read, returned⟩ := exists_of_bind_eq_ok run
    obtain ⟨tokens, rfl, derived⟩ := (expressionsSound fuel).expression scanned read
    cases returned
    obtain ⟨first, others, rfl⟩ := List.exists_cons_of_ne_nil (derived.tokens_ne_nil rfl)
    exact ⟨first :: others, rfl, .evaluated derived⟩

theorem block_sound_step (run : block (fuel + 1) ends stream = .ok (trees, after)) :
    Reads .statements stream trees after := by
  rw [block] at run
  split at run
  · cases run
    exact ⟨[], rfl, .noStatements⟩
  · split at run
    · cases run
    · obtain ⟨⟨tree, middle⟩, first, later⟩ := exists_of_bind_eq_ok run
      obtain ⟨front, rfl, head⟩ := sound.statement scanned first
      obtain ⟨⟨trees, rest⟩, second, returned⟩ := exists_of_bind_eq_ok later
      obtain ⟨back, rfl, tail⟩ := sound.block (Stream.scanned_of_prepend scanned) second
      cases returned
      exact ⟨front ++ back, by simp, .moreStatements head tail⟩

theorem closedBlock_sound_step (run : closedBlock (fuel + 1) stream = .ok (trees, after)) :
    ReadsUntil (.keyword .endWord) .statements stream trees after := by
  rw [closedBlock] at run
  obtain ⟨⟨body, middle⟩, first, later⟩ := exists_of_bind_eq_ok run
  obtain ⟨tokens, rfl, derived⟩ := sound.block scanned first
  obtain ⟨closing, rest, closed, rfl, -, returned⟩ :=
    exists_of_expect (Stream.scanned_of_prepend scanned) (by decide) later
  cases returned
  exact ⟨tokens, closing, closed, by simp, derived⟩

theorem branches_sound_step (run : branches (fuel + 1) stream = .ok (others, after)) :
    ReadsBranches stream others after := by
  rw [branches] at run
  obtain ⟨⟨test, middle⟩, first, later⟩ := exists_of_bind_eq_ok run
  obtain ⟨condition, rfl, tested⟩ := (expressionsSound fuel).expression scanned first
  replace scanned := Stream.scanned_of_prepend scanned
  obtain ⟨⟨trees, between⟩, second, last⟩ := exists_of_bind_eq_ok later
  obtain ⟨body, rfl, guarded⟩ := sound.block scanned second
  obtain ⟨⟨others, rest⟩, third, returned⟩ := exists_of_bind_eq_ok last
  have behind := sound.otherBranches (Stream.scanned_of_prepend scanned) third
  cases returned
  exact ⟨condition, body, between, test, trees, others, rfl, tested, guarded, behind, rfl⟩

theorem otherBranches_sound_step (run : otherBranches (fuel + 1) stream = .ok (others, after)) :
    ReadsOthers stream others after := by
  rw [otherBranches] at run
  rcases exists_of_accept scanned (by decide) run with
    noElsif | ⟨word, behind, opened, rfl, scanned, choice⟩
  · rcases exists_of_accept scanned (by decide) noElsif with
      noElse | ⟨word, behind, opened, rfl, scanned, choice⟩
    · obtain ⟨last, rest, closed, rfl, -, returned⟩ := exists_of_expect scanned (by decide) noElse
      cases returned
      exact ⟨[], [], last, [], [], rfl, .noElsifs, .noOtherwise, closed, rfl⟩
    · obtain ⟨⟨trees, rest⟩, body, returned⟩ := exists_of_bind_eq_ok choice
      obtain ⟨tokens, last, closed, rfl, guarded⟩ := sound.closedBlock scanned body
      cases returned
      exact ⟨[], word :: tokens, last, [], _, by simp, .noElsifs, .otherwise opened guarded,
        closed, rfl⟩
  · obtain ⟨condition, body, between, test, trees, others, rfl, tested, guarded,
      ⟨elsifs, otherwise, last, middle, final, rfl, listed, fallback, closed, rfl⟩, rfl⟩ :=
      sound.branches scanned choice
    exact ⟨word :: condition ++ body ++ elsifs, otherwise, last, _, final, by simp,
      .moreElsifs opened tested guarded listed, fallback, closed, rfl⟩

end StatementSteps

/-- **Every reader of statements returns what it has read.** -/
theorem statementsSound : ∀ fuel, StatementsSound fuel
  | 0 =>
    { statement := fun _ run => by cases run
      block := fun _ run => by cases run
      closedBlock := fun _ run => by cases run
      branches := fun _ run => by cases run
      otherBranches := fun _ run => by cases run }
  | fuel + 1 =>
    have sound := statementsSound fuel
    { statement := statement_sound_step sound
      block := block_sound_step sound
      closedBlock := closedBlock_sound_step sound
      branches := branches_sound_step sound
      otherBranches := otherBranches_sound_step sound }

/-! ### Programs -/

/-- **The statements of a stream, up to the end of the input**, which nothing follows. -/
theorem program_sound : ∀ {fuel : Nat} {stream : Stream} {trees : Program},
    Scanned stream.results → program fuel stream = .ok trees →
    ∃ body last, stream.results = (body ++ [last]).map .ok ∧ last.kind = .endOfInput ∧
      Derives .statements body trees
  | 0, _, _, _, run => by cases run
  | fuel + 1, stream, trees, scanned, run => by
    rw [program] at run
    split at run
    · next ended =>
      cases run
      exact ⟨[], stream.current, Stream.results_of_atEnd scanned ended,
        by simpa [Stream.atEnd, Stream.check] using ended, .noStatements⟩
    · obtain ⟨⟨tree, middle⟩, first, later⟩ := exists_of_bind_eq_ok run
      obtain ⟨front, rfl, head⟩ := (statementsSound fuel).statement scanned first
      obtain ⟨others, second, returned⟩ := exists_of_bind_eq_ok later
      obtain ⟨body, last, rest, ended, tail⟩ :=
        program_sound (Stream.scanned_of_prepend scanned) second
      cases returned
      refine ⟨front ++ body, last, ?_, ended, .moreStatements head tail⟩
      rw [Stream.results_prepend, rest]
      simp

/-- **Parsing is sound.** A text that is parsed scans to its end without a fault, and all its
tokens together are derivable from `program` with the returned trees. -/
theorem parse_derives (source : String) (trees : Program) (accepted : parse source = .ok trees) :
    ∃ tokens, scan source = tokens.map .ok ∧ Derives .program tokens trees := by
  obtain ⟨stream, begun, read⟩ := parse_eq_ok_iff.mp accepted
  have same := results_of_ofSource begun
  have scanned : Scanned stream.results := same ▸ scan_scanned source
  obtain ⟨body, last, results, ended, derived⟩ := program_sound scanned read
  exact ⟨body ++ [last], same.trans results, .program derived ended⟩

/-- An assignment, and a conditional with a call, a comment and an `else`. -/
theorem parse_derives_conditional :
    ∃ trees, parse "t = 1..3\nif f(t) == (t)\nputs \"#\" # note\nelse\n!t\nend" = .ok trees ∧
      ∃ tokens, scan "t = 1..3\nif f(t) == (t)\nputs \"#\" # note\nelse\n!t\nend" =
        tokens.map .ok ∧ Derives .program tokens trees := by
  have scanned : scan "t = 1..3\nif f(t) == (t)\nputs \"#\" # note\nelse\n!t\nend" =
      [.ok ⟨.identifier, "t", 1⟩, .ok ⟨.symbol .assign, "=", 1⟩,
        .ok ⟨.range .inclusive, "1..3", 1⟩, .ok ⟨.keyword .ifWord, "if", 2⟩,
        .ok ⟨.identifier, "f", 2⟩, .ok ⟨.symbol .leftParen, "(", 2⟩, .ok ⟨.identifier, "t", 2⟩,
        .ok ⟨.symbol .rightParen, ")", 2⟩, .ok ⟨.symbol .equal, "==", 2⟩,
        .ok ⟨.symbol .leftParen, "(", 2⟩, .ok ⟨.identifier, "t", 2⟩,
        .ok ⟨.symbol .rightParen, ")", 2⟩, .ok ⟨.keyword .putsWord, "puts", 3⟩,
        .ok ⟨.text, "\"#\"", 3⟩, .ok ⟨.keyword .elseWord, "else", 4⟩, .ok ⟨.symbol .bang, "!", 5⟩,
        .ok ⟨.identifier, "t", 5⟩, .ok ⟨.keyword .endWord, "end", 6⟩, .ok (.endOfInput 6)] := by
    decide +kernel
  have accepted : parse "t = 1..3\nif f(t) == (t)\nputs \"#\" # note\nelse\n!t\nend" =
      .ok [.expression 1 (.assign 1 "t" (.range 1 ⟨.inclusive, 1, 3⟩)),
        .conditional 2
          [.guarded (.binary 2 .equal (.call 2 "f" [.identifier 2 "t"]) (.identifier 2 "t"))
            [.print 3 (.text 3 "#")],
          .guarded (.boolean 4 true) [.expression 5 (.unary 5 .not (.identifier 5 "t"))]]] := by
    rw [parse, Stream.ofSource, scanned]
    rfl
  exact ⟨_, accepted, parse_derives _ _ accepted⟩

end Parser

end Scriptlet
