/-
**Printing a program and parsing it again.**

Printed expressions stand in parentheses, so each reader knows where they end; what has to be said
of the token behind them is only that it neither continues an operation nor assigns
(`EndsExpression`). Every word of a statement's beginning and every word that closes a block is of
that kind, and this is carried through all statements.

The bound on the recursion is explicit: eight levels for each word.

* `Parser.readBack_words`: an expression in front of a closing parenthesis.
* `Parser.statement_words`, `Parser.block_words`: statements, by induction on the trees.
* `Parser.parse_written`: **a printed program is parsed to the program that was printed**, up to
  lines, whatever the gaps between its words are.
-/

import Scriptlet.Proofs.Parser.Lines
import Scriptlet.Proofs.Printer
import Scriptlet.Proofs.Token.Stream

namespace Scriptlet

namespace Word

@[simp] theorem kind_token (word : Word) : word.token.kind = word.kind := rfl

@[simp] theorem line_token (word : Word) : word.token.line = 0 := rfl

@[simp] theorem kind_symbol (mark : Symbol) : (symbol mark).kind = .symbol mark := rfl

@[simp] theorem kind_keyword (word : Keyword) : (keyword word).kind = .keyword word := rfl

@[simp] theorem kind_name (text : String) : (name text).kind = .identifier := rfl

end Word

namespace Stream

/-- A word in front of a stream. -/
def push (stream : Stream) (word : Word) : Stream := stream.prepend [word.token]

/-- **Words in front of a stream**, as tokens without a line. -/
def behind (stream : Stream) : List Word → Stream
  | [] => stream
  | word :: words => (stream.behind words).push word

variable (stream : Stream) (word : Word) (kind : TokenKind)

@[simp] theorem behind_nil : stream.behind [] = stream := rfl

@[simp] theorem behind_cons (words : List Word) :
    stream.behind (word :: words) = (stream.behind words).push word := rfl

@[simp] theorem behind_append (words others : List Word) :
    stream.behind (words ++ others) = (stream.behind others).behind words := by
  induction words with
  | nil => rfl
  | cons first rest hypothesis => rw [List.cons_append, behind_cons, behind_cons, hypothesis]

theorem behind_eq_prepend (words : List Word) :
    stream.behind words = stream.prepend (words.map Word.token) := by
  induction words with
  | nil => rfl
  | cons first rest hypothesis =>
    rw [behind_cons, push, hypothesis, prepend_prepend]
    rfl

theorem length_rest_behind (words : List Word) :
    (stream.behind words).rest.length = words.length + stream.rest.length := by
  rw [behind_eq_prepend, length_rest_prepend, List.length_map]

@[simp] theorem current_push : (stream.push word).current = word.token := rfl

@[simp] theorem line_push : (stream.push word).line = 0 := rfl

@[simp] theorem advance_push : (stream.push word).advance = .ok (word.token, stream) := rfl

@[simp] theorem accept_push :
    (stream.push word).accept kind = .ok (if word.kind = kind then some stream else none) := by
  by_cases same : word.kind = kind
  · rw [if_pos same]
    exact accept_prepend same
  · rw [if_neg same]
    exact accept_of_ne same

@[simp] theorem expect_push :
    (stream.push word).expect kind =
      if word.kind = kind then .ok (word.token, stream)
      else .error ((stream.push word).missing kind) := by
  by_cases same : word.kind = kind
  · rw [if_pos same]
    exact expect_prepend same
  · rw [if_neg same, expect, check, current_push, Word.kind_token, decide_eq_false same]
    rfl

end Stream

namespace Parser

@[simp] theorem orStop_ok {α : Type} (value : α) : orStop (.ok value) = .ok value := rfl

@[simp] theorem ok_bind {α β : Type} (value : α) (next : α → Except Stop β) :
    (Except.ok value >>= next) = next value := rfl

@[simp] theorem pure_eq_ok {α : Type} (value : α) : (pure value : Except Stop α) = .ok value := rfl

/-- **A stream that ends the expression in front of it.** -/
def EndsExpression (stream : Stream) : Prop :=
  stream.current.kind.binaryOperator? = none ∧ stream.current.kind ≠ .symbol .assign

theorem operatorFrom?_of_ends {stream : Stream} (ends : EndsExpression stream) (level : Nat) :
    operatorFrom? level stream = none := by
  rw [operatorFrom?, ends.1]
  rfl

/-- An operation is an expression when no assignment follows it. -/
theorem expression_of_operation {fuel : Nat} {stream after : Stream} {tree : Expr}
    (read : operation fuel 0 stream = .ok (tree, after))
    (plain : after.current.kind ≠ .symbol .assign) :
    expression (fuel + 1) stream = .ok (tree, after) := by
  rw [expression, read]
  simp [Stream.accept_of_ne plain]

/-- An operand is an operation when no operator follows it. -/
theorem operation_of_operand {fuel level : Nat} {stream after : Stream} {tree : Expr}
    (read : operand (fuel + 1) stream = .ok (tree, after))
    (last : operatorFrom? level after = none) :
    operation (fuel + 2) level stream = .ok (tree, after) := by
  rw [operation, read]
  simp [operations, last]

/-- An operand is an expression when nothing continues it. -/
theorem expression_of_operand {fuel : Nat} {stream after : Stream} {tree : Expr}
    (read : operand (fuel + 1) stream = .ok (tree, after)) (ends : EndsExpression after) :
    expression (fuel + 3) stream = .ok (tree, after) :=
  expression_of_operation (operation_of_operand read (operatorFrom?_of_ends ends 0)) ends.2

theorem endsExpression_closer (stream : Stream) :
    EndsExpression (stream.push (.symbol .rightParen)) := ⟨rfl, by simp⟩

theorem endsExpression_comma (stream : Stream) :
    EndsExpression (stream.push (.symbol .comma)) := ⟨rfl, by simp⟩

/-! ### Expressions in parentheses -/

/-- **Words that are read as a tree in front of a closing parenthesis.** -/
def ReadBack (words : List Word) (tree : Expr) : Prop :=
  ∀ (fuel : Nat) (after : Stream), 8 * words.length ≤ fuel →
    expression fuel ((after.push (.symbol .rightParen)).behind words) =
      .ok (tree, after.push (.symbol .rightParen))

namespace ReadBack

variable {words : List Word} {tree : Expr} {fuel : Nat}

theorem operand_enclosed (back : ReadBack words tree) (enough : 8 * words.length + 2 ≤ fuel)
    (after : Stream) :
    operand fuel (after.behind (enclosed words)) = .ok (tree, after) := by
  obtain ⟨fuel, rfl⟩ : ∃ inner, fuel = inner + 2 := ⟨fuel - 2, by omega⟩
  have inside := back fuel after (by omega)
  simp [enclosed, operand, primary, TokenKind.unaryOperator?, Symbol.unaryOperator?, inside]

theorem operation_enclosed (back : ReadBack words tree) (enough : 8 * words.length + 3 ≤ fuel)
    {level : Nat} {after : Stream} (last : operatorFrom? level after = none) :
    operation fuel level (after.behind (enclosed words)) = .ok (tree, after) := by
  obtain ⟨fuel, rfl⟩ : ∃ inner, fuel = inner + 2 := ⟨fuel - 2, by omega⟩
  exact operation_of_operand (back.operand_enclosed (by omega) after) last

/-- An expression in parentheses, in front of a token that does not continue it. -/
theorem expression_enclosed (back : ReadBack words tree) (enough : 8 * words.length + 4 ≤ fuel)
    {after : Stream} (ends : EndsExpression after) :
    expression fuel (after.behind (enclosed words)) = .ok (tree, after) := by
  obtain ⟨fuel, rfl⟩ : ∃ inner, fuel = inner + 3 := ⟨fuel - 3, by omega⟩
  exact expression_of_operand (back.operand_enclosed (by omega) after) ends

end ReadBack

/-! ### All expressions -/

theorem binaryOperator?_symbol (operator : BinaryOperator) :
    operator.symbol.binaryOperator? = some operator := by
  rcases operator <;> rfl

theorem unaryOperator?_symbol (operator : UnaryOperator) :
    operator.symbol.unaryOperator? = some operator := by
  rcases operator <;> rfl

/-- A word that is an expression of its own. -/
theorem readBack_word {word : Word} {tree : Expr} (single : word.kind.unaryOperator? = none)
    (read : ∀ (fuel : Nat) (after : Stream),
      primary (fuel + 1) ((after.push (.symbol .rightParen)).push word) =
        .ok (tree, after.push (.symbol .rightParen))) :
    ReadBack [word] tree := by
  intro fuel after enough
  obtain ⟨fuel, rfl⟩ : ∃ inner, fuel = inner + 4 := ⟨fuel - 4, by simp at enough; omega⟩
  refine expression_of_operand ?_ (endsExpression_closer after)
  rw [operand, Stream.behind_cons, Stream.current_push, Word.kind_token, single]
  exact read fuel after

@[simp] theorem length_enclosed (words : List Word) :
    (enclosed words).length = words.length + 2 := by
  simp [enclosed]

@[simp] theorem lexeme_name (text : String) : (Word.name text).token.lexeme = text := by
  simp [Word.token, Word.name]

theorem textLiteral_quoted {contents : String} (plain : '"' ∉ contents.toList) :
    textLiteral (Word.quoted contents).token = .ok contents := by
  have quoted : Quoted (Word.quoted contents).token.lexeme.toList contents.toList := by
    rw [Word.token, String.toList_ofList]
    exact ⟨plain, rfl⟩
  rw [textLiteral_of_quoted quoted, String.ofList_toList]

/-- A range that is spelled is decoded. -/
theorem rangeLiteral_of_spelling {kind : RangeKind} {token : Token} {range : Range}
    (spelled : RangeSpelling token.lexeme.toList range) (same : range.kind = kind) :
    rangeLiteral kind token = .ok range := by
  obtain ⟨first, last, dotted, lower, upper⟩ := spelled
  rw [rangeLiteral_of_dotted (same ▸ dotted),
    (decodeRange?_eq_some_iff dotted.1 dotted.2.1).mpr ⟨same, lower, upper⟩]
  rfl

theorem rangeLiteral_range {range : Range} (first : 0 ≤ range.first.toInt)
    (last : 0 ≤ range.last.toInt) :
    rangeLiteral range.kind (Word.range range).token = .ok range := by
  have lexeme : (Word.range range).token.lexeme = range.text := String.ofList_toList
  refine rangeLiteral_of_spelling ?_ rfl
  rw [lexeme]
  exact spelling_text first last

section Trees

variable {numeral : Nat → Number → List Char}

theorem intercalate_wordsEach (first : Expr) (rest : List Expr) :
    ∃ more, List.intercalate [.symbol .comma] (Expr.wordsEach numeral (first :: rest)) =
      .symbol .leftParen :: more := by
  rcases rest with _ | ⟨second, rest⟩
  · exact ⟨_, by simp [Expr.wordsEach, enclosed]; rfl⟩
  · exact ⟨_, by simp [Expr.wordsEach, enclosed]; rfl⟩

mutual

/-- **A printed expression is read back** in front of a closing parenthesis. -/
theorem readBack_words : (tree : Expr) → tree.Expressible numeral →
    ReadBack (tree.words numeral) (tree.mapLines fun _ => 0)
  | .number line value, expressible => by
    have spelled : Numeral (Word.token ⟨.number, numeral line value⟩).lexeme.toList value := by
      rw [Word.token, String.toList_ofList]
      exact expressible
    refine readBack_word rfl fun fuel after => ?_
    simp [primary, numberLiteral_of_numeral spelled, Expr.mapLines]
  | .text _ value, expressible => by
    refine readBack_word rfl fun fuel after => ?_
    have kind : (Word.quoted value).kind = .text := rfl
    simp [primary, kind, textLiteral_quoted expressible, Expr.mapLines]
  | .boolean _ value, _ => by
    refine readBack_word (by rcases value <;> rfl) fun fuel after => ?_
    rcases value <;> simp [primary, Word.boolean, Expr.mapLines]
  | .range _ value, expressible => by
    refine readBack_word rfl fun fuel after => ?_
    have kind : (Word.range value).kind = .range value.kind := rfl
    simp [primary, kind, rangeLiteral_range expressible.1 expressible.2, Expr.mapLines]
  | .identifier _ name, _ => by
    refine readBack_word rfl fun fuel after => ?_
    simp [primary, Expr.mapLines]
  | .unary _ operator inner, expressible => by
    intro fuel after enough
    have back := readBack_words inner expressible
    simp only [Expr.words, List.length_cons, length_enclosed] at enough
    obtain ⟨fuel, rfl⟩ : ∃ depth, fuel = depth + 3 := ⟨fuel - 3, by omega⟩
    have inside := back.operand_enclosed (show _ ≤ fuel by omega)
      (after.push (.symbol .rightParen))
    refine expression_of_operand ?_ (endsExpression_closer after)
    rw [Expr.words, Stream.behind_cons, operand]
    simp [TokenKind.unaryOperator?, unaryOperator?_symbol, inside, Expr.mapLines]
  | .binary _ operator left right, expressible => by
    intro fuel after enough
    have leftBack := readBack_words left expressible.1
    have rightBack := readBack_words right expressible.2
    simp only [Expr.words, List.length_append, List.length_cons, length_enclosed] at enough
    obtain ⟨fuel, rfl⟩ : ∃ depth, fuel = depth + 4 := ⟨fuel - 4, by omega⟩
    have first := leftBack.operand_enclosed (show _ ≤ fuel + 2 by omega)
      (((after.push (.symbol .rightParen)).behind (enclosed (right.words numeral))).push
        (.symbol operator.symbol))
    have second := rightBack.operation_enclosed (show _ ≤ fuel + 1 by omega)
      (operatorFrom?_of_ends (endsExpression_closer after) (operator.precedence + 1))
    have front : operatorFrom? 0 (((after.push (.symbol .rightParen)).behind
        (enclosed (right.words numeral))).push (.symbol operator.symbol)) = some operator := by
      simp [operatorFrom?, TokenKind.binaryOperator?, binaryOperator?_symbol]
    rw [Expr.words, Stream.behind_append, Stream.behind_cons]
    refine expression_of_operation ?_ (endsExpression_closer after).2
    rw [operation, first]
    show operations (fuel + 2) 0 _ _ = _
    rw [operations, front]
    simp only [Stream.advance_push, orStop_ok, ok_bind, second]
    rw [operations, operatorFrom?_of_ends (endsExpression_closer after)]
    rfl
  | .call _ name [], _ => by
    intro fuel after enough
    obtain ⟨fuel, rfl⟩ : ∃ depth, fuel = depth + 5 :=
      ⟨fuel - 5, by simp [Expr.words, Expr.wordsEach, listed] at enough; omega⟩
    refine expression_of_operand ?_ (endsExpression_closer after)
    simp [Expr.words, Expr.wordsEach, Expr.mapLines, Expr.mapLinesAll, listed, enclosed, operand,
      primary, arguments, TokenKind.unaryOperator?]
  | .call _ name (first :: rest), expressible => by
    intro fuel after enough
    have back := argumentsUntilClosed_words (first :: rest) expressible.2 (by simp)
    simp only [Expr.words, listed, List.length_cons, length_enclosed] at enough
    obtain ⟨fuel, rfl⟩ : ∃ depth, fuel = depth + 5 := ⟨fuel - 5, by omega⟩
    have inside := back fuel (after.push (.symbol .rightParen)) (by omega)
    obtain ⟨more, opened⟩ := intercalate_wordsEach first rest
    rw [opened, Stream.behind_cons] at inside
    have read : arguments (fuel + 1) ((((after.push (.symbol .rightParen)).push
        (.symbol .rightParen)).behind more).push (.symbol .leftParen)) =
          .ok (Expr.mapLinesAll (fun _ => 0) (first :: rest),
            after.push (.symbol .rightParen)) := by
      rw [arguments, ← inside]
      simp
    refine expression_of_operand ?_ (endsExpression_closer after)
    rw [Expr.words, listed, enclosed, opened, operand]
    show primary (fuel + 2) _ = _
    rw [primary]
    simp [read, Expr.mapLines]
  | .assign _ name value, expressible => by
    intro fuel after enough
    have back := readBack_words value expressible.2
    simp only [Expr.words, List.length_cons, length_enclosed] at enough
    obtain ⟨fuel, rfl⟩ : ∃ depth, fuel = depth + 4 := ⟨fuel - 4, by omega⟩
    have inside := back.expression_enclosed (show _ ≤ fuel + 3 by omega)
      (endsExpression_closer after)
    have target : operation (fuel + 3) 0 ((((after.push (.symbol .rightParen)).behind
        (enclosed (value.words numeral))).push (.symbol .assign)).push (.name name)) =
          .ok (.identifier 0 name, ((after.push (.symbol .rightParen)).behind
            (enclosed (value.words numeral))).push (.symbol .assign)) := by
      simp [operation, operand, primary, operations, TokenKind.unaryOperator?, operatorFrom?,
        TokenKind.binaryOperator?, Symbol.binaryOperator?]
    rw [Expr.words, Stream.behind_cons, Stream.behind_cons, expression, target]
    simp [inside, assignTo, Expr.mapLines]

theorem argumentsUntilClosed_words : (trees : List Expr) → Expr.ExpressibleAll numeral trees →
    trees ≠ [] → ∀ (fuel : Nat) (after : Stream),
      8 * (List.intercalate [.symbol .comma] (Expr.wordsEach numeral trees)).length ≤ fuel →
      argumentsUntilClosed fuel ((after.push (.symbol .rightParen)).behind
        (List.intercalate [.symbol .comma] (Expr.wordsEach numeral trees))) =
          .ok (Expr.mapLinesAll (fun _ => 0) trees, after)
  | [], _, nonempty => absurd rfl nonempty
  | [only], expressible, _ => by
    intro fuel after enough
    have back := readBack_words only expressible.1
    simp only [Expr.wordsEach, List.intercalate_singleton, length_enclosed] at enough ⊢
    obtain ⟨fuel, rfl⟩ : ∃ depth, fuel = depth + 1 := ⟨fuel - 1, by omega⟩
    have read := back.expression_enclosed (show _ ≤ fuel by omega) (endsExpression_closer after)
    rw [argumentsUntilClosed, read]
    simp [Expr.mapLinesAll]
  | first :: second :: rest, expressible, _ => by
    intro fuel after enough
    have back := readBack_words first expressible.1
    have later := argumentsUntilClosed_words (second :: rest) expressible.2 (by simp)
    have join :
        List.intercalate [.symbol .comma] (Expr.wordsEach numeral (first :: second :: rest)) =
          enclosed (first.words numeral) ++ .symbol .comma ::
            List.intercalate [.symbol .comma] (Expr.wordsEach numeral (second :: rest)) := by
      simp [Expr.wordsEach]
    rw [join, List.length_append, List.length_cons, length_enclosed] at enough
    obtain ⟨fuel, rfl⟩ : ∃ depth, fuel = depth + 1 := ⟨fuel - 1, by omega⟩
    rw [join, Stream.behind_append, Stream.behind_cons, argumentsUntilClosed,
      back.expression_enclosed (by omega) (endsExpression_comma _)]
    simp [later fuel after (by omega), Expr.mapLinesAll]

end

/-! ### Names -/

theorem namesUntilClosed_words : (first : String) → (rest : List String) →
    ∀ (fuel : Nat) (after : Stream), rest.length < fuel →
      namesUntilClosed fuel ((after.push (.symbol .rightParen)).behind
        (List.intercalate [.symbol .comma] ((first :: rest).map fun name => [.name name]))) =
          .ok (first :: rest, after)
  | first, [], fuel, after, enough => by
    obtain ⟨fuel, rfl⟩ : ∃ depth, fuel = depth + 1 := ⟨fuel - 1, by omega⟩
    simp [namesUntilClosed, identifier]
  | first, second :: rest, fuel, after, enough => by
    rw [List.length_cons] at enough
    obtain ⟨fuel, rfl⟩ : ∃ depth, fuel = depth + 1 := ⟨fuel - 1, by omega⟩
    have later := namesUntilClosed_words second rest fuel after (by omega)
    rw [List.map_cons, List.intercalate_cons_cons_left, Stream.behind_cons] at later
    rw [namesUntilClosed]
    simp [identifier, later]

theorem length_le_listed : (names : List String) →
    names.length ≤ (listed (names.map fun name => [.name name])).length
  | [] => Nat.zero_le _
  | [_] => by simp [listed]
  | first :: second :: rest => by
    have later := length_le_listed (second :: rest)
    simp only [listed, length_enclosed, List.map_cons, List.intercalate_cons_cons,
      List.length_append, List.length_cons] at later ⊢
    omega

/-- **A printed list of parameters is read back**, an empty one too. -/
theorem parameters_words {names : List String} {fuel : Nat} (enough : names.length ≤ fuel)
    (after : Stream) :
    parameters fuel (after.behind (listed (names.map fun name => [.name name]))) =
      .ok (names, after) := by
  rcases names with _ | ⟨first, rest⟩
  · simp [parameters, listed, enclosed]
  · have read := namesUntilClosed_words first rest fuel after enough
    rw [List.map_cons, List.intercalate_cons_cons_left, Stream.behind_cons] at read
    simp [parameters, listed, enclosed, read]

/-! ### Where statements begin and end -/

/-- The kinds of token that begin a printed statement. -/
def statementStarts : List TokenKind :=
  [.symbol .leftParen, .keyword .putsWord, .keyword .ifWord, .keyword .whileWord,
    .keyword .forWord, .keyword .defWord]

theorem exists_of_words {tree : Stmt} (expressible : tree.Expressible numeral) :
    ∃ word more, tree.words numeral = word :: more ∧ word.kind ∈ statementStarts := by
  match tree, expressible with
  | .print _ _, _ => exact ⟨_, _, rfl, by decide⟩
  | .conditional _ (.guarded _ _ :: _), _ => exact ⟨_, _, rfl, by decide⟩
  | .conditional _ [], expressible => exact absurd rfl expressible.1
  | .whileLoop _ _ _, _ => exact ⟨_, _, rfl, by decide⟩
  | .forLoop _ _ _ _, _ => exact ⟨_, _, rfl, by decide⟩
  | .define _ _ _ _, _ => exact ⟨_, _, rfl, by decide⟩
  | .expression _ _, _ => exact ⟨_, _, rfl, by decide⟩

theorem current_words {tree : Stmt} (expressible : tree.Expressible numeral) (after : Stream) :
    (after.behind (tree.words numeral)).current.kind ∈ statementStarts := by
  obtain ⟨word, more, opened, starts⟩ := exists_of_words expressible
  rw [opened]
  exact starts

theorem length_words_pos {tree : Stmt} (expressible : tree.Expressible numeral) :
    0 < (tree.words numeral).length := by
  obtain ⟨word, more, opened, _⟩ := exists_of_words expressible
  simp [opened]

/-- No beginning of a statement continues an expression, closes a block or ends the input. -/
theorem statementStarts_facts {stream : Stream} (starts : stream.current.kind ∈ statementStarts) :
    EndsExpression stream ∧ stream.atEnd = false ∧
      ∀ closers, closers ⊆ branchEnds → endsBlock closers stream = false := by
  have facts : ∀ kind ∈ statementStarts,
      (kind.binaryOperator? = none ∧ kind ≠ .symbol .assign) ∧ kind ≠ .endOfInput ∧
        ∀ word ∈ branchEnds, kind ≠ .keyword word := by
    decide
  obtain ⟨ends, inside, other⟩ := facts _ starts
  refine ⟨ends, decide_eq_false inside, fun closers known => ?_⟩
  rw [endsBlock, List.any_eq_false]
  intro closer member
  simpa [Stream.check] using other closer (known member)

/-- **No printed statement continues the expression in front of it.** -/
theorem endsExpression_wordsAll {trees : List Stmt}
    (expressible : Stmt.ExpressibleAll numeral trees) {after : Stream}
    (ends : EndsExpression after) :
    EndsExpression (after.behind (Stmt.wordsAll numeral trees)) := by
  rcases trees with _ | ⟨first, rest⟩
  · exact ends
  · rw [Stmt.wordsAll, Stream.behind_append]
    exact (statementStarts_facts (current_words expressible.1 _)).1

theorem endsExpression_endWord (stream : Stream) :
    EndsExpression (stream.push (.keyword .endWord)) := ⟨rfl, by simp⟩

/-- The next branch and the word that closes a conditional end the body in front of them. -/
theorem ends_otherBranches (numeral : Nat → Number → List Char) (trees : List Branch)
    (after : Stream) :
    let behind := (after.push (.keyword .endWord)).behind (Branch.wordsAll numeral .elsifWord trees)
    EndsExpression behind ∧ endsBlock branchEnds behind := by
  rcases trees with _ | ⟨⟨condition, body⟩, rest⟩
  · exact ⟨endsExpression_endWord after, rfl⟩
  · exact ⟨⟨rfl, nofun⟩, rfl⟩

/-! ### All statements -/

/-- A branch is read when its body and the branches behind it are. -/
theorem branches_words {condition : Expr} {body : List Stmt} {rest : List Branch} {fuel : Nat}
    {after : Stream} {others : List Branch} {trees : List Stmt}
    (guarded : condition.Expressible numeral) (inside : Stmt.ExpressibleAll numeral body)
    (enough : 8 * (condition.words numeral).length + 4 ≤ fuel)
    (read : block fuel branchEnds (((after.push (.keyword .endWord)).behind
      (Branch.wordsAll numeral .elsifWord rest)).behind (Stmt.wordsAll numeral body)) =
        .ok (trees, (after.push (.keyword .endWord)).behind
          (Branch.wordsAll numeral .elsifWord rest)))
    (later : otherBranches fuel ((after.push (.keyword .endWord)).behind
      (Branch.wordsAll numeral .elsifWord rest)) = .ok (others, after)) :
    branches (fuel + 1) ((((after.push (.keyword .endWord)).behind
      (Branch.wordsAll numeral .elsifWord rest)).behind (Stmt.wordsAll numeral body)).behind
        (enclosed (condition.words numeral))) =
          .ok (.guarded (condition.mapLines fun _ => 0) trees :: others, after) := by
  have ends := (ends_otherBranches numeral rest after).1
  have front := (readBack_words condition guarded).expression_enclosed enough
    (endsExpression_wordsAll inside ends)
  rw [branches, front]
  simp [read, later]

/-- Statements in front of the word that closes them. -/
theorem closedBlock_of_block {fuel : Nat} {stream after : Stream} {body : List Stmt}
    (read : block fuel [.endWord] stream = .ok (body, after.push (.keyword .endWord))) :
    closedBlock (fuel + 1) stream = .ok (body, after) := by
  rw [closedBlock, read]
  simp

mutual

/-- **A printed statement is read back.** -/
theorem statement_words : (tree : Stmt) → tree.Expressible numeral →
    ∀ (fuel : Nat) (after : Stream), EndsExpression after → 8 * (tree.words numeral).length ≤ fuel →
      statement fuel (after.behind (tree.words numeral)) = .ok (tree.mapLines fun _ => 0, after)
  | .print _ value, expressible, fuel, after, ends, enough => by
    have back := readBack_words value expressible
    rw [Stmt.words, List.length_cons, length_enclosed] at enough
    obtain ⟨fuel, rfl⟩ : ∃ depth, fuel = depth + 1 := ⟨fuel - 1, by omega⟩
    rw [Stmt.words, Stream.behind_cons, statement]
    simp [back.expression_enclosed (show _ ≤ fuel by omega) ends, Stmt.mapLines]
  | .conditional _ [], expressible, _, _, _, _ => absurd rfl expressible.1
  | .conditional _ (.guarded condition body :: rest), ⟨_, guarded, inside, others⟩, fuel, after, _,
      enough => by
    obtain ⟨ends, closed⟩ := ends_otherBranches numeral rest after
    simp only [Stmt.words, Branch.wordsAll, List.length_append, List.length_cons,
      length_enclosed] at enough
    obtain ⟨fuel, rfl⟩ : ∃ depth, fuel = depth + 2 := ⟨fuel - 2, by omega⟩
    have read := block_words body inside fuel _ _ (List.Subset.refl _) closed ends (by omega)
    have later := otherBranches_words rest others fuel after (by omega)
    have whole := branches_words guarded inside (by omega) read later
    simp only [Stmt.words, Branch.wordsAll, List.cons_append, List.append_assoc, Stream.behind_cons,
      Stream.behind_append, Stream.behind_nil]
    rw [statement]
    simp [whole, Stmt.mapLines, Branch.mapLinesAll]
  | .whileLoop _ condition body, expressible, fuel, after, _, enough => by
    have back := readBack_words condition expressible.1
    simp only [Stmt.words, List.length_append, List.length_cons, length_enclosed] at enough
    obtain ⟨fuel, rfl⟩ : ∃ depth, fuel = depth + 2 := ⟨fuel - 2, by omega⟩
    have read := closedBlock_of_block (block_words body expressible.2 fuel
      [.endWord] _ (by decide) rfl (endsExpression_endWord after) (by omega))
    have front := back.expression_enclosed (show _ ≤ fuel + 1 by omega)
      (endsExpression_wordsAll expressible.2 (endsExpression_endWord after))
    simp only [Stmt.words, List.cons_append, List.append_assoc, Stream.behind_cons,
      Stream.behind_append, Stream.behind_nil]
    rw [statement]
    simp [front, read, Stmt.mapLines]
  | .forLoop _ name iterand body, ⟨_, ⟨line, range, same⟩, bounds, expressible⟩, fuel, after, _,
      enough => by
    subst same
    simp only [Stmt.words, Expr.words, List.length_append, List.length_cons] at enough
    obtain ⟨fuel, rfl⟩ : ∃ depth, fuel = depth + 2 := ⟨fuel - 2, by omega⟩
    have read := closedBlock_of_block (block_words body expressible fuel
      [.endWord] _ (by decide) rfl (endsExpression_endWord after) (by omega))
    have kind : (Word.range range).kind = .range range.kind := rfl
    simp only [Stmt.words, Expr.words, List.cons_append, List.nil_append, Stream.behind_cons,
      Stream.behind_append, Stream.behind_nil]
    rw [statement]
    simp [identifier, rangeToken, kind, rangeLiteral_range bounds.1 bounds.2, read, Stmt.mapLines,
      Expr.mapLines]
  | .define _ name names body, ⟨_, _, expressible⟩, fuel, after, _, enough => by
    simp only [Stmt.words, List.length_append, List.length_cons] at enough
    obtain ⟨fuel, rfl⟩ : ∃ depth, fuel = depth + 2 := ⟨fuel - 2, by omega⟩
    have read := closedBlock_of_block (block_words body expressible fuel
      [.endWord] _ (by decide) rfl (endsExpression_endWord after) (by omega))
    have few := length_le_listed names
    have front := parameters_words (show names.length ≤ fuel + 1 by omega)
      ((after.push (.keyword .endWord)).behind (Stmt.wordsAll numeral body))
    simp only [Stmt.words, List.cons_append, List.append_assoc, Stream.behind_cons,
      Stream.behind_append, Stream.behind_nil]
    rw [statement]
    simp [identifier, front, read, Stmt.mapLines]
  | .expression _ value, expressible, fuel, after, ends, enough => by
    have back := readBack_words value expressible
    rw [Stmt.words, length_enclosed] at enough
    obtain ⟨fuel, rfl⟩ : ∃ depth, fuel = depth + 1 := ⟨fuel - 1, by omega⟩
    have front := back.expression_enclosed (show _ ≤ fuel by omega) ends
    have opened : (after.behind (enclosed (value.words numeral))).current =
      (Word.symbol .leftParen).token := rfl
    rw [Stmt.words, statement]
    simp [Stream.line, opened, front, Stmt.mapLines]

/-- **Printed statements are read back** in front of a word that ends them. -/
theorem block_words : (trees : List Stmt) → Stmt.ExpressibleAll numeral trees →
    ∀ (fuel : Nat) (closers : List Keyword) (after : Stream), closers ⊆ branchEnds →
      endsBlock closers after → EndsExpression after →
      8 * (Stmt.wordsAll numeral trees).length + 1 ≤ fuel →
      block fuel closers (after.behind (Stmt.wordsAll numeral trees)) =
        .ok (Stmt.mapLinesAll (fun _ => 0) trees, after)
  | [], _, fuel, closers, after, _, closed, _, enough => by
    obtain ⟨fuel, rfl⟩ : ∃ depth, fuel = depth + 1 := ⟨fuel - 1, by omega⟩
    simp [Stmt.wordsAll, block, closed, Stmt.mapLinesAll]
  | first :: rest, expressible, fuel, closers, after, known, closed, ends, enough => by
    rw [Stmt.wordsAll, List.length_append] at enough
    have one := length_words_pos expressible.1
    obtain ⟨fuel, rfl⟩ : ∃ depth, fuel = depth + 1 := ⟨fuel - 1, by omega⟩
    obtain ⟨_, solid, begins⟩ := statementStarts_facts (current_words expressible.1
      (after.behind (Stmt.wordsAll numeral rest)))
    have front := statement_words first expressible.1 fuel
      (after.behind (Stmt.wordsAll numeral rest)) (endsExpression_wordsAll expressible.2 ends)
      (by omega)
    have later := block_words rest expressible.2 fuel closers after known closed ends (by omega)
    rw [Stmt.wordsAll, Stream.behind_append, block, begins closers known, solid]
    simp [front, later, Stmt.mapLinesAll]

theorem otherBranches_words : (trees : List Branch) → Branch.ExpressibleAll numeral trees →
    ∀ (fuel : Nat) (after : Stream),
      8 * (Branch.wordsAll numeral .elsifWord trees).length + 1 ≤ fuel →
      otherBranches fuel ((after.push (.keyword .endWord)).behind
        (Branch.wordsAll numeral .elsifWord trees)) =
          .ok (Branch.mapLinesAll (fun _ => 0) trees, after)
  | [], _, fuel, after, enough => by
    obtain ⟨fuel, rfl⟩ : ∃ depth, fuel = depth + 1 := ⟨fuel - 1, by omega⟩
    simp [Branch.wordsAll, otherBranches, Branch.mapLinesAll]
  | .guarded condition body :: rest, ⟨guarded, inside, others⟩, fuel, after, enough => by
    obtain ⟨ends, closed⟩ := ends_otherBranches numeral rest after
    simp only [Branch.wordsAll, List.length_append, List.length_cons, length_enclosed] at enough
    obtain ⟨fuel, rfl⟩ : ∃ depth, fuel = depth + 2 := ⟨fuel - 2, by omega⟩
    have read := block_words body inside fuel _ _ (List.Subset.refl _) closed ends (by omega)
    have later := otherBranches_words rest others fuel after (by omega)
    have whole := branches_words guarded inside (by omega) read later
    simp only [Branch.wordsAll, List.cons_append, List.append_assoc, Stream.behind_cons,
      Stream.behind_append]
    rw [otherBranches]
    simp [whole, Branch.mapLinesAll]

end

/-! ### Whole programs -/

/-- The stream at the end of the input. -/
def ended : Stream := ⟨.endOfInput 0, []⟩

/-- Printed statements are read back up to the end of the input. -/
theorem program_words : (trees : List Stmt) → Stmt.ExpressibleAll numeral trees →
    ∀ fuel, 8 * (Stmt.wordsAll numeral trees).length + 1 ≤ fuel →
      program fuel (ended.behind (Stmt.wordsAll numeral trees)) = .ok (withoutLines trees)
  | [], _, fuel, enough => by
    obtain ⟨fuel, rfl⟩ : ∃ depth, fuel = depth + 1 := ⟨fuel - 1, by omega⟩
    rfl
  | first :: rest, expressible, fuel, enough => by
    rw [Stmt.wordsAll, List.length_append] at enough
    have one := length_words_pos expressible.1
    obtain ⟨fuel, rfl⟩ : ∃ depth, fuel = depth + 1 := ⟨fuel - 1, by omega⟩
    obtain ⟨_, solid, _⟩ := statementStarts_facts (current_words expressible.1
      (ended.behind (Stmt.wordsAll numeral rest)))
    have front := statement_words first expressible.1 fuel
      (ended.behind (Stmt.wordsAll numeral rest))
      (endsExpression_wordsAll expressible.2 ⟨rfl, nofun⟩) (by omega)
    have later := program_words rest expressible.2 fuel (by omega)
    rw [Stmt.wordsAll, Stream.behind_append, program, solid]
    simp [front, later, withoutLines, Stmt.mapLinesAll]

end Trees

/-- A written text is a stream of its words, up to lines. -/
theorem ofSource_written {words : List Word} {text : String} (written : Written words text.toList)
    (spelled : AllSpelled words) :
    ∃ stream, Stream.ofSource text = .ok stream ∧
      stream.mapLines (fun _ => 0) = ended.behind words := by
  have scanned :
      (scan text).map (ScanResult.mapLines fun _ => 0) = (ended.behind words).results := by
    rw [scan, scanFrom_written written spelled 1, Stream.behind_eq_prepend, Stream.results_prepend,
      List.map_append]
    rfl
  rw [Stream.ofSource]
  generalize scan text = results at scanned ⊢
  rcases results with _ | ⟨error | token, rest⟩
  · cases scanned
  · cases scanned
  · exact ⟨⟨token, rest⟩, rfl, Stream.results_injective scanned⟩

/-- **A printed program is parsed to the program that was printed**, up to lines. -/
theorem parse_written (numeral : Nat → Number → List Char) (trees : Program) (text : String)
    (expressible : Stmt.ExpressibleAll numeral trees)
    (written : Written (Stmt.wordsAll numeral trees) text.toList) :
    ∃ parsed, parse text = .ok parsed ∧ withoutLines parsed = withoutLines trees := by
  obtain ⟨stream, opened, same⟩ :=
    ofSource_written written (Stmt.spelled_wordsAll trees expressible)
  have enough : 8 * (Stmt.wordsAll numeral trees).length + 1 ≤ budget stream := by
    have length := congrArg (fun stream => stream.rest.length) same
    simp only [Stream.length_rest_behind, Stream.mapLines, List.length_map] at length
    rw [budget]
    omega
  have read := program_words trees expressible (budget stream) enough
  rw [← same, program_mapLines] at read
  obtain ⟨parsed, found, equal⟩ := exists_of_relined_eq_ok read
  exact ⟨parsed, parse_eq_ok_iff.mpr ⟨stream, opened, found⟩, equal⟩

/-- A call, a negation and a list of parameters do not continue the statement in front of them. -/
theorem parse_written_adjacent :
    ∃ parsed, parse " def f ( ) end ( a ) ( f ( ( 1.5 ) ) ) ( - ( b ) )" = .ok parsed ∧
      withoutLines parsed = withoutLines
        [.define 1 "f" [] [], .expression 1 (.identifier 1 "a"),
          .expression 1 (.call 1 "f" [.number 1 (.ofDecimal 15 1)]),
          .expression 1 (.unary 1 .negate (.identifier 1 "b"))] := by
  have numeral : Numeral ['1', '.', '5'] (.ofDecimal 15 1) :=
    .decimal (show IsDigits ['1'] by decide) (show IsDigits ['5'] by decide)
  have first : IsName "a" := by decide
  have second : IsName "b" := by decide
  have function : IsName "f" := by decide
  exact parse_written (fun _ _ => ['1', '.', '5']) _ _
    ⟨⟨function, nofun, trivial⟩, first, ⟨function, numeral, trivial⟩, second, trivial⟩
    (written_spaced _)

end Parser

end Scriptlet
