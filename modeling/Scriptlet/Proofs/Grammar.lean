/-
**The grammar of programs**, stated on sequences of tokens and apart from any parser.

```text
program     → statement* END
statement   → "puts" expression | "if" expression statement* elsifs otherwise "end"
            | "while" expression statement* "end" | "for" NAME "in" RANGE statement* "end"
            | "def" NAME parameters statement* "end" | expression
elsifs      → ("elsif" expression statement*)*
otherwise   → ("else" statement*)?
parameters  → ("(" (NAME ("," NAME)*)? ")")?
expression  → assignment
assignment  → logicOr ("=" assignment)?
logicOr     → logicAnd ("||" logicAnd)*
logicAnd    → equality ("&&" equality)*
equality    → comparison (("==" | "!=") comparison)*
comparison  → term ((">" | ">=" | "<" | "<=") term)*
term        → factor (("+" | "-") factor)*
factor      → unary (("*" | "/" | "%") unary)*
unary       → ("-" | "!") unary | primary
primary     → STRING | NUMBER | RANGE | "true" | "false" | NAME ("(" arguments? ")")?
            | "(" expression ")"
```

* `Derives nonterminal tokens tree`: the tokens are derivable from the nonterminal with this tree.
  Parentheses leave no node. Operators of one level group to the left, assignments to the right;
  the tree left of an assignment is a bare name. An `else` is a branch with the condition `true`.
  Every node has the line of the token that determines it.
* `Derives.tokens_ne_nil`: an expression or a statement has at least one token;
  `Derives.begins`: that token is of a kind that begins statements.
-/

import Scriptlet.Proofs.Token.Spelling

namespace Scriptlet

namespace Grammar

/-! ### Levels of operators -/

/-- The levels of operators, the loosest first; operators in front bind tightest. -/
inductive Level where
  | logicOr
  | logicAnd
  | equality
  | comparison
  | term
  | factor
  | unary
  deriving DecidableEq

namespace Level

/-- The next level that binds tighter. -/
def tighter : Level → Level
  | logicOr => logicAnd
  | logicAnd => equality
  | equality => comparison
  | comparison => term
  | term => factor
  | factor => unary
  | unary => unary

/-- The operators between two operands of a level, as they are written and as they are meant. -/
def operators : Level → List (Symbol × BinaryOperator)
  | logicOr => [(.or, .or)]
  | logicAnd => [(.and, .and)]
  | equality => [(.equal, .equal), (.notEqual, .notEqual)]
  | comparison =>
    [(.greater, .greater), (.greaterEqual, .greaterEqual), (.less, .less), (.lessEqual, .lessEqual)]
  | term => [(.plus, .add), (.minus, .subtract)]
  | factor => [(.star, .multiply), (.slash, .divide), (.percent, .modulo)]
  | unary => []

end Level

/-! ### Nonterminals and derivations -/

/-- The nonterminals, with those for the repeated and optional parts of the others. -/
inductive Nonterminal where
  | program
  | statements
  | statement
  | elsifs
  | otherwise
  | parameters
  | names
  | expression
  | assignment
  | operation (level : Level)
  | primary
  | arguments

/-- What the tokens of a nonterminal stand for. -/
abbrev Nonterminal.Tree : Nonterminal → Type
  | program | statements => List Stmt
  | statement => Stmt
  | elsifs | otherwise => List Branch
  | parameters | names => List String
  | expression | assignment | operation _ | primary => Expr
  | arguments => List Expr

/-- **The tokens are derivable from the nonterminal, with the given tree.** -/
inductive Derives : (nonterminal : Nonterminal) → List Token → nonterminal.Tree → Prop
  | program {body : List Token} {trees : List Stmt} {last : Token}
      (statements : Derives .statements body trees) (ended : last.kind = .endOfInput) :
      Derives .program (body ++ [last]) trees
  -- statement*
  | noStatements : Derives .statements [] []
  | moreStatements {first rest : List Token} {tree : Stmt} {trees : List Stmt}
      (head : Derives .statement first tree) (tail : Derives .statements rest trees) :
      Derives .statements (first ++ rest) (tree :: trees)
  -- statement
  | print {word : Token} {operand : List Token} {value : Expr}
      (puts : word.kind = .keyword .putsWord) (printed : Derives .expression operand value) :
      Derives .statement (word :: operand) (.print word.line value)
  | conditional {word last : Token} {condition body elsifs otherwise : List Token} {test : Expr}
      {trees : List Stmt} {middle final : List Branch}
      (opened : word.kind = .keyword .ifWord) (tested : Derives .expression condition test)
      (guarded : Derives .statements body trees) (others : Derives .elsifs elsifs middle)
      (fallback : Derives .otherwise otherwise final) (closed : last.kind = .keyword .endWord) :
      Derives .statement (word :: condition ++ body ++ elsifs ++ otherwise ++ [last])
        (.conditional word.line (.guarded test trees :: middle ++ final))
  | whileLoop {word last : Token} {condition body : List Token} {test : Expr} {trees : List Stmt}
      (opened : word.kind = .keyword .whileWord) (tested : Derives .expression condition test)
      (repeated : Derives .statements body trees) (closed : last.kind = .keyword .endWord) :
      Derives .statement (word :: condition ++ body ++ [last])
        (.whileLoop word.line test trees)
  | forLoop {word name inWord bounds last : Token} {body : List Token} {kind : RangeKind}
      {range : Range} {trees : List Stmt}
      (opened : word.kind = .keyword .forWord) (named : name.kind = .identifier)
      (within : inWord.kind = .keyword .inWord) (ranged : bounds.kind = .range kind)
      (spelled : RangeSpelling bounds.lexeme.toList range) (same : range.kind = kind)
      (repeated : Derives .statements body trees) (closed : last.kind = .keyword .endWord) :
      Derives .statement (word :: name :: inWord :: bounds :: body ++ [last])
        (.forLoop word.line name.lexeme (.range bounds.line range) trees)
  | define {word name last : Token} {list body : List Token} {parameters : List String}
      {trees : List Stmt}
      (opened : word.kind = .keyword .defWord) (named : name.kind = .identifier)
      (listed : Derives .parameters list parameters) (bodied : Derives .statements body trees)
      (closed : last.kind = .keyword .endWord) :
      Derives .statement (word :: name :: list ++ body ++ [last])
        (.define word.line name.lexeme parameters trees)
  | evaluated {first : Token} {rest : List Token} {value : Expr}
      (derived : Derives .expression (first :: rest) value) :
      Derives .statement (first :: rest) (.expression first.line value)
  -- ("elsif" expression statement*)*
  | noElsifs : Derives .elsifs [] []
  | moreElsifs {word : Token} {condition body rest : List Token} {test : Expr} {trees : List Stmt}
      {branches : List Branch}
      (opened : word.kind = .keyword .elsifWord) (tested : Derives .expression condition test)
      (guarded : Derives .statements body trees) (tail : Derives .elsifs rest branches) :
      Derives .elsifs (word :: condition ++ body ++ rest) (.guarded test trees :: branches)
  -- ("else" statement*)?
  | noOtherwise : Derives .otherwise [] []
  | otherwise {word : Token} {body : List Token} {trees : List Stmt}
      (opened : word.kind = .keyword .elseWord) (guarded : Derives .statements body trees) :
      Derives .otherwise (word :: body) [.guarded (.boolean word.line true) trees]
  -- ("(" (NAME ("," NAME)*)? ")")?
  | noParameters : Derives .parameters [] []
  | emptyParameters {opening closing : Token} (opened : opening.kind = .symbol .leftParen)
      (closed : closing.kind = .symbol .rightParen) : Derives .parameters [opening, closing] []
  | parameters {opening closing : Token} {list : List Token} {names : List String}
      (opened : opening.kind = .symbol .leftParen) (listed : Derives .names list names)
      (closed : closing.kind = .symbol .rightParen) :
      Derives .parameters (opening :: list ++ [closing]) names
  -- NAME ("," NAME)*
  | lastName {name : Token} (named : name.kind = .identifier) : Derives .names [name] [name.lexeme]
  | moreNames {name comma : Token} {rest : List Token} {names : List String}
      (named : name.kind = .identifier) (divided : comma.kind = .symbol .comma)
      (tail : Derives .names rest names) :
      Derives .names (name :: comma :: rest) (name.lexeme :: names)
  -- expression and assignment
  | expression {tokens : List Token} {tree : Expr} (derived : Derives .assignment tokens tree) :
      Derives .expression tokens tree
  | plain {tokens : List Token} {tree : Expr}
      (derived : Derives (.operation .logicOr) tokens tree) :
      Derives .assignment tokens tree
  | assign {target source : List Token} {mark : Token} {line : Nat} {name : String} {value : Expr}
      (left : Derives (.operation .logicOr) target (.identifier line name))
      (assigned : mark.kind = .symbol .assign) (right : Derives .assignment source value) :
      Derives .assignment (target ++ mark :: source) (.assign line name value)
  -- the levels of binary operators
  | operand {level : Level} {tokens : List Token} {tree : Expr} (loose : level ≠ .unary)
      (derived : Derives (.operation level.tighter) tokens tree) :
      Derives (.operation level) tokens tree
  | binary {level : Level} {left right : List Token} {mark : Token} {symbol : Symbol}
      {operator : BinaryOperator} {first second : Expr}
      (listed : (symbol, operator) ∈ level.operators)
      (before : Derives (.operation level) left first) (marked : mark.kind = .symbol symbol)
      (behind : Derives (.operation level.tighter) right second) :
      Derives (.operation level) (left ++ mark :: right) (.binary mark.line operator first second)
  -- unary
  | negate {mark : Token} {operand : List Token} {value : Expr}
      (marked : mark.kind = .symbol .minus) (derived : Derives (.operation .unary) operand value) :
      Derives (.operation .unary) (mark :: operand) (.unary mark.line .negate value)
  | not {mark : Token} {operand : List Token} {value : Expr}
      (marked : mark.kind = .symbol .bang) (derived : Derives (.operation .unary) operand value) :
      Derives (.operation .unary) (mark :: operand) (.unary mark.line .not value)
  | single {tokens : List Token} {tree : Expr} (derived : Derives .primary tokens tree) :
      Derives (.operation .unary) tokens tree
  -- primary
  | text {token : Token} {contents : List Char} (literal : token.kind = .text)
      (spelled : Quoted token.lexeme.toList contents) :
      Derives .primary [token] (.text token.line (String.ofList contents))
  | number {token : Token} {value : Number} (literal : token.kind = .number)
      (spelled : Numeral token.lexeme.toList value) :
      Derives .primary [token] (.number token.line value)
  | range {token : Token} {kind : RangeKind} {value : Range} (literal : token.kind = .range kind)
      (spelled : RangeSpelling token.lexeme.toList value) (same : value.kind = kind) :
      Derives .primary [token] (.range token.line value)
  | yes {token : Token} (literal : token.kind = .keyword .trueWord) :
      Derives .primary [token] (.boolean token.line true)
  | no {token : Token} (literal : token.kind = .keyword .falseWord) :
      Derives .primary [token] (.boolean token.line false)
  | identifier {name : Token} (named : name.kind = .identifier) :
      Derives .primary [name] (.identifier name.line name.lexeme)
  | emptyCall {name opening closing : Token} (named : name.kind = .identifier)
      (opened : opening.kind = .symbol .leftParen) (closed : closing.kind = .symbol .rightParen) :
      Derives .primary [name, opening, closing] (.call name.line name.lexeme [])
  | call {name opening closing : Token} {list : List Token} {values : List Expr}
      (named : name.kind = .identifier) (opened : opening.kind = .symbol .leftParen)
      (listed : Derives .arguments list values) (closed : closing.kind = .symbol .rightParen) :
      Derives .primary (name :: opening :: list ++ [closing]) (.call name.line name.lexeme values)
  | grouping {opening closing : Token} {inner : List Token} {tree : Expr}
      (opened : opening.kind = .symbol .leftParen) (derived : Derives .expression inner tree)
      (closed : closing.kind = .symbol .rightParen) :
      Derives .primary (opening :: inner ++ [closing]) tree
  -- expression ("," expression)*
  | lastArgument {tokens : List Token} {value : Expr} (derived : Derives .expression tokens value) :
      Derives .arguments tokens [value]
  | moreArguments {tokens rest : List Token} {comma : Token} {value : Expr} {values : List Expr}
      (derived : Derives .expression tokens value) (divided : comma.kind = .symbol .comma)
      (tail : Derives .arguments rest values) :
      Derives .arguments (tokens ++ comma :: rest) (value :: values)

/-! ### Derivations of something -/

/-- The nonterminals that may be derived from no token at all. -/
def Nonterminal.mayBeEmpty : Nonterminal → Bool
  | statements | elsifs | otherwise | parameters => true
  | program | statement | names | expression | assignment | operation _ | primary
  | arguments => false

/-- **An expression or a statement has at least one token.** -/
theorem Derives.tokens_ne_nil {nonterminal : Nonterminal} {tokens : List Token}
    {tree : nonterminal.Tree} (derived : Derives nonterminal tokens tree)
    (full : nonterminal.mayBeEmpty = false) : tokens ≠ [] := by
  induction derived with
  | expression _ hypothesis => exact hypothesis rfl
  | plain _ hypothesis => exact hypothesis rfl
  | operand _ _ hypothesis => exact hypothesis rfl
  | single _ hypothesis => exact hypothesis rfl
  | lastArgument _ hypothesis => exact hypothesis rfl
  | noStatements | moreStatements | noElsifs | moreElsifs | noOtherwise | otherwise | noParameters
  | emptyParameters | parameters => cases full
  | _ => simp

/-- There are no more statements than tokens. -/
theorem Derives.length_le : ∀ {tokens : List Token} {trees : List Stmt},
    Derives .statements tokens trees → trees.length ≤ tokens.length
  | _, _, .noStatements => Nat.le_refl 0
  | _, _, .moreStatements head tail => by
    have later := tail.length_le
    have some := List.length_pos_iff.mpr (head.tokens_ne_nil rfl)
    rw [List.length_append, List.length_cons]
    omega

/-! ### First tokens -/

/-- The kinds of token that begin a statement. -/
def beginsStatement : TokenKind → Bool
  | .symbol mark => mark ∈ [.minus, .bang, .leftParen]
  | .keyword word => word ∉ [.elsifWord, .elseWord, .endWord, .inWord]
  | .number | .text | .range _ | .identifier => true
  | .endOfInput => false

/-- The nonterminals with which statements begin. -/
def Nonterminal.isFront : Nonterminal → Bool
  | statements | statement | expression | assignment | operation _ | primary => true
  | program | elsifs | otherwise | parameters | names | arguments => false

/-- **The first token of a statement or an expression** is of a kind that begins statements. -/
theorem Derives.begins {nonterminal : Nonterminal} {tokens : List Token}
    {tree : nonterminal.Tree} (derived : Derives nonterminal tokens tree)
    (front : nonterminal.isFront) : ∀ first ∈ tokens.head?, beginsStatement first.kind := by
  induction derived with
  | noStatements => nofun
  | moreStatements head _ hypothesis _ =>
    obtain ⟨first, others, rfl⟩ := List.exists_cons_of_ne_nil (head.tokens_ne_nil rfl)
    exact hypothesis rfl
  | evaluated _ hypothesis => exact hypothesis rfl
  | expression _ hypothesis => exact hypothesis rfl
  | plain _ hypothesis => exact hypothesis rfl
  | assign left _ _ hypothesis _ =>
    obtain ⟨first, others, rfl⟩ := List.exists_cons_of_ne_nil (left.tokens_ne_nil rfl)
    exact hypothesis rfl
  | operand _ _ hypothesis => exact hypothesis rfl
  | binary _ before _ _ hypothesis _ =>
    obtain ⟨first, others, rfl⟩ := List.exists_cons_of_ne_nil (before.tokens_ne_nil rfl)
    exact hypothesis rfl
  | single _ hypothesis => exact hypothesis rfl
  | program | noElsifs | moreElsifs | noOtherwise | otherwise | noParameters | emptyParameters
  | parameters | lastName | moreNames | lastArgument | moreArguments => cases front
  -- all others begin with a token of their own, whose kind is given
  | _ => simp_all [beginsStatement]

end Grammar

end Scriptlet
