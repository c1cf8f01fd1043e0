/-
**Printing programs** as words.

Every expression stands in parentheses, except for the range behind which a loop runs and the name
on the left of an assignment; a function has its list of parameters even when it is empty.
Newlines do not separate statements, and nothing but these parentheses keeps two of them apart.

A number has many numerals, so printing takes a choice of one of them, line by line.

* `Expr.words`, `Stmt.words`, `Stmt.wordsAll`: the words of a tree.
* `Stmt.Expressible`, `Stmt.ExpressibleAll`: the trees that the language can express.
* `Stmt.spelled_wordsAll`: **the words of an expressible tree are spelled by their kinds.**
-/

import Scriptlet.Proofs.Token.Layout

namespace Scriptlet

/-! ### Words -/

/-- The symbol that writes an operator between two operands. -/
def BinaryOperator.symbol : BinaryOperator → Symbol
  | add => .plus
  | subtract => .minus
  | multiply => .star
  | divide => .slash
  | modulo => .percent
  | less => .less
  | greater => .greater
  | lessEqual => .lessEqual
  | greaterEqual => .greaterEqual
  | equal => .equal
  | notEqual => .notEqual
  | and => .and
  | or => .or

/-- The symbol that writes an operator in front of an operand. -/
def UnaryOperator.symbol : UnaryOperator → Symbol
  | negate => .minus
  | not => .bang

namespace Word

def symbol (mark : Symbol) : Word := ⟨.symbol mark, mark.characters⟩

def keyword (word : Keyword) : Word := ⟨.keyword word, word.characters⟩

def name (name : String) : Word := ⟨.identifier, name.toList⟩

def quoted (contents : String) : Word := ⟨.text, '"' :: contents.toList ++ ['"']⟩

def boolean (value : Bool) : Word := keyword (if value then .trueWord else .falseWord)

def range (range : Range) : Word := ⟨.range range.kind, range.text.toList⟩

end Word

/-- Words in parentheses. -/
def enclosed (words : List Word) : List Word :=
  .symbol .leftParen :: words ++ [.symbol .rightParen]

/-- A list in parentheses, with commas between its items. -/
def listed (items : List (List Word)) : List Word :=
  enclosed (List.intercalate [.symbol .comma] items)

/-! ### Words of trees -/

section Words

variable (numeral : Nat → Number → List Char)

mutual

/-- **The words of an expression**, without parentheses around all of it. -/
def Expr.words : Expr → List Word
  | .number line value => [⟨.number, numeral line value⟩]
  | .text _ value => [.quoted value]
  | .boolean _ value => [.boolean value]
  | .range _ value => [.range value]
  | .identifier _ name => [.name name]
  | .unary _ operator operand => .symbol operator.symbol :: enclosed operand.words
  | .binary _ operator left right =>
    enclosed left.words ++ .symbol operator.symbol :: enclosed right.words
  | .call _ name arguments => .name name :: listed (Expr.wordsEach arguments)
  | .assign _ name value => .name name :: .symbol .assign :: enclosed value.words

/-- The words of each expression, in parentheses. -/
def Expr.wordsEach : List Expr → List (List Word)
  | [] => []
  | first :: rest => enclosed first.words :: Expr.wordsEach rest

end

mutual

/-- **The words of a statement.** -/
def Stmt.words : Stmt → List Word
  | .print _ value => .keyword .putsWord :: enclosed (value.words numeral)
  | .conditional _ branches => Branch.wordsAll .ifWord branches ++ [.keyword .endWord]
  | .whileLoop _ condition body =>
    .keyword .whileWord :: enclosed (condition.words numeral) ++ Stmt.wordsAll body ++
      [.keyword .endWord]
  | .forLoop _ name iterand body =>
    .keyword .forWord :: .name name :: .keyword .inWord :: iterand.words numeral ++
      Stmt.wordsAll body ++ [.keyword .endWord]
  | .define _ name parameters body =>
    .keyword .defWord :: .name name :: listed (parameters.map fun parameter => [.name parameter]) ++
      Stmt.wordsAll body ++ [.keyword .endWord]
  | .expression _ value => enclosed (value.words numeral)

/-- The words of statements, one behind the other. -/
def Stmt.wordsAll : List Stmt → List Word
  | [] => []
  | first :: rest => first.words ++ Stmt.wordsAll rest

/-- The words of branches, the first of which is opened by the given word. -/
def Branch.wordsAll (opening : Keyword) : List Branch → List Word
  | [] => []
  | .guarded condition body :: rest =>
    .keyword opening :: enclosed (condition.words numeral) ++ Stmt.wordsAll body ++
      Branch.wordsAll .elsifWord rest

end

/-! ### Trees that can be expressed -/

/-- A name that is a word and not reserved. -/
def IsName (name : String) : Prop := TokenKind.identifier.Spells name.toList

theorem isName_iff {name : String} :
    IsName name ↔ IsWord name.toList ∧ ∀ word ∈ Keyword.all, name.toList ≠ word.characters :=
  and_congr_right fun _ => ⟨fun free word _ => free word, fun free word => free word word.mem_all⟩

instance (name : String) : Decidable (IsName name) := decidable_of_iff _ isName_iff.symm

mutual

/-- **An expression that the language can express.** -/
def Expr.Expressible : Expr → Prop
  | .number line value => Numeral (numeral line value) value
  | .text _ value => '"' ∉ value.toList
  | .boolean _ _ => True
  | .range _ value => 0 ≤ value.first.toInt ∧ 0 ≤ value.last.toInt
  | .identifier _ name => IsName name
  | .unary _ _ operand => operand.Expressible
  | .binary _ _ left right => left.Expressible ∧ right.Expressible
  | .call _ name arguments => IsName name ∧ Expr.ExpressibleAll arguments
  | .assign _ name value => IsName name ∧ value.Expressible

def Expr.ExpressibleAll : List Expr → Prop
  | [] => True
  | first :: rest => first.Expressible ∧ Expr.ExpressibleAll rest

end

mutual

/-- **A statement that the language can express**: a conditional has a branch, and a loop runs over
a range. -/
def Stmt.Expressible : Stmt → Prop
  | .print _ value => value.Expressible numeral
  | .conditional _ branches => branches ≠ [] ∧ Branch.ExpressibleAll branches
  | .whileLoop _ condition body => condition.Expressible numeral ∧ Stmt.ExpressibleAll body
  | .forLoop _ name iterand body =>
    IsName name ∧ (∃ line range, iterand = .range line range) ∧ iterand.Expressible numeral ∧
      Stmt.ExpressibleAll body
  | .define _ name parameters body =>
    IsName name ∧ (∀ parameter ∈ parameters, IsName parameter) ∧ Stmt.ExpressibleAll body
  | .expression _ value => value.Expressible numeral

def Stmt.ExpressibleAll : List Stmt → Prop
  | [] => True
  | first :: rest => first.Expressible ∧ Stmt.ExpressibleAll rest

def Branch.ExpressibleAll : List Branch → Prop
  | [] => True
  | .guarded condition body :: rest =>
    condition.Expressible numeral ∧ Stmt.ExpressibleAll body ∧ Branch.ExpressibleAll rest

end

end Words

/-! ### Ranges -/

/-- The decimal digits of a number read back as that number. -/
theorem decimalText_digits (value : Nat) :
    IsDigits (decimalText value).toList ∧ decimalValue (decimalText value).toList = value := by
  have digits : (decimalText value).toList = Nat.toDigits 10 value := Nat.toList_repr
  rw [digits]
  refine ⟨⟨Nat.toDigits_ne_nil, fun character member => ?_⟩, ?_⟩
  · exact Nat.isDigit_of_mem_toDigits (by decide) (by decide) member
  · exact Nat.ofDigitChars_toDigits (by decide) (by decide)

/-- The digits of a bound that is not negative. -/
theorem integerText_digits {integer : Int} (positive : 0 ≤ integer) :
    IsDigits (integerText integer).toList ∧
      integer = decimalValue (integerText integer).toList := by
  obtain ⟨run, value⟩ := decimalText_digits integer.natAbs
  rw [integerText, if_neg (by omega)]
  refine ⟨run, ?_⟩
  rw [value]
  omega

/-- **A range is spelled as it is printed**, if its bounds are not negative. -/
theorem spelling_text {range : Range} (first : 0 ≤ range.first.toInt)
    (last : 0 ≤ range.last.toInt) : RangeSpelling range.text.toList range := by
  obtain ⟨firstRun, low⟩ := integerText_digits first
  obtain ⟨lastRun, high⟩ := integerText_digits last
  refine ⟨_, _, ⟨firstRun, lastRun, ?_⟩, low, high⟩
  simp [Range.text]

/-! ### Spelled words -/

/-- Words that are all spelled by their kinds. -/
def AllSpelled (words : List Word) : Prop := ∀ word ∈ words, word.Spelled

@[simp] theorem allSpelled_nil : AllSpelled [] := by simp [AllSpelled]

@[simp] theorem allSpelled_cons {word : Word} {words : List Word} :
    AllSpelled (word :: words) ↔ word.Spelled ∧ AllSpelled words := by
  simp [AllSpelled]

@[simp] theorem allSpelled_append {words others : List Word} :
    AllSpelled (words ++ others) ↔ AllSpelled words ∧ AllSpelled others := by
  simp [AllSpelled, or_imp, forall_and]

namespace Word

@[simp] theorem spelled_symbol (mark : Symbol) : (symbol mark).Spelled := ⟨nofun, rfl⟩

@[simp] theorem spelled_keyword (word : Keyword) : (keyword word).Spelled := ⟨nofun, rfl⟩

theorem spelled_name {text : String} (isName : IsName text) : (name text).Spelled := ⟨nofun, isName⟩

end Word

@[simp] theorem allSpelled_enclosed {words : List Word} :
    AllSpelled (enclosed words) ↔ AllSpelled words := by
  simp [enclosed]

/-- Commas and parentheses are always spelled. -/
theorem allSpelled_listed : ∀ {items : List (List Word)},
    (∀ item ∈ items, AllSpelled item) → AllSpelled (listed items)
  | [], _ => by simp [listed]
  | [only], spelled => by simpa [listed] using spelled
  | first :: second :: rest, spelled => by
    have later : AllSpelled (listed (second :: rest)) :=
      allSpelled_listed fun item member => spelled item (List.mem_cons_of_mem _ member)
    have front : AllSpelled first := spelled first List.mem_cons_self
    simp only [listed, allSpelled_enclosed] at later ⊢
    simpa [front] using later

section Spelling

variable {numeral : Nat → Number → List Char}

mutual

theorem Expr.spelled_words : (tree : Expr) → tree.Expressible numeral →
    AllSpelled (tree.words numeral)
  | .number line value, expressible => by
    have spelled : Numeral (numeral line value) value := expressible
    simpa [Expr.words] using ⟨nofun, value, spelled⟩
  | .text _ value, expressible => by
    have spelled : Quoted ('"' :: value.toList ++ ['"']) value.toList := ⟨expressible, rfl⟩
    simpa [Expr.words] using ⟨nofun, value.toList, spelled⟩
  | .boolean _ value, _ => by simp [Expr.words, Word.boolean]
  | .range _ value, expressible => by
    obtain ⟨first, last, dotted, _⟩ := spelling_text expressible.1 expressible.2
    simpa [Expr.words] using ⟨nofun, first, last, dotted⟩
  | .identifier _ name, expressible => by simpa [Expr.words] using Word.spelled_name expressible
  | .unary _ operator operand, expressible => by
    have spelled := operand.spelled_words expressible
    simpa [Expr.words] using spelled
  | .binary _ operator left right, expressible => by
    have leftSpelled := left.spelled_words expressible.1
    have rightSpelled := right.spelled_words expressible.2
    simp [Expr.words, leftSpelled, rightSpelled]
  | .call _ name arguments, expressible => by
    have spelled := Expr.spelled_wordsEach arguments expressible.2
    simpa [Expr.words, Word.spelled_name expressible.1] using allSpelled_listed spelled
  | .assign _ name value, expressible => by
    have spelled := value.spelled_words expressible.2
    simpa [Expr.words, Word.spelled_name expressible.1] using spelled

theorem Expr.spelled_wordsEach : (trees : List Expr) → Expr.ExpressibleAll numeral trees →
    ∀ item ∈ Expr.wordsEach numeral trees, AllSpelled item
  | [], _ => by simp [Expr.wordsEach]
  | first :: rest, expressible => by
    have front := first.spelled_words expressible.1
    have later := Expr.spelled_wordsEach rest expressible.2
    simpa [Expr.wordsEach, front] using later

end

mutual

theorem Stmt.spelled_words : (tree : Stmt) → tree.Expressible numeral →
    AllSpelled (tree.words numeral)
  | .print _ value, expressible => by
    have spelled := value.spelled_words expressible
    simpa [Stmt.words] using spelled
  | .conditional _ branches, expressible => by
    have spelled := Branch.spelled_wordsAll .ifWord branches expressible.2
    simpa [Stmt.words] using spelled
  | .whileLoop _ condition body, expressible => by
    have front := condition.spelled_words expressible.1
    have inside := Stmt.spelled_wordsAll body expressible.2
    simp [Stmt.words, front, inside]
  | .forLoop _ name iterand body, ⟨named, _, iterated, expressible⟩ => by
    have front := iterand.spelled_words iterated
    have inside := Stmt.spelled_wordsAll body expressible
    simp [Stmt.words, Word.spelled_name named, front, inside]
  | .define _ name parameters body, ⟨named, parametersNamed, expressible⟩ => by
    have inside := Stmt.spelled_wordsAll body expressible
    have front : AllSpelled (listed (parameters.map fun parameter => [.name parameter])) := by
      refine allSpelled_listed fun item member => ?_
      obtain ⟨parameter, isParameter, rfl⟩ := List.mem_map.mp member
      simpa using Word.spelled_name (parametersNamed parameter isParameter)
    simp [Stmt.words, Word.spelled_name named, front, inside]
  | .expression _ value, expressible => by
    have spelled := value.spelled_words expressible
    simpa [Stmt.words] using spelled

/-- **The words of expressible statements are spelled by their kinds.** -/
theorem Stmt.spelled_wordsAll : (trees : List Stmt) → Stmt.ExpressibleAll numeral trees →
    AllSpelled (Stmt.wordsAll numeral trees)
  | [], _ => by simp [Stmt.wordsAll]
  | first :: rest, expressible => by
    have front := first.spelled_words expressible.1
    have later := Stmt.spelled_wordsAll rest expressible.2
    simp [Stmt.wordsAll, front, later]

theorem Branch.spelled_wordsAll (opening : Keyword) : (trees : List Branch) →
    Branch.ExpressibleAll numeral trees → AllSpelled (Branch.wordsAll numeral opening trees)
  | [], _ => by simp [Branch.wordsAll]
  | .guarded condition body :: rest, ⟨guarded, inside, others⟩ => by
    have front := condition.spelled_words guarded
    have middle := Stmt.spelled_wordsAll body inside
    have later := Branch.spelled_wordsAll .elsifWord rest others
    simp [Branch.wordsAll, front, middle, later]

end

end Spelling

end Scriptlet
