/-
**Values that are written down, read and printed.**

Texts, truth values and ranges have literals, and a literal is made of what the value is printed as.
Three places have a say in it: the scanner tells the kind of a token and where it ends, the parser
cuts the token once more at its quotes or dots, and the printed form puts dots between the bounds.
Here they are shown to agree.

* `PrintsLine`: a script writes one line and nothing else.
* `scan_word`, `scan_puts`: the tokens of a word, alone and behind `puts`.
* `Stands`: a word that is the literal of a value; `Stands.exists_parse`, `Stands.printsLine`:
  **such a word is read as an expression that always has this value, and `puts` prints it.**
* `Value.HasLiteral`, `Value.literal`: the values with a literal, and the literal.
* `Token.Decodes`: what the decoders do on the token of a literal.
* `literals_read_back`: **literals are read back as their values and are printed as such, and no
  scanned token is undecodable**, but for a range with a bound that is too large.
-/

import Mathlib.Algebra.Group.Nat.Defs
import Scriptlet.Proofs.Parser.Completeness
import Scriptlet.Script

namespace Scriptlet

/-! ### Scripts of one line -/

/-- **A script prints a line and nothing else.** Every sink is given the text and a newline, and
what a sink refuses is the only error. So a sink without a limit has them behind all it had. -/
structure PrintsLine (source text : String) : Prop where
  writes : ∀ fuel sink, 3 ≤ fuel →
    runScript fuel source sink =
      .finished (sink.writeLine text).1
        ((sink.writeLine text).2.map fun refusal => .runtime ⟨1, .output refusal⟩)
  unlimited : ∀ fuel sink, 3 ≤ fuel → sink.limit = none →
    runScript fuel source sink =
      .finished { sink with written := sink.written ++ (text ++ "\n").toUTF8.data } none

/-- An expression that has a value in every state, and leaves the state as it was. -/
def Expr.Constant (expression : Expr) (value : Value) : Prop :=
  ∀ fuel machine, evaluate (fuel + 1) expression machine = .done value machine

/-- **A script that is one print statement of a constant prints its value.** -/
theorem printsLine_of_parse {source : String} {tree : Expr} {value : Value}
    (parsed : parse source = .ok [.print 1 tree]) (constant : tree.Constant value) :
    PrintsLine source value.printed := by
  have writes : ∀ fuel sink, 3 ≤ fuel →
      runScript fuel source sink =
        .finished (sink.writeLine value.printed).1
          ((sink.writeLine value.printed).2.map fun refusal => .runtime ⟨1, .output refusal⟩) := by
    intro fuel sink enough
    obtain ⟨fuel, rfl⟩ := Nat.exists_eq_add_of_le' enough
    rw [runScript, parsed]
    show runProgram (fuel + 3) [.print 1 tree] sink = _
    rw [runProgram, interpret, runBlock, execute, constant fuel, Outcome.done_bind, Machine.print]
    have same : (Machine.start sink).sink = sink := rfl
    rw [same]
    rcases sink.writeLine value.printed with ⟨after, _ | refusal⟩ <;> rfl
  refine ⟨writes, fun fuel sink enough unlimited => ?_⟩
  rw [writes fuel sink enough, Sink.writeLine_unlimited unlimited]
  rfl

/-! ### The tokens of a word -/

/-- The token of a word that ends on a line. -/
def Word.tokenOn (word : Word) (line : Nat) : Token := ⟨word.kind, String.ofList word.text, line⟩

/-- The line on which a word ends, in a text that has no newline in front of it. -/
def Word.lastLine (word : Word) : Nat := 1 + word.text.count '\n'

section Scans

variable {word : Word}

/-- A word alone is one token. -/
theorem scan_word (spelled : word.Spelled) :
    scan (String.ofList word.text) =
      [.ok (word.tokenOn word.lastLine), .ok (.endOfInput word.lastLine)] := by
  have read := scanFrom_word .nothing spelled (show Parted [] from nofun) 1
  rw [List.nil_append, List.append_nil, scanFrom_nil] at read
  rw [scan, String.toList_ofList, read]
  rfl

/-- A word behind `puts` is the second token. -/
theorem scan_puts (spelled : word.Spelled) :
    scan ("puts " ++ String.ofList word.text) =
      [.ok ⟨.keyword .putsWord, "puts", 1⟩, .ok (word.tokenOn word.lastLine),
        .ok (.endOfInput word.lastLine)] := by
  have blank : Gap [' '] := .blank rfl .nothing
  have parted : Parted (' ' :: word.text) := by
    rintro character ⟨⟩
    rfl
  have front := scanFrom_word .nothing (Word.spelled_keyword .putsWord) parted 1
  have behind := scanFrom_word blank spelled (show Parted [] from nofun) 1
  rw [List.append_nil, scanFrom_nil] at behind
  have source : ("puts " ++ String.ofList word.text).toList =
      [] ++ (Word.keyword .putsWord).text ++ ' ' :: word.text := by
    rw [String.toList_append, String.toList_ofList]
    simp [Word.keyword, Keyword.characters]
  have newlines : ([' '] ++ word.text).count '\n' = word.text.count '\n' := by simp
  rw [newlines] at behind
  rw [scan, source, front]
  exact congrArg _ behind

end Scans

/-! ### Literals -/

/-- The kinds of the tokens that are values of their own. -/
def TokenKind.isLiteral : TokenKind → Bool
  | .number | .text | .range _ | .keyword .trueWord | .keyword .falseWord => true
  | _ => false

/-- **A word is the literal of a value**: it is spelled, and its token is read as an expression that
always has this value. -/
structure Stands (word : Word) (value : Value) : Prop where
  spelled : word.Spelled
  literal : word.kind.isLiteral
  reads : ∀ line, ∃ tree, Grammar.Derives .primary [word.tokenOn line] tree ∧ tree.Constant value

namespace Stands

open Scriptlet.Parser Scriptlet.Grammar

variable {word : Word} {value : Value}

/-- A statement that begins with a literal is an expression. -/
theorem statement_of_isLiteral {stream : Stream} (literal : stream.current.kind.isLiteral)
    (fuel : Nat) :
    statement (fuel + 1) stream =
      (expression fuel stream).map fun (value, after) =>
        (.expression stream.line value, after) := by
  obtain ⟨⟨kind, lexeme, line⟩, rest⟩ := stream
  have literal : kind.isLiteral := literal
  rw [statement]
  cases kind with
  | number | text | range => cases expression fuel _ <;> rfl
  | keyword word =>
    cases word with
    | trueWord | falseWord => cases expression fuel _ <;> rfl
    | _ => cases literal
  | _ => cases literal

theorem endsInput (line : Nat) : FollowsExpression (Token.endOfInput line).kind :=
  ⟨rfl, nofun, nofun⟩

/-- A literal at the end of the input is an expression. -/
theorem expression_at_end {token : Token} {tree : Expr} (derived : Derives .primary [token] tree)
    {fuel : Nat} (enough : 11 ≤ fuel) (line : Nat) :
    expression fuel ⟨token, [.ok (.endOfInput line)]⟩ = .ok (tree, ⟨.endOfInput line, []⟩) := by
  have whole : Derives .expression [token] tree :=
    derives_expression (show Derives (.operation (levelOf 6)) [token] tree from .single derived)
  exact readsAs_of_derives whole ⟨.endOfInput line, []⟩ fuel (endsInput line) enough

/-- **A literal alone is a program that has its value.** -/
theorem exists_parse (stands : Stands word value) :
    ∃ tree, parse (String.ofList word.text) = .ok [.expression word.lastLine tree] ∧
      tree.Constant value := by
  obtain ⟨tree, derived, constant⟩ := stands.reads word.lastLine
  refine ⟨tree, parse_eq_ok_iff.mpr
    ⟨⟨word.tokenOn word.lastLine, [.ok (.endOfInput word.lastLine)]⟩, ?_, ?_⟩, constant⟩
  · rw [Stream.ofSource, scan_word stands.spelled]
    rfl
  · have inside : (Stream.mk (word.tokenOn word.lastLine)
        [.ok (.endOfInput word.lastLine)]).atEnd = false := by
      exact decide_eq_false stands.spelled.1
    show program 24 _ = _
    rw [program, inside, if_neg Bool.false_ne_true, statement_of_isLiteral stands.literal,
      expression_at_end derived (by decide)]
    rfl

/-- **A literal behind `puts` is printed as its value is.** -/
theorem printsLine (stands : Stands word value) :
    PrintsLine ("puts " ++ String.ofList word.text) value.printed := by
  obtain ⟨tree, derived, constant⟩ := stands.reads word.lastLine
  refine printsLine_of_parse (parse_eq_ok_iff.mpr ⟨⟨⟨.keyword .putsWord, "puts", 1⟩,
    [.ok (word.tokenOn word.lastLine), .ok (.endOfInput word.lastLine)]⟩, ?_, ?_⟩) constant
  · rw [Stream.ofSource, scan_puts stands.spelled]
    rfl
  · show (statement 31 _ >>= _) = _
    rw [statement]
    show ((expression 30 ⟨word.tokenOn word.lastLine, [.ok (.endOfInput word.lastLine)]⟩ >>= _)
      >>= _) = _
    rw [expression_at_end derived (by decide)]
    rfl

end Stands

/-! ### Texts, truth values and ranges -/

namespace Value

/-- **The values with a literal**: texts without a quote, truth values, and ranges without a
negative bound. -/
def HasLiteral : Value → Prop
  | text contents => '"' ∉ contents.toList
  | boolean _ => True
  | range bounds => 0 ≤ bounds.first.toInt ∧ 0 ≤ bounds.last.toInt
  | _ => False

/-- **The literal of a value**: the printed form, with a text in quotes. -/
def literal : Value → String
  | text contents => "\"" ++ contents ++ "\""
  | other => other.printed

/-- **The literal of a value is a word that stands for the value.** -/
theorem exists_stands {value : Value} (literal : value.HasLiteral) :
    ∃ word : Word, String.ofList word.text = value.literal ∧ Stands word value := by
  cases value with
  | text contents =>
    have quoted : Quoted (Word.quoted contents).text contents.toList := ⟨literal, rfl⟩
    have again (line : Nat) : Quoted ((Word.quoted contents).tokenOn line).lexeme.toList
        contents.toList := by
      rw [Word.tokenOn, String.toList_ofList]
      exact quoted
    refine ⟨.quoted contents, ?_, ⟨by rintro ⟨⟩, _, quoted⟩, rfl,
      fun line => ⟨_, .text rfl (again line), fun fuel machine => ?_⟩⟩
    · apply String.toList_injective
      simp [Word.quoted, Value.literal]
    · rw [evaluate, String.ofList_toList]
  | boolean value =>
    cases value with
    | true =>
      exact ⟨.keyword .trueWord, rfl, Word.spelled_keyword .trueWord, rfl,
        fun _ => ⟨_, .yes rfl, fun _ _ => rfl⟩⟩
    | false =>
      exact ⟨.keyword .falseWord, rfl, Word.spelled_keyword .falseWord, rfl,
        fun _ => ⟨_, .no rfl, fun _ _ => rfl⟩⟩
  | range bounds =>
    have spelling := spelling_text literal.1 literal.2
    have again (line : Nat) :
        RangeSpelling ((Word.range bounds).tokenOn line).lexeme.toList bounds := by
      rw [Word.tokenOn, String.toList_ofList]
      exact spelling
    obtain ⟨first, last, dotted, -⟩ := spelling
    exact ⟨.range bounds, String.ofList_toList, ⟨by rintro ⟨⟩, first, last, dotted⟩, rfl,
      fun line => ⟨_, .range rfl (again line) rfl, fun _ _ => rfl⟩⟩
  | number | function | nil => exact literal.elim

end Value

/-! ### Tokens of literals -/

/-- **What the decoders do on the token of a literal.** -/
structure Token.Decodes (token : Token) : Prop where
  /-- The digits of a numeral are always a number. -/
  number : token.kind = .number →
    ∃ value, Numeral token.lexeme.toList value ∧ Parser.numberLiteral token = .ok value
  /-- The cut at the quotes is always one between characters. -/
  text : token.kind = .text →
    ∃ contents, Quoted token.lexeme.toList contents ∧
      Parser.slice? 1 (Parser.byteLength token.lexeme.toList - 1) token.lexeme.toList =
        some contents ∧
      Parser.textLiteral token = .ok (String.ofList contents)
  /-- The dots are always found, and the digits around them are the bounds unless they exceed the
  64-bit integers; this is the only way to fail. -/
  range : ∀ kind, token.kind = .range kind →
    ∃ first last, Dotted kind token.lexeme.toList first last ∧
      Parser.splitOnce? kind.dots token.lexeme.toList = some (first, last) ∧
      (Parser.rangeLiteral kind token =
          Parser.refuse token.line (.literalTooLarge token.lexeme) ↔
        2 ^ 63 - 1 < decimalValue first ∨ 2 ^ 63 - 1 < decimalValue last) ∧
      (decimalValue first ≤ 2 ^ 63 - 1 → decimalValue last ≤ 2 ^ 63 - 1 →
        ∃ bounds : Range, Parser.rangeLiteral kind token = .ok bounds ∧ bounds.kind = kind ∧
          bounds.first.toInt = decimalValue first ∧ bounds.last.toInt = decimalValue last)

namespace Parser

variable {kind : RangeKind} {token : Token} {digits first last : List Char}

theorem decodeBound?_eq_none_iff (run : IsDigits digits) :
    decodeBound? digits = none ↔ 2 ^ 63 - 1 < decimalValue digits := by
  unfold decodeBound?
  dsimp only
  rw [areDigits_iff.mpr run, Bool.true_and]
  by_cases fits : decimalValue digits < 2 ^ 63
  · rw [if_pos (decide_eq_true fits)]
    exact ⟨nofun, fun large => absurd fits (by omega)⟩
  · rw [if_neg (by simpa using fits)]
    exact ⟨fun _ => by omega, fun _ => rfl⟩

/-- Two bounds are no range exactly when one of them exceeds the 64-bit integers. -/
theorem decodeRange?_eq_none_iff (firstRun : IsDigits first) (lastRun : IsDigits last) :
    decodeRange? kind first last = none ↔
      2 ^ 63 - 1 < decimalValue first ∨ 2 ^ 63 - 1 < decimalValue last := by
  rw [← decodeBound?_eq_none_iff firstRun, ← decodeBound?_eq_none_iff lastRun, decodeRange?]
  cases decodeBound? first with
  | none => exact ⟨fun _ => .inl rfl, fun _ => rfl⟩
  | some lower =>
    rw [Option.bind_some, Option.map_eq_none_iff]
    exact ⟨.inr, fun none => none.resolve_left (Option.some_ne_none lower)⟩

/-- **A range is too large exactly when one of its bounds is.** -/
theorem rangeLiteral_eq_refuse_iff (dotted : Dotted kind token.lexeme.toList first last) :
    rangeLiteral kind token = refuse token.line (.literalTooLarge token.lexeme) ↔
      2 ^ 63 - 1 < decimalValue first ∨ 2 ^ 63 - 1 < decimalValue last := by
  rw [rangeLiteral_of_dotted dotted, ← decodeRange?_eq_none_iff dotted.1 dotted.2.1]
  cases decodeRange? kind first last with
  | none => exact ⟨fun _ => rfl, fun _ => rfl⟩
  | some bounds => exact ⟨nofun, nofun⟩

/-- **Any other range has the values of its digits as bounds.** -/
theorem exists_rangeLiteral (dotted : Dotted kind token.lexeme.toList first last)
    (low : decimalValue first ≤ 2 ^ 63 - 1) (high : decimalValue last ≤ 2 ^ 63 - 1) :
    ∃ bounds : Range, rangeLiteral kind token = .ok bounds ∧ bounds.kind = kind ∧
      bounds.first.toInt = decimalValue first ∧ bounds.last.toInt = decimalValue last := by
  have fits : decodeRange? kind first last ≠ none := by
    rw [ne_eq, decodeRange?_eq_none_iff dotted.1 dotted.2.1]
    omega
  obtain ⟨bounds, found⟩ := Option.ne_none_iff_exists'.mp fits
  refine ⟨bounds, ?_, (decodeRange?_eq_some_iff dotted.1 dotted.2.1).mp found⟩
  rw [rangeLiteral_of_dotted dotted, found]
  rfl

end Parser

/-- **A spelled token is decoded**, unless it is a range that is too large. -/
theorem Token.Spelled.decodes {token : Token} (spelled : token.Spelled) : token.Decodes := by
  constructor
  · intro literal
    rw [Token.Spelled, literal] at spelled
    obtain ⟨value, numeral⟩ := spelled
    exact ⟨value, numeral, Parser.numberLiteral_of_numeral numeral⟩
  · intro literal
    rw [Token.Spelled, literal] at spelled
    obtain ⟨contents, quoted⟩ := spelled
    exact ⟨contents, quoted, Parser.slice?_of_quoted quoted, Parser.textLiteral_of_quoted quoted⟩
  · intro kind literal
    rw [Token.Spelled, literal] at spelled
    obtain ⟨first, last, dotted⟩ := spelled
    exact ⟨first, last, dotted, Parser.splitOnce?_of_dotted dotted,
      Parser.rangeLiteral_eq_refuse_iff dotted, Parser.exists_rangeLiteral dotted⟩

/-- **Literals are read back and printed, and scanned literals are decoded.** The literal of a text
without a quote, of a truth value or of a range without a negative bound is a program whose value is
that value, whatever has been run before, and behind `puts` it prints the value's printed form on a
line. Wherever a literal is scanned, in whatever text, it is a number, or is cut out between its
quotes, or is the range between the digits around its dots, unless one of these exceeds the 64-bit
integers: then and only then it is refused as too large. -/
theorem literals_read_back :
    (∀ value : Value, value.HasLiteral →
      (∃ line tree, parse value.literal = .ok [.expression line tree] ∧ tree.Constant value) ∧
      PrintsLine ("puts " ++ value.literal) value.printed) ∧
    (∀ source token, .ok token ∈ scan source → token.Decodes) := by
  refine ⟨fun value literal => ?_, fun source token member =>
    ((scan_scanned source).spelled member).decodes⟩
  obtain ⟨word, same, stands⟩ := value.exists_stands literal
  obtain ⟨tree, parsed, constant⟩ := stands.exists_parse
  rw [← same]
  exact ⟨⟨word.lastLine, tree, parsed, constant⟩, stands.printsLine⟩

/-- A text of two bytes for each letter and a newline is printed as it is, and the largest bound
with zeros in front of it is still one. -/
theorem literals_read_back_edge :
    PrintsLine "puts \"äö\n\"" "äö\n" ∧
      Token.Decodes ⟨.range .exclusive, "00...09223372036854775807", 1⟩ :=
  ⟨(literals_read_back.1 (.text "äö\n") (by simp [Value.HasLiteral])).2,
    literals_read_back.2 "00...09223372036854775807" _ (by
      rw [show scan "00...09223372036854775807" =
        [.ok ⟨.range .exclusive, "00...09223372036854775807", 1⟩, .ok (.endOfInput 1)] by
          decide +kernel]
      exact List.mem_cons_self)⟩

end Scriptlet
