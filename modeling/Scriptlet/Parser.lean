/-
**From tokens to syntax trees.**

A recursive descent with one token in front. Binary operators are read by their precedence, those of
one level from left to right; an assignment is read from right to left, and its target is judged
when its value has been read. Every function takes a bound on the depth of its own recursion;
`parse` supplies one that grows with the text.

* `Parser.expression`, `Parser.statement`, `Parser.block`, `Parser.program`;
* `parse`: the program of a text, or the first error.
-/

import Scriptlet.Token.Stream
import Scriptlet.Tree

namespace Scriptlet

open scoped Powers

namespace Parser

/-- Why a parser stops without a result. -/
inductive Stop where
  /-- The text is not a program. -/
  | refused (error : ParseError)
  /-- The bound on the recursion is used up. -/
  | exhausted

/-- An error of the stream stops the parser. -/
def orStop {α : Type} : Except ParseError α → Except Stop α
  | .ok value => .ok value
  | .error error => .error (.refused error)

/-- Stop with a fault on a line. -/
def refuse {α : Type} (line : Nat) (fault : ParseFault) : Except Stop α :=
  .error (.refused ⟨line, fault⟩)

/-- Go on with what was found, or stop with a fault on a line. -/
def orRefuse {α : Type} (line : Nat) (fault : ParseFault) : Option α → Except Stop α
  | some value => .ok value
  | none => refuse line fault

/-! ### Literals -/

/-- How many bytes some characters take. -/
def byteLength : List Char → Nat
  | [] => 0
  | character :: rest => character.utf8Size + byteLength rest

/-- Some characters in two parts, the first one of a number of bytes; none if that many bytes end
inside of a character or there are fewer. -/
def splitBytes? : (size : Nat) → List Char → Option (List Char × List Char)
  | 0, text => some ([], text)
  | _ + 1, [] => none
  | size + 1, first :: rest =>
    if first.utf8Size ≤ size + 1 then
      (splitBytes? (size + 1 - first.utf8Size) rest).map (Prod.map (first :: ·) id)
    else
      none

/-- **The characters between two byte positions**, if these are in order and stand between
characters. -/
def slice? (start stop : Nat) (text : List Char) : Option (List Char) :=
  if start ≤ stop then
    (splitBytes? start text).bind fun parts => (splitBytes? (stop - start) parts.2).map Prod.fst
  else
    none

/-- Some characters in two parts, around the first place where a separator stands. -/
def splitOnce? (separator : List Char) : List Char → Option (List Char × List Char)
  | [] => if separator = [] then some ([], []) else none
  | first :: rest =>
    if separator.isPrefixOf (first :: rest) then
      some ([], (first :: rest).drop separator.length)
    else
      (splitOnce? separator rest).map (Prod.map (first :: ·) id)

/-- Whether some characters are one or more digits. -/
def areDigits (text : List Char) : Bool := !text.isEmpty && text.all Char.isDigit

/-- **The number of a numeral**, rounded once: of digits, or of digits with decimals behind a
point. -/
def decodeNumber? (lexeme : String) : Option Number :=
  let whole := lexeme.toList.takeWhile Char.isDigit
  match lexeme.toList.dropWhile Char.isDigit with
  | [] => if areDigits whole then some (.ofDecimal (decimalValue whole) 0) else none
  | point :: decimals =>
    if areDigits whole && point = '.' && areDigits decimals then
      some (.ofDecimal (decimalValue (whole ++ decimals)) decimals.length)
    else
      none

/-- **The text between the quotes**: a quote is one byte long. -/
def decodeText? (lexeme : String) : Option String :=
  (slice? 1 (byteLength lexeme.toList - 1) lexeme.toList).map String.ofList

/-- A bound of a range, if it is a 64-bit integer in digits. -/
def decodeBound? (digits : List Char) : Option Int64 :=
  let value := decimalValue digits
  if areDigits digits && value < 2 ^ (63 : Nat) then some (.ofNat value) else none

/-- The range between two bounds, unless one of them is too large. -/
def decodeRange? (kind : RangeKind) (first last : List Char) : Option Range :=
  (decodeBound? first).bind fun first => (decodeBound? last).map fun last => ⟨kind, first, last⟩

/-- **The number of a token.** -/
def numberLiteral (token : Token) : Except Stop Number :=
  orRefuse token.line (.unexpectedToken token.lexeme) (decodeNumber? token.lexeme)

/-- The contents of a token in quotes. -/
def textLiteral (token : Token) : Except Stop String :=
  orRefuse token.line (.unexpectedToken token.lexeme) (decodeText? token.lexeme)

/-- **The range of a token** of the given kind: its bounds stand around the dots. -/
def rangeLiteral (kind : RangeKind) (token : Token) : Except Stop Range := do
  let (first, last) ← orRefuse token.line (.unexpectedToken token.lexeme)
    (splitOnce? kind.dots token.lexeme.toList)
  orRefuse token.line (.literalTooLarge token.lexeme) (decodeRange? kind first last)

/-! ### Names and ranges -/

/-- A name. -/
def identifier (stream : Stream) : Except Stop (String × Stream) := do
  let (token, stream) ← orStop (stream.expect .identifier)
  return (token.lexeme, stream)

/-- The range behind which a loop runs; any other token is refused. -/
def rangeToken (stream : Stream) : Except Stop (Expr × Stream) :=
  match stream.current.kind with
  | .range kind => do
    let (token, stream) ← orStop stream.advance
    let range ← rangeLiteral kind token
    return (.range token.line range, stream)
  | _ => .error (.refused (stream.missing (.range .inclusive)))

/-- The rest of a list of names, up to the closing parenthesis. -/
def namesUntilClosed : Nat → Stream → Except Stop (List String × Stream)
  | 0, _ => .error .exhausted
  | fuel + 1, stream => do
    let (name, stream) ← identifier stream
    match ← orStop (stream.accept (.symbol .comma)) with
    | some stream =>
      let (names, stream) ← namesUntilClosed fuel stream
      return (name :: names, stream)
    | none =>
      let (_, stream) ← orStop (stream.expect (.symbol .rightParen))
      return ([name], stream)

/-- The parameters of a function: none without an opening parenthesis. -/
def parameters (fuel : Nat) (stream : Stream) : Except Stop (List String × Stream) := do
  match ← orStop (stream.accept (.symbol .leftParen)) with
  | none => return ([], stream)
  | some stream =>
    match ← orStop (stream.accept (.symbol .rightParen)) with
    | some stream => return ([], stream)
    | none => namesUntilClosed fuel stream

/-! ### Expressions -/

/-- The operator in front, if it binds at least as tightly as the given level. -/
def operatorFrom? (level : Nat) (stream : Stream) : Option BinaryOperator :=
  stream.current.kind.binaryOperator?.filter fun operator => level ≤ operator.precedence

/-- An assignment to a target that was read as an expression. -/
def assignTo (target value : Expr) : Except Stop Expr :=
  match target with
  | .identifier line name => .ok (.assign line name value)
  | other => refuse other.line .invalidTarget

mutual

/-- **An expression**: an assignment or an operation. -/
def expression : Nat → Stream → Except Stop (Expr × Stream)
  | 0, _ => .error .exhausted
  | fuel + 1, stream => do
    let (target, stream) ← operation fuel 0 stream
    match ← orStop (stream.accept (.symbol .assign)) with
    | none => return (target, stream)
    | some stream =>
      let (value, stream) ← expression fuel stream
      let assignment ← assignTo target value
      return (assignment, stream)

/-- An operation whose operators bind at least as tightly as the given level. -/
def operation : Nat → Nat → Stream → Except Stop (Expr × Stream)
  | 0, _, _ => .error .exhausted
  | fuel + 1, level, stream => do
    let (left, stream) ← operand fuel stream
    operations fuel level left stream

/-- Further operators of the given level or a tighter one, behind a left operand. -/
def operations : Nat → Nat → Expr → Stream → Except Stop (Expr × Stream)
  | 0, _, _, _ => .error .exhausted
  | fuel + 1, level, left, stream =>
    match operatorFrom? level stream with
    | none => .ok (left, stream)
    | some operator => do
      let (token, stream) ← orStop stream.advance
      let (right, stream) ← operation fuel (operator.precedence + 1) stream
      operations fuel level (.binary token.line operator left right) stream

/-- An operand: operators in front of a primary expression. -/
def operand : Nat → Stream → Except Stop (Expr × Stream)
  | 0, _ => .error .exhausted
  | fuel + 1, stream =>
    match stream.current.kind.unaryOperator? with
    | some operator => do
      let (token, stream) ← orStop stream.advance
      let (value, stream) ← operand fuel stream
      return (.unary token.line operator value, stream)
    | none => primary fuel stream

/-- A literal, a name, a call or an expression in parentheses. -/
def primary : Nat → Stream → Except Stop (Expr × Stream)
  | 0, _ => .error .exhausted
  | fuel + 1, stream => do
    let (token, stream) ← orStop stream.advance
    match token.kind with
    | .number =>
      let value ← numberLiteral token
      return (.number token.line value, stream)
    | .text =>
      let contents ← textLiteral token
      return (.text token.line contents, stream)
    | .range kind =>
      let range ← rangeLiteral kind token
      return (.range token.line range, stream)
    | .keyword .trueWord => return (.boolean token.line true, stream)
    | .keyword .falseWord => return (.boolean token.line false, stream)
    | .identifier =>
      match ← orStop (stream.accept (.symbol .leftParen)) with
      | none => return (.identifier token.line token.lexeme, stream)
      | some stream =>
        let (arguments, stream) ← arguments fuel stream
        return (.call token.line token.lexeme arguments, stream)
    | .symbol .leftParen =>
      let (value, stream) ← expression fuel stream
      let (_, stream) ← orStop (stream.expect (.symbol .rightParen))
      return (value, stream)
    | .endOfInput => refuse token.line .unexpectedEnd
    | _ => refuse token.line (.unexpectedToken token.lexeme)

/-- The arguments of a call, behind its opening parenthesis. -/
def arguments : Nat → Stream → Except Stop (List Expr × Stream)
  | 0, _ => .error .exhausted
  | fuel + 1, stream => do
    match ← orStop (stream.accept (.symbol .rightParen)) with
    | some stream => return ([], stream)
    | none => argumentsUntilClosed fuel stream

/-- The rest of a list of arguments, up to the closing parenthesis. -/
def argumentsUntilClosed : Nat → Stream → Except Stop (List Expr × Stream)
  | 0, _ => .error .exhausted
  | fuel + 1, stream => do
    let (value, stream) ← expression fuel stream
    match ← orStop (stream.accept (.symbol .comma)) with
    | some stream =>
      let (values, stream) ← argumentsUntilClosed fuel stream
      return (value :: values, stream)
    | none =>
      let (_, stream) ← orStop (stream.expect (.symbol .rightParen))
      return ([value], stream)

end

/-! ### Statements -/

/-- The words that end the body of a branch. -/
def branchEnds : List Keyword := [.elsifWord, .elseWord, .endWord]

/-- Whether one of the given words stands in front. -/
def endsBlock (ends : List Keyword) (stream : Stream) : Bool :=
  ends.any fun word => stream.check (.keyword word)

mutual

/-- **A statement**, told by its first token. -/
def statement : Nat → Stream → Except Stop (Stmt × Stream)
  | 0, _ => .error .exhausted
  | fuel + 1, stream =>
    let line := stream.line
    match stream.current.kind with
    | .keyword .putsWord => do
      let (_, stream) ← orStop stream.advance
      let (value, stream) ← expression fuel stream
      return (.print line value, stream)
    | .keyword .ifWord => do
      let (_, stream) ← orStop stream.advance
      let (branches, stream) ← branches fuel stream
      return (.conditional line branches, stream)
    | .keyword .whileWord => do
      let (_, stream) ← orStop stream.advance
      let (condition, stream) ← expression fuel stream
      let (body, stream) ← closedBlock fuel stream
      return (.whileLoop line condition body, stream)
    | .keyword .forWord => do
      let (_, stream) ← orStop stream.advance
      let (name, stream) ← identifier stream
      let (_, stream) ← orStop (stream.expect (.keyword .inWord))
      let (iterand, stream) ← rangeToken stream
      let (body, stream) ← closedBlock fuel stream
      return (.forLoop line name iterand body, stream)
    | .keyword .defWord => do
      let (_, stream) ← orStop stream.advance
      let (name, stream) ← identifier stream
      let (parameters, stream) ← parameters fuel stream
      let (body, stream) ← closedBlock fuel stream
      return (.define line name parameters body, stream)
    | _ => do
      let (value, stream) ← expression fuel stream
      return (.expression line value, stream)

/-- The statements in front of one of the given words. -/
def block : Nat → List Keyword → Stream → Except Stop (List Stmt × Stream)
  | 0, _, _ => .error .exhausted
  | fuel + 1, ends, stream =>
    if endsBlock ends stream then .ok ([], stream)
    else if stream.atEnd then refuse stream.line .unexpectedEnd
    else do
      let (first, stream) ← statement fuel stream
      let (rest, stream) ← block fuel ends stream
      return (first :: rest, stream)

/-- The statements up to the word that closes them. -/
def closedBlock : Nat → Stream → Except Stop (List Stmt × Stream)
  | 0, _ => .error .exhausted
  | fuel + 1, stream => do
    let (body, stream) ← block fuel [.endWord] stream
    let (_, stream) ← orStop (stream.expect (.keyword .endWord))
    return (body, stream)

/-- The branches of a conditional from a condition on; the last one may have no condition of its
own and is then always taken. -/
def branches : Nat → Stream → Except Stop (List Branch × Stream)
  | 0, _ => .error .exhausted
  | fuel + 1, stream => do
    let (condition, stream) ← expression fuel stream
    let (body, stream) ← block fuel branchEnds stream
    let (others, stream) ← otherBranches fuel stream
    return (.guarded condition body :: others, stream)

/-- The branches behind the first one, and the word that closes the conditional. -/
def otherBranches : Nat → Stream → Except Stop (List Branch × Stream)
  | 0, _ => .error .exhausted
  | fuel + 1, stream => do
    match ← orStop (stream.accept (.keyword .elsifWord)) with
    | some stream => branches fuel stream
    | none =>
      match ← orStop (stream.accept (.keyword .elseWord)) with
      | some behind =>
        let (body, behind) ← closedBlock fuel behind
        return ([.guarded (.boolean stream.line true) body], behind)
      | none =>
        let (_, stream) ← orStop (stream.expect (.keyword .endWord))
        return ([], stream)

end

/-- All statements up to the end of the input. -/
def program : Nat → Stream → Except Stop Program
  | 0, _ => .error .exhausted
  | fuel + 1, stream =>
    if stream.atEnd then .ok []
    else do
      let (first, stream) ← statement fuel stream
      let rest ← program fuel stream
      return first :: rest

/-- A bound on the recursion that suffices for a stream: each token is read at a bounded depth. -/
def budget (stream : Stream) : Nat := 8 * (stream.rest.length + 2)

end Parser

/-- **The program of a text**, or the first error in it. -/
def parse (source : String) : Except ParseError Program := do
  let stream ← Stream.ofSource source
  match Parser.program (Parser.budget stream) stream with
  | .ok program => .ok program
  | .error (.refused error) => .error error
  | .error .exhausted => .error ⟨stream.line, .unexpectedEnd⟩

/-- A text is parsed if it has a stream whose statements are read within the bound. -/
theorem parse_eq_ok_iff {source : String} {trees : Program} :
    parse source = .ok trees ↔
      ∃ stream, Stream.ofSource source = .ok stream ∧
        Parser.program (Parser.budget stream) stream = .ok trees := by
  unfold parse
  cases Stream.ofSource source with
  | error error =>
    constructor
    · nofun
    · rintro ⟨_, ⟨⟩, _⟩
  | ok stream =>
    have same : (∃ begun, Except.ok (ε := ParseError) stream = .ok begun ∧
        Parser.program (Parser.budget begun) begun = .ok trees) ↔
          Parser.program (Parser.budget stream) stream = .ok trees := by
      simp
    rw [same]
    change (match Parser.program (Parser.budget stream) stream with
      | .ok program => Except.ok program
      | .error (.refused error) => .error error
      | .error .exhausted => .error ⟨stream.line, .unexpectedEnd⟩) = .ok trees ↔ _
    rcases Parser.program (Parser.budget stream) stream with (error | _) | program
    · exact ⟨nofun, nofun⟩
    · exact ⟨nofun, nofun⟩
    · exact ⟨fun accepted => congrArg _ (Except.ok.inj accepted),
        fun read => congrArg _ (Except.ok.inj read)⟩

end Scriptlet
