/-
**Tokens**: symbols, reserved words, literals, names and the end of the input.

* `Symbol.all` lists longer symbols before their own beginnings, so the first that fits is the
  longest.
* `Keyword.ofText?`: a word is reserved only when it is spelled exactly so.
* `TokenKind.description`: how a kind is named in an error.
-/

import Scriptlet.Operator
import Scriptlet.Range

namespace Scriptlet

/-- A token made of punctuation. -/
inductive Symbol where
  | plus
  | minus
  | star
  | slash
  | percent
  | assign
  | equal
  | bang
  | notEqual
  | greater
  | greaterEqual
  | less
  | lessEqual
  | and
  | or
  | leftParen
  | rightParen
  | comma
  deriving DecidableEq

namespace Symbol

/-- The characters of a symbol. -/
def characters : Symbol → List Char
  | plus => ['+']
  | minus => ['-']
  | star => ['*']
  | slash => ['/']
  | percent => ['%']
  | assign => ['=']
  | equal => ['=', '=']
  | bang => ['!']
  | notEqual => ['!', '=']
  | greater => ['>']
  | greaterEqual => ['>', '=']
  | less => ['<']
  | lessEqual => ['<', '=']
  | and => ['&', '&']
  | or => ['|', '|']
  | leftParen => ['(']
  | rightParen => [')']
  | comma => [',']

/-- Every symbol, the longer ones first. -/
def all : List Symbol :=
  [equal, notEqual, greaterEqual, lessEqual, and, or, plus, minus, star, slash, percent, assign,
    bang, greater, less, leftParen, rightParen, comma]

/-- The operator that a symbol writes between two operands. -/
def binaryOperator? : Symbol → Option BinaryOperator
  | plus => some .add
  | minus => some .subtract
  | star => some .multiply
  | slash => some .divide
  | percent => some .modulo
  | equal => some .equal
  | notEqual => some .notEqual
  | greater => some .greater
  | greaterEqual => some .greaterEqual
  | less => some .less
  | lessEqual => some .lessEqual
  | and => some .and
  | or => some .or
  | assign | bang | leftParen | rightParen | comma => none

/-- The operator that a symbol writes in front of an operand. -/
def unaryOperator? : Symbol → Option UnaryOperator
  | minus => some .negate
  | bang => some .not
  | _ => none

end Symbol

/-- A reserved word. -/
inductive Keyword where
  | putsWord
  | ifWord
  | elsifWord
  | elseWord
  | endWord
  | whileWord
  | forWord
  | inWord
  | defWord
  | trueWord
  | falseWord
  deriving DecidableEq

namespace Keyword

/-- The characters of a reserved word. -/
def characters : Keyword → List Char
  | putsWord => ['p', 'u', 't', 's']
  | ifWord => ['i', 'f']
  | elsifWord => ['e', 'l', 's', 'i', 'f']
  | elseWord => ['e', 'l', 's', 'e']
  | endWord => ['e', 'n', 'd']
  | whileWord => ['w', 'h', 'i', 'l', 'e']
  | forWord => ['f', 'o', 'r']
  | inWord => ['i', 'n']
  | defWord => ['d', 'e', 'f']
  | trueWord => ['t', 'r', 'u', 'e']
  | falseWord => ['f', 'a', 'l', 's', 'e']

/-- Every reserved word. -/
def all : List Keyword :=
  [putsWord, ifWord, elsifWord, elseWord, endWord, whileWord, forWord, inWord, defWord, trueWord,
    falseWord]

/-- **The reserved word spelled by some characters**, if there is one. -/
def ofText? (text : List Char) : Option Keyword :=
  all.find? fun word => word.characters = text

end Keyword

/-- The kind of a token. -/
inductive TokenKind where
  | symbol (mark : Symbol)
  | keyword (word : Keyword)
  | number
  | text
  | range (kind : RangeKind)
  | identifier
  | endOfInput
  deriving DecidableEq

namespace TokenKind

/-- How a kind is named in an error: a fixed token by its quoted spelling. -/
def description : TokenKind → String
  | symbol mark => "'" ++ String.ofList mark.characters ++ "'"
  | keyword word => "'" ++ String.ofList word.characters ++ "'"
  | number => "number"
  | text => "string"
  | range _ => "range"
  | identifier => "identifier"
  | endOfInput => "end of input"

/-- The operator that a kind writes between two operands. -/
def binaryOperator? : TokenKind → Option BinaryOperator
  | symbol mark => mark.binaryOperator?
  | _ => none

/-- The operator that a kind writes in front of an operand. -/
def unaryOperator? : TokenKind → Option UnaryOperator
  | symbol mark => mark.unaryOperator?
  | _ => none

end TokenKind

/-- **A token**: its kind, its characters and the line it ends on. -/
structure Token where
  kind : TokenKind
  lexeme : String
  line : Nat
  deriving DecidableEq

/-- The token that follows all others. -/
def Token.endOfInput (line : Nat) : Token := ⟨.endOfInput, "", line⟩

end Scriptlet
