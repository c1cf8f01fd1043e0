/-
**Errors in the text of a program.**

* `ParseFault`: what is wrong, apart from where.
* `ParseError.message`: the line and the fault in words.
-/

import Scriptlet.Token

namespace Scriptlet

/-- What is wrong with a text. -/
inductive ParseFault where
  /-- No token begins with this character. -/
  | unexpectedCharacter (character : Char)
  /-- A string is not closed. -/
  | unterminatedText
  /-- No expression begins with this token. -/
  | unexpectedToken (lexeme : String)
  /-- Another kind of token must stand here. -/
  | expectedToken (kind : TokenKind) (found : String)
  /-- The input ends too early. -/
  | unexpectedEnd
  /-- Only a name can be assigned to. -/
  | invalidTarget
  /-- A bound of a range is beyond the 64-bit integers. -/
  | literalTooLarge (literal : String)
  deriving DecidableEq

/-- A fault in words. -/
def ParseFault.message : ParseFault → String
  | unexpectedCharacter character => "Unexpected character '" ++ character.toString ++ "'."
  | unterminatedText => "Unterminated string literal."
  | unexpectedToken lexeme => "Unexpected token: " ++ lexeme ++ "."
  | expectedToken kind found =>
    "Expected " ++ kind.description ++ " but found '" ++ found ++ "'."
  | unexpectedEnd => "Unexpected end of input."
  | invalidTarget => "Only identifiers can be assigned to."
  | literalTooLarge literal => "Literal " ++ literal ++ " is too large."

/-- The words in front of every fault. -/
def lineHeading (line : Nat) : String := "Error on line " ++ decimalText line ++ ": "

/-- **A fault and its line.** -/
structure ParseError where
  line : Nat
  fault : ParseFault
  deriving DecidableEq

/-- An error in words. -/
def ParseError.message (error : ParseError) : String :=
  lineHeading error.line ++ error.fault.message

end Scriptlet
