/-
**A stream of tokens**: the token in front and what follows it.

The end of the input repeats for ever. A fault is met when the token before it is consumed.

* `Stream.ofSource`: the stream of a text, unless the text begins with a fault.
* `Stream.advance`, `Stream.accept`, `Stream.expect`: consume the token in front.
* `Cursor`: a stream that remembers the last consumed token, and can step back over it once.
-/

import Scriptlet.Token.Scan

namespace Scriptlet

/-- **The token in front and what follows it.** -/
structure Stream where
  current : Token
  rest : List ScanResult

namespace Stream

/-- The stream of scanned results, unless the first of them is a fault. -/
def ofResults : List ScanResult → Except ParseError Stream
  | .ok token :: rest => .ok ⟨token, rest⟩
  | .error error :: _ => .error error
  | [] => .ok ⟨.endOfInput 1, []⟩

/-- **The stream of a text.** -/
def ofSource (source : String) : Except ParseError Stream := ofResults (scan source)

/-- The line of the token in front. -/
def line (stream : Stream) : Nat := stream.current.line

/-- Whether the token in front has the given kind. -/
def check (stream : Stream) (kind : TokenKind) : Bool := stream.current.kind = kind

/-- Whether only the end of the input is left. -/
def atEnd (stream : Stream) : Bool := stream.check .endOfInput

/-- **Consume the token in front**, whatever it is. -/
def advance (stream : Stream) : Except ParseError (Token × Stream) :=
  match stream.rest with
  | [] => .ok (stream.current, stream)
  | .ok next :: rest => .ok (stream.current, ⟨next, rest⟩)
  | .error error :: _ => .error error

/-- Consume the token in front if it has the given kind. -/
def accept (stream : Stream) (kind : TokenKind) : Except ParseError (Option Stream) :=
  if stream.check kind then stream.advance.map fun (_, next) => some next
  else .ok none

/-- The error of a stream at which the given kind is missing. -/
def missing (stream : Stream) (kind : TokenKind) : ParseError :=
  if stream.atEnd then ⟨stream.line, .unexpectedEnd⟩
  else ⟨stream.line, .expectedToken kind stream.current.lexeme⟩

/-- Consume the token in front, which must have the given kind. -/
def expect (stream : Stream) (kind : TokenKind) : Except ParseError (Token × Stream) :=
  if stream.check kind then stream.advance
  else .error (stream.missing kind)

end Stream

/-- **A stream that can step back once.** -/
structure Cursor where
  /-- The token in front, and the results that have not been looked at. -/
  stream : Stream
  /-- The token consumed last, unless it was taken back. -/
  previous : Option Token
  /-- The token that stood in front before the step back; it comes before all other results. -/
  pending : Option Token

namespace Cursor

/-- The cursor at the beginning of a text. -/
def ofSource (source : String) : Except ParseError Cursor :=
  (Stream.ofSource source).map fun stream => ⟨stream, none, none⟩

/-- The same results behind another token. -/
def withFront (cursor : Cursor) (token : Token) : Stream :=
  { cursor.stream with current := token }

/-- The next result of the scan is dropped. -/
def skipFault (cursor : Cursor) : Cursor :=
  { cursor with stream := { cursor.stream with rest := cursor.stream.rest.tail } }

/-- **Consume the token in front**; a pending token comes next. A fault behind it is reported and
dropped, and nothing is consumed. -/
def advance (cursor : Cursor) : Except ParseError Token × Cursor :=
  match cursor.pending with
  | some next =>
    (.ok cursor.stream.current, ⟨cursor.withFront next, some cursor.stream.current, none⟩)
  | none =>
    match cursor.stream.advance with
    | .ok (token, stream) => (.ok token, ⟨stream, some token, none⟩)
    | .error error => (.error error, cursor.skipFault)

/-- **Step back** over the last consumed token; refused when there is none. -/
def rewind (cursor : Cursor) : Bool × Cursor :=
  match cursor.previous with
  | none => (false, cursor)
  | some token => (true, ⟨cursor.withFront token, none, some cursor.stream.current⟩)

/-- Consume the token in front if it has the given kind, and tell whether it had. -/
def accept (cursor : Cursor) (kind : TokenKind) : Except ParseError Bool × Cursor :=
  if cursor.stream.check kind then
    let (result, next) := cursor.advance
    (result.map fun _ => true, next)
  else
    (.ok false, cursor)

/-- Consume the token in front, which must have the given kind. -/
def expect (cursor : Cursor) (kind : TokenKind) : Except ParseError Token × Cursor :=
  if cursor.stream.check kind then cursor.advance
  else (.error (cursor.stream.missing kind), cursor)

end Cursor

end Scriptlet
