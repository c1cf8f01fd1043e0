/-
**Scanning**: the text of a program as tokens and faults.

At each place the longest token is taken. Blanks, newlines and comments stand between tokens; only
newlines count. A character at which nothing begins is a fault of its own and scanning goes on
behind it; an opening quote without a closing one ends the scan.

* `Lexeme.read?`: the longest token at the front of a text, with what follows it.
* `Lexeme.read?_append`: nothing is lost; `Lexeme.read?_text_ne_nil`: a token has a character.
* `scan`: all tokens and faults in order, the end of the input last; `scanFrom_lexeme` and its
  neighbours say what one step does.
-/

import Scriptlet.ParseError

namespace Scriptlet

/-- What stands at one place of the text: a token or a fault. -/
abbrev ScanResult := Except ParseError Token

-- A scan of a fixed text is compared with its results by computing both.
instance : DecidableEq ScanResult
  | .ok token, .ok other => decidable_of_iff (token = other) (by simp)
  | .error fault, .error other => decidable_of_iff (fault = other) (by simp)
  | .ok _, .error _ => .isFalse (by simp)
  | .error _, .ok _ => .isFalse (by simp)

/-- The characters that only separate tokens, newlines apart. -/
def isBlank (character : Char) : Bool :=
  character = ' ' || character = '\t' || character = '\r' || character = '\x0c'

/-- The characters that continue a word. -/
def isWordCharacter (character : Char) : Bool :=
  character.isAlpha || character.isDigit || character = '_'

/-- **A token at the front of a text**, and the text behind it. -/
structure Lexeme where
  kind : TokenKind
  text : List Char
  rest : List Char

namespace Lexeme

/-! ### Words -/

/-- The kind of a word: reserved, or a name. -/
def wordKind (word : List Char) : TokenKind :=
  match Keyword.ofText? word with
  | some keyword => .keyword keyword
  | none => .identifier

/-- The longest word at the front of a text that begins with a letter. -/
def readWord (source : List Char) : Lexeme :=
  let word := source.takeWhile isWordCharacter
  ⟨wordKind word, word, source.dropWhile isWordCharacter⟩

/-! ### Numbers and ranges -/

/-- Whether a digit stands in front. -/
def startsWithDigit : List Char → Bool
  | first :: _ => first.isDigit
  | [] => false

/-- A separator and the digits behind it, if at least one digit follows the separator. -/
def readDigitsAfter? (separator source : List Char) : Option (List Char × List Char) :=
  let behind := source.drop separator.length
  if separator.isPrefixOf source && startsWithDigit behind then
    some (separator ++ behind.takeWhile Char.isDigit, behind.dropWhile Char.isDigit)
  else
    none

/-- The kinds of token in which digits continue behind dots. -/
def dottedKinds : List (List Char × TokenKind) :=
  [(RangeKind.exclusive.dots, .range .exclusive), (RangeKind.inclusive.dots, .range .inclusive),
    (['.'], .number)]

/-- The longest number or range at the front of a text that begins with a digit. -/
def readNumeral (source : List Char) : Lexeme :=
  let whole := source.takeWhile Char.isDigit
  let behind := source.dropWhile Char.isDigit
  let dotted := dottedKinds.findSome? fun (separator, kind) =>
    (readDigitsAfter? separator behind).map fun (more, rest) => ⟨kind, whole ++ more, rest⟩
  dotted.getD ⟨.number, whole, behind⟩

/-! ### Strings and symbols -/

/-- A string at the front of a text that begins with a quote, if it is closed. -/
def readText? (source : List Char) : Option Lexeme :=
  let body := source.tail.takeWhile (· ≠ '"')
  match source.tail.dropWhile (· ≠ '"') with
  | quote :: rest => some ⟨.text, '"' :: body ++ [quote], rest⟩
  | [] => none

/-- The longest symbol at the front of a text. -/
def readSymbol? (source : List Char) : Option Lexeme :=
  (Symbol.all.find? fun symbol => symbol.characters.isPrefixOf source).map fun symbol =>
    ⟨.symbol symbol, symbol.characters, source.drop symbol.characters.length⟩

/-! ### Any token -/

/-- **The longest token at the front of a text.** -/
def read? : List Char → Option Lexeme
  | [] => none
  | first :: rest =>
    if first.isAlpha then some (readWord (first :: rest))
    else if first.isDigit then some (readNumeral (first :: rest))
    else if first = '"' then readText? (first :: rest)
    else readSymbol? (first :: rest)

/-- The line a token ends on, when it begins on the given line. -/
def lastLine (lexeme : Lexeme) (line : Nat) : Nat := line + lexeme.text.count '\n'

/-- The token of a lexeme. -/
def token (lexeme : Lexeme) (line : Nat) : Token :=
  ⟨lexeme.kind, String.ofList lexeme.text, lexeme.lastLine line⟩

/-! ### Nothing is lost -/

theorem readDigitsAfter?_append {separator source more rest : List Char}
    (found : readDigitsAfter? separator source = some (more, rest)) : more ++ rest = source := by
  simp only [readDigitsAfter?] at found
  split at found
  · next condition =>
    obtain ⟨rfl, rfl⟩ : separator ++ (source.drop separator.length).takeWhile Char.isDigit = more ∧
        (source.drop separator.length).dropWhile Char.isDigit = rest := by
      simpa using found
    have start : separator <+: source := by simp_all
    obtain ⟨behind, rfl⟩ := start
    simp [List.takeWhile_append_dropWhile]
  · cases found

/-- A number is read up to the end of its digits, or across one of the separators. -/
theorem readNumeral_cases (source : List Char) :
    readNumeral source =
        ⟨.number, source.takeWhile Char.isDigit, source.dropWhile Char.isDigit⟩ ∨
      ∃ separator kind more rest, (separator, kind) ∈ dottedKinds ∧
        readDigitsAfter? separator (source.dropWhile Char.isDigit) = some (more, rest) ∧
        readNumeral source = ⟨kind, source.takeWhile Char.isDigit ++ more, rest⟩ := by
  unfold readNumeral
  dsimp only
  cases dotted : dottedKinds.findSome? fun (separator, kind) =>
      (readDigitsAfter? separator (source.dropWhile Char.isDigit)).map fun (more, rest) =>
        (⟨kind, source.takeWhile Char.isDigit ++ more, rest⟩ : Lexeme) with
  | none => exact .inl rfl
  | some lexeme =>
    obtain ⟨⟨separator, kind⟩, listed, found⟩ := List.exists_of_findSome?_eq_some dotted
    obtain ⟨⟨more, rest⟩, digits, rfl⟩ := Option.map_eq_some_iff.mp found
    exact .inr ⟨separator, kind, more, rest, listed, digits, rfl⟩

theorem readNumeral_append (source : List Char) :
    (readNumeral source).text ++ (readNumeral source).rest = source := by
  rcases readNumeral_cases source with read | ⟨separator, kind, more, rest, -, digits, read⟩
  · rw [read]
    exact List.takeWhile_append_dropWhile
  · rw [read, List.append_assoc, readDigitsAfter?_append digits]
    exact List.takeWhile_append_dropWhile

/-- A string is read up to the next quote. -/
theorem exists_of_readText? {rest : List Char} {lexeme : Lexeme}
    (found : readText? ('"' :: rest) = some lexeme) :
    ∃ body behind, '"' ∉ body ∧ rest = body ++ '"' :: behind ∧
      lexeme = ⟨.text, '"' :: body ++ ['"'], behind⟩ := by
  have whole := List.takeWhile_append_dropWhile (p := fun character => decide (character ≠ '"'))
    (l := rest)
  have stopped := List.head?_dropWhile_not (fun character => decide (character ≠ '"')) rest
  have plain : '"' ∉ rest.takeWhile fun character => decide (character ≠ '"') := fun member => by
    simpa using List.all_eq_true.mp List.all_takeWhile _ member
  simp only [readText?, List.tail_cons] at found
  split at found
  · next quote behind split =>
    rw [split] at whole stopped
    obtain rfl : quote = '"' := by simpa using stopped
    cases found
    exact ⟨_, behind, plain, whole.symm, rfl⟩
  · cases found

theorem readText?_append {rest : List Char} {lexeme : Lexeme}
    (found : readText? ('"' :: rest) = some lexeme) : lexeme.text ++ lexeme.rest = '"' :: rest := by
  obtain ⟨body, behind, -, rfl, rfl⟩ := exists_of_readText? found
  simp

theorem readSymbol?_append {source : List Char} {lexeme : Lexeme}
    (found : readSymbol? source = some lexeme) : lexeme.text ++ lexeme.rest = source := by
  obtain ⟨symbol, first, rfl⟩ := Option.map_eq_some_iff.mp found
  have start : symbol.characters <+: source := by
    simpa using List.find?_some first
  obtain ⟨behind, rfl⟩ := start
  simp

/-- **A token and the text behind it make up the whole text.** -/
theorem read?_append {source : List Char} {lexeme : Lexeme}
    (found : read? source = some lexeme) : lexeme.text ++ lexeme.rest = source := by
  cases source with
  | nil => cases found
  | cons first rest =>
    simp only [read?] at found
    split at found
    · cases found
      simp [readWord, List.takeWhile_append_dropWhile]
    · split at found
      · cases found
        exact readNumeral_append _
      · split at found
        · next quote =>
          cases quote
          exact readText?_append found
        · exact readSymbol?_append found

/-! ### A token has a character -/

theorem readNumeral_text_ne_nil {first : Char} {rest : List Char} (digit : first.isDigit) :
    (readNumeral (first :: rest)).text ≠ [] := by
  rcases readNumeral_cases (first :: rest) with read | ⟨_, _, _, _, -, -, read⟩
  · simp [read, digit]
  · simp [read, digit]

theorem readSymbol?_text_ne_nil {source : List Char} {lexeme : Lexeme}
    (found : readSymbol? source = some lexeme) : lexeme.text ≠ [] := by
  obtain ⟨symbol, _, rfl⟩ := Option.map_eq_some_iff.mp found
  cases symbol <;> simp [Symbol.characters]

/-- **A token has at least one character.** -/
theorem read?_text_ne_nil {source : List Char} {lexeme : Lexeme}
    (found : read? source = some lexeme) : lexeme.text ≠ [] := by
  cases source with
  | nil => cases found
  | cons first rest =>
    simp only [read?] at found
    split at found
    · next letter =>
      cases found
      simp [readWord, isWordCharacter, letter]
    · split at found
      · next digit =>
        cases found
        exact readNumeral_text_ne_nil digit
      · split at found
        · simp only [readText?] at found
          split at found
          · cases found
            simp
          · cases found
        · exact readSymbol?_text_ne_nil found

/-- What is left behind a token is shorter. -/
theorem read?_rest_length {source : List Char} {lexeme : Lexeme}
    (found : read? source = some lexeme) : lexeme.rest.length < source.length := by
  have whole := congrArg List.length (read?_append found)
  have some := List.length_pos_iff.mpr (read?_text_ne_nil found)
  simp only [List.length_append] at whole
  omega

end Lexeme

/-- Scan a text that begins on the given line. -/
def scanFrom (line : Nat) (source : List Char) : List ScanResult :=
  match source with
  | [] => [.ok (.endOfInput line)]
  | first :: rest =>
    if first = '\n' then scanFrom (line + 1) rest
    else if isBlank first then scanFrom line rest
    else if first = '#' then scanFrom line (rest.dropWhile (· ≠ '\n'))
    else
      match found : Lexeme.read? (first :: rest) with
      | some lexeme =>
        have := Lexeme.read?_rest_length found
        .ok (lexeme.token line) :: scanFrom (lexeme.lastLine line) lexeme.rest
      | none =>
        if first = '"' then [.error ⟨line, .unterminatedText⟩, .ok (.endOfInput line)]
        else .error ⟨line, .unexpectedCharacter first⟩ :: scanFrom line rest
termination_by source.length
decreasing_by
  · simp
  · simp
  · have shorter := (List.dropWhile_suffix (l := rest) (· ≠ '\n')).length_le
    simp only [List.length_cons]
    omega
  · assumption
  · simp

/-! ### One step of a scan -/

section Steps

variable (line : Nat) {first : Char} {rest : List Char}

@[simp] theorem scanFrom_nil : scanFrom line [] = [.ok (.endOfInput line)] := by
  rw [scanFrom]

/-- A newline is counted. -/
@[simp] theorem scanFrom_newline : scanFrom line ('\n' :: rest) = scanFrom (line + 1) rest := by
  rw [scanFrom]
  simp

/-- A blank is skipped. -/
theorem scanFrom_blank (blank : isBlank first) :
    scanFrom line (first :: rest) = scanFrom line rest := by
  have visible : first ≠ '\n' := by
    rintro rfl
    exact absurd blank (by decide)
  rw [scanFrom]
  simp [visible, blank]

/-- A comment is skipped up to its newline. -/
theorem scanFrom_comment :
    scanFrom line ('#' :: rest) = scanFrom line (rest.dropWhile (· ≠ '\n')) := by
  rw [scanFrom]
  simp [isBlank]

/-- Nothing is read in front of a blank, a newline or a comment. -/
theorem Lexeme.separator_of_read? {lexeme : Lexeme}
    (found : Lexeme.read? (first :: rest) = some lexeme) :
    first ≠ '\n' ∧ isBlank first = false ∧ first ≠ '#' := by
  refine ⟨?_, ?_, ?_⟩
  · rintro rfl
    simp [Lexeme.read?, Lexeme.readSymbol?, Symbol.all, Symbol.characters] at found
  · cases blank : isBlank first with
    | false => rfl
    | true =>
      simp only [isBlank, Bool.or_eq_true, decide_eq_true_eq] at blank
      rcases blank with ((rfl | rfl) | rfl) | rfl <;>
        simp [Lexeme.read?, Lexeme.readSymbol?, Symbol.all, Symbol.characters] at found
  · rintro rfl
    simp [Lexeme.read?, Lexeme.readSymbol?, Symbol.all, Symbol.characters] at found

/-- A token is taken whole. -/
theorem scanFrom_lexeme {lexeme : Lexeme}
    (found : Lexeme.read? (first :: rest) = some lexeme) :
    scanFrom line (first :: rest) =
      .ok (lexeme.token line) :: scanFrom (lexeme.lastLine line) lexeme.rest := by
  obtain ⟨visible, solid, code⟩ := Lexeme.separator_of_read? found
  rw [scanFrom]
  simp only [visible, solid, code, if_false, Bool.false_eq_true]
  split
  · next other equal =>
    rw [found] at equal
    cases equal
    rfl
  · next nothing =>
    rw [found] at nothing
    cases nothing

/-- An opening quote without a closing one ends the scan. -/
theorem scanFrom_unterminated (unclosed : Lexeme.read? ('"' :: rest) = none) :
    scanFrom line ('"' :: rest) =
      [.error ⟨line, .unterminatedText⟩, .ok (.endOfInput line)] := by
  rw [scanFrom]
  simp only [show ('"' : Char) ≠ '\n' by decide, show isBlank '"' = false by decide,
    show ('"' : Char) ≠ '#' by decide, if_false, Bool.false_eq_true]
  split
  · next lexeme found =>
    rw [unclosed] at found
    cases found
  · rfl

/-- A character at which nothing begins is a fault of its own. -/
theorem scanFrom_unexpected (visible : first ≠ '\n') (solid : isBlank first = false)
    (code : first ≠ '#') (plain : first ≠ '"') (nothing : Lexeme.read? (first :: rest) = none) :
    scanFrom line (first :: rest) =
      .error ⟨line, .unexpectedCharacter first⟩ :: scanFrom line rest := by
  rw [scanFrom]
  simp only [visible, solid, code, if_false, Bool.false_eq_true]
  split
  · next lexeme found =>
    rw [nothing] at found
    cases found
  · simp [plain]

end Steps

/-- **All tokens and faults of a text**, the end of the input last. -/
def scan (source : String) : List ScanResult := scanFrom 1 source.toList

/-- The tokens before the first fault, and that fault. -/
def tokensBeforeFault : List ScanResult → List Token × Option ParseError
  | [] => ([], none)
  | .error fault :: _ => ([], some fault)
  | .ok token :: rest =>
    let (tokens, fault) := tokensBeforeFault rest
    (token :: tokens, fault)

end Scriptlet
