/-
**A text as separators, tokens and what is left.**

The token languages say which texts are tokens; here a scan is shown to cut every text along them.
At each place it takes the longest text that is a token of any kind, and it stops only where there
is no such text. The lines of tokens and faults are those of their places.

* `Lexeme.exists_read?_of_spells`: a token that stands at the front of a text is part of what is
  read there. So what is read is the longest (`Lexeme.prefix_of_read?`), and if nothing is read,
  nothing stands there (`Lexeme.not_prefix_of_read?`).
* `Separator`: blanks, newlines and comments, where a comment goes on to the end of its line.
* `Piece.Placed`: what is said of a token at its place; `Ending`: what is said of the place where
  the tokens end.
* `scan_decomposes`: **every text is cut into placed tokens and an ending.**
-/

import Scriptlet.Proofs.Token.Layout

namespace Scriptlet

/-- **The texts of tokens**, whatever their kind. -/
def IsTokenText (text : List Char) : Prop :=
  ∃ kind : TokenKind, kind ≠ .endOfInput ∧ kind.Spells text

/-! ### The longest token -/

namespace Lexeme

variable {text rest : List Char}

theorem exists_read?_word (shape : IsWord text) (rest : List Char) :
    ∃ lexeme, read? (text ++ rest) = some lexeme ∧ text <+: lexeme.text := by
  rcases text with _ | ⟨first, others⟩
  · exact shape.elim
  · have letter : first.isAlpha := shape.1
    have inside : ∀ character ∈ first :: others, isWordCharacter character := by
      intro character member
      rcases List.mem_cons.mp member with rfl | member
      · simp [isWordCharacter, letter]
      · exact shape.2 character member
    refine ⟨readWord (first :: others ++ rest), ?_, ?_⟩
    · rw [List.cons_append, read?, if_pos letter]
    · rw [readWord, List.takeWhile_append_of_pos inside]
      exact List.prefix_append ..

theorem exists_read?_whole (run : IsDigits text) (rest : List Char) :
    ∃ lexeme, read? (text ++ rest) = some lexeme ∧ text <+: lexeme.text := by
  refine ⟨_, read?_digits run rest, ?_⟩
  have digits : text <+: (text ++ rest).takeWhile Char.isDigit := by
    rw [List.takeWhile_append_of_pos run.2]
    exact List.prefix_append ..
  rcases readNumeral_cases (text ++ rest) with read | ⟨_, _, _, _, -, -, read⟩
  · rw [read]
    exact digits
  · rw [read]
    exact digits.trans (List.prefix_append ..)

theorem exists_read?_dotted {kind : TokenKind} {digits dots more : List Char}
    (listed : (dots, kind) ∈ dottedKinds) (run : IsDigits digits) (behind : IsDigits more)
    (rest : List Char) :
    ∃ lexeme, read? (digits ++ dots ++ more ++ rest) = some lexeme ∧
      digits ++ dots ++ more <+: lexeme.text := by
  have read := readNumeral_dots listed run (startsWithDigit_append behind rest)
  have source : digits ++ dots ++ more ++ rest = digits ++ (dots ++ (more ++ rest)) := by simp
  rw [source, read?_digits run, read]
  refine ⟨_, rfl, ?_⟩
  rw [List.takeWhile_append_of_pos behind.2]
  exact ⟨rest.takeWhile Char.isDigit, by simp⟩

/-- A symbol at the front is read, or a longer one that begins with it. -/
theorem exists_read?_symbol (mark : Symbol) (rest : List Char) :
    ∃ lexeme, read? (mark.characters ++ rest) = some lexeme ∧ mark.characters <+: lexeme.text := by
  -- only an equality sign can make a symbol longer
  cases longer : ['='].isPrefixOf rest with
  | false =>
    refine ⟨⟨.symbol mark, mark.characters, rest⟩, ?_, List.prefix_refl _⟩
    cases mark <;> simp [read?, readSymbol?, Symbol.all, Symbol.characters, longer]
  | true =>
    cases mark <;> simp [read?, readSymbol?, Symbol.all, Symbol.characters, longer]

/-- **A token at the front of a text is part of what is read there.** -/
theorem exists_read?_of_spells (token : IsTokenText text) (rest : List Char) :
    ∃ lexeme, read? (text ++ rest) = some lexeme ∧ text <+: lexeme.text := by
  obtain ⟨kind, inside, spelled⟩ := token
  match kind, spelled with
  | .symbol mark, spelled =>
    obtain rfl : text = mark.characters := spelled
    exact exists_read?_symbol mark rest
  | .keyword word, spelled =>
    obtain rfl : text = word.characters := spelled
    exact exists_read?_word (isWord_keyword word) rest
  | .number, spelled =>
    obtain ⟨value, numeral⟩ := spelled
    rcases numeral with @⟨digits, run⟩ | @⟨digits, decimals, run, behind⟩
    · exact exists_read?_whole run rest
    · have listed : (['.'], TokenKind.number) ∈ dottedKinds := by simp [dottedKinds]
      have read := exists_read?_dotted listed run behind rest
      simpa using read
  | .text, spelled =>
    obtain ⟨contents, quoted⟩ := spelled
    exact ⟨_, read?_quoted quoted rest, List.prefix_refl _⟩
  | .range kind, spelled =>
    obtain ⟨first, last, firstRun, lastRun, rfl⟩ := spelled
    have listed : (kind.dots, TokenKind.range kind) ∈ dottedKinds := by
      rcases kind <;> simp [dottedKinds]
    exact exists_read?_dotted listed firstRun lastRun rest
  | .identifier, spelled => exact exists_read?_word spelled.1 rest
  | .endOfInput, _ => exact absurd rfl inside

theorem isTokenText_of_read? {source : List Char} {lexeme : Lexeme}
    (found : read? source = some lexeme) : IsTokenText lexeme.text :=
  ⟨lexeme.kind, kind_ne_endOfInput found, spells_of_read? found⟩

/-- **What is read is the longest token at the front of a text.** -/
theorem prefix_of_read? {source : List Char} {lexeme : Lexeme}
    (found : read? source = some lexeme) (token : IsTokenText text) (front : text <+: source) :
    text <+: lexeme.text := by
  obtain ⟨behind, rfl⟩ := front
  obtain ⟨other, read, longer⟩ := exists_read?_of_spells token behind
  obtain rfl : lexeme = other := Option.some.inj (found.symm.trans read)
  exact longer

/-- Where nothing is read, no token stands at the front. -/
theorem not_prefix_of_read? {source : List Char} (nothing : read? source = none)
    (token : IsTokenText text) : ¬ text <+: source := by
  rintro ⟨behind, rfl⟩
  obtain ⟨lexeme, read, -⟩ := exists_read?_of_spells token behind
  rw [nothing] at read
  cases read

/-- A text is a token of one kind at most. -/
theorem kind_unique {kind other : TokenKind} (inside : kind ≠ .endOfInput)
    (otherInside : other ≠ .endOfInput) (spelled : kind.Spells text)
    (again : other.Spells text) : kind = other := by
  have parted : Parted [] := nofun
  have first := read?_of_spells spelled inside parted
  have second := read?_of_spells again otherInside parted
  exact congrArg Lexeme.kind (Option.some.inj (first.symm.trans second))

end Lexeme

/-! ### Separators -/

/-- **What may stand in front of a text and is no token**: blanks, newlines and comments, each of
them up to a newline or to the end. -/
inductive Separator : List Char → List Char → Prop
  | nothing {behind : List Char} : Separator [] behind
  | blank {first : Char} {rest behind : List Char} (blank : isBlank first)
      (later : Separator rest behind) : Separator (first :: rest) behind
  | newline {rest behind : List Char} (later : Separator rest behind) :
      Separator ('\n' :: rest) behind
  | comment {body rest behind : List Char} (oneLine : '\n' ∉ body)
      (whole : ∀ character ∈ (rest ++ behind).head?, character = '\n')
      (later : Separator rest behind) : Separator ('#' :: body ++ rest) behind

/-- No newline stands in front of the first one. -/
theorem not_mem_takeWhile_newline (rest : List Char) : '\n' ∉ rest.takeWhile (· ≠ '\n') := by
  intro member
  simpa using List.all_eq_true.mp List.all_takeWhile _ member

/-- A comment goes on up to a newline or to the end of the text. -/
theorem exists_comment (line : Nat) (rest : List Char) :
    ∃ body behind, rest = body ++ behind ∧ '\n' ∉ body ∧
      (∀ character ∈ behind.head?, character = '\n') ∧
      scanFrom line ('#' :: rest) = scanFrom line behind := by
  refine ⟨rest.takeWhile (· ≠ '\n'), rest.dropWhile (· ≠ '\n'),
    List.takeWhile_append_dropWhile.symm, not_mem_takeWhile_newline rest, ?_,
    scanFrom_comment line⟩
  intro character member
  have stopped := List.head?_dropWhile_not (fun character => decide (character ≠ '\n')) rest
  rw [Option.mem_def.mp member] at stopped
  simpa using stopped

/-- **A scan skips a separator**, counts its newlines and comes to a character that begins none. -/
theorem exists_separator (line : Nat) : (source : List Char) →
    ∃ separator behind, source = separator ++ behind ∧ Separator separator behind ∧
      (∀ character ∈ behind.head?, isSeparator character = false) ∧
      scanFrom line source = scanFrom (line + separator.count '\n') behind
  | [] => ⟨[], [], rfl, .nothing, nofun, rfl⟩
  | first :: rest => by
    by_cases newline : first = '\n'
    · subst newline
      obtain ⟨separator, behind, rfl, later, solid, scanned⟩ := exists_separator (line + 1) rest
      refine ⟨'\n' :: separator, behind, rfl, .newline later, solid, ?_⟩
      rw [scanFrom_newline, scanned, List.count_cons_self, Nat.add_assoc, Nat.add_comm 1]
    by_cases blank : isBlank first
    · obtain ⟨separator, behind, rfl, later, solid, scanned⟩ := exists_separator line rest
      refine ⟨first :: separator, behind, rfl, .blank blank later, solid, ?_⟩
      rw [scanFrom_blank line blank, scanned, List.count_cons_of_ne newline]
    by_cases comment : first = '#'
    · subst comment
      obtain ⟨body, others, rfl, oneLine, whole, skipped⟩ := exists_comment line rest
      obtain ⟨separator, behind, rfl, later, solid, scanned⟩ := exists_separator line others
      refine ⟨'#' :: body ++ separator, behind, by simp, .comment oneLine whole later, solid, ?_⟩
      have uncounted : ('#' :: body).count '\n' = 0 :=
        List.count_eq_zero_of_not_mem (by simpa using oneLine)
      rw [skipped, scanned, List.count_append, uncounted, Nat.zero_add]
    · refine ⟨[], first :: rest, rfl, .nothing, ?_, rfl⟩
      rintro character ⟨⟩
      simp [isSeparator, newline, blank, comment]
termination_by source => source.length

/-! ### Pieces and endings -/

/-- **A token with the separator in front of it.** -/
structure Piece where
  separator : List Char
  token : Token

namespace Piece

/-- The characters of a piece. -/
def text (piece : Piece) : List Char := piece.separator ++ piece.token.lexeme.toList

/-- The characters of pieces in order. -/
def texts (pieces : List Piece) : List Char := pieces.flatMap text

@[simp] theorem texts_cons (piece : Piece) (pieces : List Piece) :
    texts (piece :: pieces) = piece.text ++ texts pieces := rfl

/-- **A piece is in place** between what stands before it, from the given line on, and what stands
behind it. -/
structure Placed (line : Nat) (before : List Char) (piece : Piece) (behind : List Char) :
    Prop where
  /-- Nothing but a separator is skipped. -/
  separator : Separator piece.separator (piece.token.lexeme.toList ++ behind)
  /-- The token is a text of its kind. -/
  spelled : piece.token.Spelled
  inside : piece.token.kind ≠ .endOfInput
  /-- The reserved words, and no other texts, have kinds of their own. -/
  reserved : ∀ word : Keyword,
    piece.token.kind = .keyword word ↔ piece.token.lexeme.toList = word.characters
  /-- No longer text at this place is a token of any kind. -/
  longest : ∀ text, IsTokenText text → text <+: piece.token.lexeme.toList ++ behind →
    text <+: piece.token.lexeme.toList
  /-- The line of the token is the line it ends on. -/
  line : piece.token.line = line + (before ++ piece.text).count '\n'

/-- What is read at the front of a text is in place there. -/
theorem placed_of_read? {line : Nat} {separator source : List Char} {lexeme : Lexeme}
    (skipped : Separator separator source) (found : Lexeme.read? source = some lexeme) :
    Placed line [] ⟨separator, lexeme.token (line + separator.count '\n')⟩ lexeme.rest := by
  have text : (lexeme.token (line + separator.count '\n')).lexeme.toList = lexeme.text := by
    simp [Lexeme.token]
  have whole := Lexeme.read?_append found
  have inside := Lexeme.kind_ne_endOfInput found
  refine ⟨?_, lexeme.spelled_token _ found, inside, ?_, ?_, ?_⟩
  · rwa [text, whole]
  · intro word
    rw [text]
    constructor
    · intro keyword
      have spelled := Lexeme.spells_of_read? found
      rw [show lexeme.kind = .keyword word from keyword] at spelled
      exact spelled
    · intro same
      exact Lexeme.kind_unique inside (by simp) (Lexeme.spells_of_read? found) same
  · intro other token front
    rw [text] at front ⊢
    rw [whole] at front
    exact Lexeme.prefix_of_read? found token front
  · rw [Piece.text, text, List.nil_append, List.count_append, ← Nat.add_assoc]
    rfl

/-- A piece stays in place when more stands in front of all. -/
theorem Placed.behind {line : Nat} {front before behind : List Char} {piece : Piece}
    (placed : Placed (line + front.count '\n') before piece behind) :
    Placed line (front ++ before) piece behind := by
  refine { placed with line := ?_ }
  simp only [placed.line, List.count_append, Nat.add_assoc]

end Piece

/-- **Where the tokens of a text end**: at its end, at a quote that is not closed, or at a character
with which nothing begins. The line is the one of this place. -/
inductive Ending (line : Nat) : List Char → List ScanResult → Prop
  | complete : Ending line [] [.ok (.endOfInput line)]
  | unclosed {behind : List Char} {later : List ScanResult} (single : '"' ∉ behind) :
      Ending line ('"' :: behind) (.error ⟨line, .unterminatedText⟩ :: later)
  | unexpected {first : Char} {behind : List Char} {later : List ScanResult}
      (noToken : ∀ text, IsTokenText text → ¬ text <+: first :: behind)
      (noSeparator : isSeparator first = false) (noText : first ≠ '"') :
      Ending line (first :: behind) (.error ⟨line, .unexpectedCharacter first⟩ :: later)

/-- A quote at which nothing is read is not closed. -/
theorem Lexeme.not_mem_of_read? {rest : List Char} (nothing : Lexeme.read? ('"' :: rest) = none) :
    '"' ∉ rest := by
  intro closed
  obtain ⟨contents, behind, rfl, plain⟩ := List.eq_append_cons_of_mem closed
  have token : IsTokenText ('"' :: contents ++ ['"']) := ⟨.text, by simp, contents, plain, rfl⟩
  exact Lexeme.not_prefix_of_read? nothing token ⟨behind, by simp⟩

/-- What a scan comes to behind a separator, if no token stands there. -/
theorem ending_of_read? {line : Nat} {rest : List Char}
    (solid : ∀ character ∈ rest.head?, isSeparator character = false)
    (nothing : Lexeme.read? rest = none) : Ending line rest (scanFrom line rest) := by
  rcases rest with _ | ⟨first, behind⟩
  · rw [scanFrom_nil]
    exact .complete
  · have plain : isSeparator first = false := solid first rfl
    by_cases quote : first = '"'
    · subst quote
      rw [scanFrom_unterminated line nothing]
      exact .unclosed (Lexeme.not_mem_of_read? nothing)
    · simp only [isSeparator, Bool.or_eq_false_iff, decide_eq_false_iff_not] at plain
      rw [scanFrom_unexpected line plain.1.2 plain.1.1 plain.2 quote nothing]
      exact .unexpected (fun _ token => Lexeme.not_prefix_of_read? nothing token)
        (solid first rfl) quote

/-- The pieces and the ending of a text that begins on the given line. -/
theorem scanFrom_decomposes (line : Nat) (source : List Char) :
    ∃ pieces separator rest ending, source = Piece.texts pieces ++ separator ++ rest ∧
      (∀ before piece behind, pieces = before ++ piece :: behind →
        piece.Placed line (Piece.texts before) (Piece.texts behind ++ separator ++ rest)) ∧
      Separator separator rest ∧
      scanFrom line source = pieces.map (.ok ·.token) ++ ending ∧
      Ending (line + (Piece.texts pieces ++ separator).count '\n') rest ending := by
  obtain ⟨gap, text, rfl, skipped, solid, scanned⟩ := exists_separator line source
  rw [scanned]
  cases found : Lexeme.read? text with
  | none => exact ⟨[], gap, text, _, rfl, by simp, skipped, rfl, ending_of_read? solid found⟩
  | some lexeme =>
    have shorter := Lexeme.read?_rest_length found
    obtain ⟨pieces, separator, rest, ending, split, later, last, continued, ended⟩ :=
      scanFrom_decomposes (lexeme.lastLine (line + gap.count '\n')) lexeme.rest
    obtain ⟨piece, same⟩ : ∃ piece : Piece, piece = ⟨gap, lexeme.token (line + gap.count '\n')⟩ :=
      ⟨_, rfl⟩
    have characters : piece.text = gap ++ lexeme.text := by
      simp [same, Piece.text, Lexeme.token]
    have reached : lexeme.lastLine (line + gap.count '\n') = line + piece.text.count '\n' := by
      rw [characters, List.count_append, ← Nat.add_assoc]
      rfl
    rw [reached] at later ended
    refine ⟨piece :: pieces, separator, rest, ending, ?_, ?_, last, ?_, ?_⟩
    · rw [Piece.texts_cons, characters, ← Lexeme.read?_append found, split]
      simp
    · intro before other behind listed
      rcases before with _ | ⟨front, before⟩
      · obtain ⟨rfl, rfl⟩ := List.cons.inj listed
        rw [← split, same]
        exact Piece.placed_of_read? skipped found
      · obtain ⟨rfl, rfl⟩ := List.cons.inj listed
        exact (later before other behind rfl).behind
    · obtain ⟨first, others, rfl⟩ : ∃ first others, text = first :: others :=
        List.exists_cons_of_ne_nil fun empty => by simp [empty, Lexeme.read?] at found
      rw [scanFrom_lexeme _ found, continued, List.map_cons, same, List.cons_append]
    · rw [Piece.texts_cons, List.append_assoc, List.count_append, ← Nat.add_assoc]
      exact ended
termination_by source.length
decreasing_by simp_all; omega

/-- **Every text is cut into tokens, separators and what is left.** The tokens of a scan, up to the
end of the input or to the first fault, stand in the text in order, with nothing but separators
around them; each is spelled as its kind says, is the longest token of any kind at its place, and
has the line on which it ends. If there is no fault, nothing is left and the end of the input has
the last line. Otherwise what is left begins with a quote that is never closed or with a character
that begins no token, no separator and no string, and the fault says which, on the line of that
character. -/
theorem scan_decomposes (source : String) :
    ∃ pieces separator rest, source.toList = Piece.texts pieces ++ separator ++ rest ∧
      (∀ before piece behind, pieces = before ++ piece :: behind →
        piece.Placed 1 (Piece.texts before) (Piece.texts behind ++ separator ++ rest)) ∧
      Separator separator rest ∧
      ∃ ending, scan source = pieces.map (.ok ·.token) ++ ending ∧
        ((rest = [] ∧ ending = [.ok (.endOfInput (1 + source.toList.count '\n'))]) ∨
          ∃ first behind later fault, rest = first :: behind ∧
            ending = .error ⟨1 + (Piece.texts pieces ++ separator).count '\n', fault⟩ :: later ∧
            ((first = '"' ∧ '"' ∉ behind ∧ fault = .unterminatedText) ∨
              (first ≠ '"' ∧ isSeparator first = false ∧
                (∀ text, IsTokenText text → ¬ text <+: rest) ∧
                fault = .unexpectedCharacter first))) := by
  obtain ⟨pieces, separator, rest, ending, split, placed, last, scanned, ended⟩ :=
    scanFrom_decomposes 1 source.toList
  refine ⟨pieces, separator, rest, split, placed, last, ending, scanned, ?_⟩
  cases ended with
  | complete =>
    rw [split, List.append_nil]
    exact .inl ⟨rfl, rfl⟩
  | @unclosed behind later single =>
    exact .inr ⟨'"', behind, later, _, rfl, rfl, .inl ⟨rfl, single, rfl⟩⟩
  | @unexpected first behind later noToken noSeparator noText =>
    exact .inr ⟨first, behind, later, _, rfl, rfl, .inr ⟨noText, noSeparator, noToken, rfl⟩⟩

end Scriptlet
