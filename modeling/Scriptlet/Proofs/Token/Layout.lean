/-
**Layout of a text**: words with gaps between them, and how they are scanned.

* `Gap`: blanks, newlines and comments with their newlines, in any order, or nothing.
* `Written words text`: the text holds the words in order, gaps around them, and some gap between
  any two of them.
* `Lexeme.read?_of_spells`: a spelled word in front of a separator is read whole, and no more;
  `scanFrom_word`: so it is scanned behind any gap.
* `scanFrom_written`: **a written text scans to its words**, whatever the gaps are.
-/

import Scriptlet.Proofs.Lines
import Scriptlet.Proofs.Token.Spelling

namespace Scriptlet

/-- **A word of a text**: the kind of a token and its characters. -/
structure Word where
  kind : TokenKind
  text : List Char

namespace Word

/-- A word that its kind allows. -/
def Spelled (word : Word) : Prop := word.kind ≠ .endOfInput ∧ word.kind.Spells word.text

/-- The token of a word, with no line of its own. -/
def token (word : Word) : Token := ⟨word.kind, String.ofList word.text, 0⟩

end Word

/-! ### Gaps -/

/-- The characters with which a gap may begin. -/
def isSeparator (character : Char) : Bool :=
  isBlank character || character = '\n' || character = '#'

/-- **What may stand between two words**, or nothing. -/
inductive Gap : List Char → Prop
  | nothing : Gap []
  | blank {first : Char} {rest : List Char} (blank : isBlank first) (later : Gap rest) :
      Gap (first :: rest)
  | newline {rest : List Char} (later : Gap rest) : Gap ('\n' :: rest)
  | comment {body rest : List Char} (oneLine : '\n' ∉ body) (later : Gap rest) :
      Gap ('#' :: body ++ '\n' :: rest)

/-- A text that does not continue the word in front of it. -/
def Parted (text : List Char) : Prop := ∀ character ∈ text.head?, isSeparator character

/-- **A text of words with gaps**; only the first and the last gap may be empty. -/
inductive Written : List Word → List Char → Prop
  | nothing {gap : List Char} (before : Gap gap) : Written [] gap
  | word {gap rest : List Char} {word : Word} {words : List Word} (before : Gap gap)
      (parted : Parted rest) (later : Written words rest) :
      Written (word :: words) (gap ++ word.text ++ rest)

/-- Words with a blank in front of each. -/
def spaced (words : List Word) : List Char := words.flatMap fun word => ' ' :: word.text

theorem written_spaced (words : List Word) : Written words (spaced words) := by
  induction words with
  | nil => exact .nothing .nothing
  | cons first rest hypothesis =>
    have parted : Parted (spaced rest) := by
      rcases rest with _ | ⟨second, others⟩
      · exact nofun
      · rintro character ⟨⟩
        rfl
    exact .word (.blank rfl .nothing) parted hypothesis

/-- A gap is skipped, and its newlines are counted. -/
theorem scanFrom_gap {gap : List Char} (before : Gap gap) (line : Nat) (rest : List Char) :
    scanFrom line (gap ++ rest) = scanFrom (line + gap.count '\n') rest := by
  induction before generalizing line with
  | nothing => rfl
  | @blank first more blank later hypothesis =>
    have other : first ≠ '\n' := by
      rintro rfl
      exact absurd blank (by decide)
    rw [List.cons_append, scanFrom_blank line blank, hypothesis, List.count_cons_of_ne other]
  | newline later hypothesis =>
    rw [List.cons_append, scanFrom_newline, hypothesis, List.count_cons_self, Nat.add_assoc,
      Nat.add_comm 1]
  | @comment body more oneLine later hypothesis =>
    have inside : ∀ character ∈ body, decide (character ≠ '\n') := by
      intro character member
      have other : character ≠ '\n' := fun same => oneLine (same ▸ member)
      simpa using other
    have left := (takeWhile_dropWhile_of_stop ('\n' :: (more ++ rest)) inside (by simp)).2
    have count : ('#' :: body ++ '\n' :: more).count '\n' = more.count '\n' + 1 := by
      simp [List.count_eq_zero_of_not_mem oneLine]
    rw [count, List.append_assoc, List.cons_append, scanFrom_comment, List.cons_append, left,
      scanFrom_newline, hypothesis, Nat.add_assoc, Nat.add_comm 1]

/-! ### Words in front of a separator -/

/-- A separator continues no word, no numeral and no symbol. -/
theorem separator_facts {character : Char} (separator : isSeparator character) :
    isWordCharacter character = false ∧ character.isDigit = false ∧ character ≠ '.' ∧
      character ≠ '=' := by
  simp only [isSeparator, isBlank, Bool.or_eq_true, decide_eq_true_eq] at separator
  rcases separator with ((((rfl | rfl) | rfl) | rfl) | rfl) | rfl <;> decide

namespace Lexeme

variable {text rest : List Char}

theorem readWord_append (shape : IsWord text) (parted : Parted rest) :
    readWord (text ++ rest) = ⟨wordKind text, text, rest⟩ := by
  have inside : ∀ character ∈ text, isWordCharacter character := by
    rcases text with _ | ⟨first, others⟩
    · exact shape.elim
    · intro character member
      rcases List.mem_cons.mp member with rfl | member
      · simp [isWordCharacter, shape.1]
      · exact shape.2 character member
  obtain ⟨taken, left⟩ := takeWhile_dropWhile_of_stop rest inside
    fun character member => (separator_facts (parted character member)).1
  rw [readWord, taken, left]

/-- A word is read by its first letter. -/
theorem read?_word (shape : IsWord text) (parted : Parted rest) :
    read? (text ++ rest) = some ⟨wordKind text, text, rest⟩ := by
  rcases text with _ | ⟨first, others⟩
  · exact shape.elim
  · have letter : first.isAlpha := shape.1
    rw [← readWord_append shape parted, List.cons_append, read?, if_pos letter]

theorem wordKind_keyword (word : Keyword) : wordKind word.characters = .keyword word := by
  cases word <;> decide

theorem isWord_keyword (word : Keyword) : IsWord word.characters := by
  cases word <;> simp [Keyword.characters, IsWord, isWordCharacter]

theorem wordKind_identifier (free : ∀ word : Keyword, text ≠ word.characters) :
    wordKind text = .identifier := by
  have unlisted : Keyword.ofText? text = none := by
    rw [Keyword.ofText?, List.find?_eq_none]
    intro word _ same
    exact free word (by simpa using (of_decide_eq_true same).symm)
  rw [wordKind, unlisted]

/-- Digits behind a separator are read as far as they go. -/
theorem readDigitsAfter?_of_start (separator : List Char) {source : List Char}
    (start : startsWithDigit source) :
    readDigitsAfter? separator (separator ++ source) =
      some (separator ++ source.takeWhile Char.isDigit, source.dropWhile Char.isDigit) := by
  have found : separator.isPrefixOf (separator ++ source) := by simp
  simp only [readDigitsAfter?, List.drop_left, found, start, Bool.and_self, if_true]

/-- Digits do not continue with a separator that does not stand behind them. -/
theorem readDigitsAfter?_of_other {separator source : List Char}
    (other : ¬ separator <+: source) : readDigitsAfter? separator source = none := by
  have unequal : separator.isPrefixOf source = false := by
    rw [← Bool.not_eq_true, List.isPrefixOf_iff_prefix]
    exact other
  simp [readDigitsAfter?, unequal]

/-- A numeral without dots ends in front of a separator. -/
theorem readNumeral_whole (run : IsDigits text) (parted : Parted rest) :
    readNumeral (text ++ rest) = ⟨.number, text, rest⟩ := by
  have stop : ∀ character ∈ rest.head?, character.isDigit = false :=
    fun character member => (separator_facts (parted character member)).2.1
  have alone : ∀ more, ¬ '.' :: more <+: rest := by
    rintro more ⟨behind, rfl⟩
    exact (separator_facts (parted '.' rfl)).2.2.1 rfl
  obtain ⟨taken, left⟩ := takeWhile_dropWhile_of_stop rest run.2 stop
  simp [readNumeral, taken, left, dottedKinds, RangeKind.dots,
    readDigitsAfter?_of_other (alone _)]

/-- Dots with a digit behind them tell the kind of a numeral, which goes on as far as digits do. -/
theorem readNumeral_dots {kind : TokenKind} {digits dots source : List Char}
    (listed : (dots, kind) ∈ dottedKinds) (run : IsDigits digits)
    (start : startsWithDigit source) :
    readNumeral (digits ++ (dots ++ source)) =
      ⟨kind, digits ++ (dots ++ source.takeWhile Char.isDigit), source.dropWhile Char.isDigit⟩ := by
  obtain ⟨first, others, rfl⟩ : ∃ first others, source = first :: others :=
    List.exists_cons_of_ne_nil fun empty => by simp [empty, startsWithDigit] at start
  have digit : first ≠ '.' := by
    rintro rfl
    exact absurd start (by simp [startsWithDigit])
  have stop : ∀ character ∈ (dots ++ first :: others).head?, character.isDigit = false := by
    simp only [dottedKinds, List.mem_cons, Prod.mk.injEq, List.not_mem_nil, or_false] at listed
    rcases listed with ⟨rfl, rfl⟩ | ⟨rfl, rfl⟩ | ⟨rfl, rfl⟩ <;> simp [RangeKind.dots]
  obtain ⟨taken, left⟩ := takeWhile_dropWhile_of_stop _ run.2 stop
  have found := readDigitsAfter?_of_start dots start
  simp only [readNumeral, taken, left, dottedKinds, List.findSome?_cons, List.findSome?_nil]
  simp only [dottedKinds, List.mem_cons, Prod.mk.injEq, List.not_mem_nil, or_false] at listed
  rcases listed with ⟨rfl, rfl⟩ | ⟨rfl, rfl⟩ | ⟨rfl, rfl⟩
  · rw [found]
    simp
  · have third : ¬ RangeKind.exclusive.dots <+: RangeKind.inclusive.dots ++ first :: others := by
      simp [RangeKind.dots, digit.symm]
    rw [readDigitsAfter?_of_other third, found]
    simp
  · have second : ∀ kind : RangeKind, ¬ kind.dots <+: ['.'] ++ first :: others := by
      rintro (_ | _) <;> simp [RangeKind.dots, digit.symm]
    rw [readDigitsAfter?_of_other (second _), readDigitsAfter?_of_other (second _), found]
    simp

/-- A run of digits begins with one, whatever follows it. -/
theorem startsWithDigit_append {digits : List Char} (run : IsDigits digits) (rest : List Char) :
    startsWithDigit (digits ++ rest) := by
  obtain ⟨first, others, rfl⟩ := List.exists_cons_of_ne_nil run.1
  exact run.2 first List.mem_cons_self

/-- Digits, dots and digits are read as the kind that the dots tell. -/
theorem readNumeral_dotted {kind : TokenKind} {digits dots more : List Char}
    (listed : (dots, kind) ∈ dottedKinds) (run : IsDigits digits) (behind : IsDigits more)
    (parted : Parted rest) :
    readNumeral (digits ++ dots ++ more ++ rest) = ⟨kind, digits ++ dots ++ more, rest⟩ := by
  obtain ⟨taken, left⟩ := takeWhile_dropWhile_of_stop rest behind.2
    fun character member => (separator_facts (parted character member)).2.1
  have read := readNumeral_dots listed run (startsWithDigit_append behind rest)
  rw [taken, left] at read
  simpa using read

/-- A digit in front begins a numeral. -/
theorem read?_digits (run : IsDigits text) (rest : List Char) :
    read? (text ++ rest) = some (readNumeral (text ++ rest)) := by
  obtain ⟨first, others, rfl⟩ := List.exists_cons_of_ne_nil run.1
  have digit : first.isDigit := run.2 first List.mem_cons_self
  have noLetter : ¬ first.isAlpha := by
    intro letter
    unfold Char.isAlpha Char.isUpper Char.isLower at letter
    unfold Char.isDigit at digit
    simp only [Bool.or_eq_true, Bool.and_eq_true, decide_eq_true_eq, UInt32.le_iff_toNat_le,
      ge_iff_le] at letter digit
    have nine : ('9' : Char).val.toNat = 57 := rfl
    have upper : ('A' : Char).val.toNat = 65 := rfl
    have lower : ('a' : Char).val.toNat = 97 := rfl
    omega
  rw [List.cons_append, read?, if_neg noLetter, if_pos digit]

theorem read?_dotted {kind : TokenKind} {digits dots more : List Char}
    (listed : (dots, kind) ∈ dottedKinds) (run : IsDigits digits) (behind : IsDigits more)
    (parted : Parted rest) :
    read? (digits ++ dots ++ more ++ rest) = some ⟨kind, digits ++ dots ++ more, rest⟩ := by
  rw [← readNumeral_dotted listed run behind parted, List.append_assoc, List.append_assoc,
    read?_digits run]

theorem read?_quoted {contents : List Char} (quoted : Quoted text contents) (rest : List Char) :
    read? (text ++ rest) = some ⟨.text, text, rest⟩ := by
  obtain ⟨plain, rfl⟩ := quoted
  have inside : ∀ character ∈ contents, decide (character ≠ '"') := by
    intro character member
    have other : character ≠ '"' := fun same => plain (same ▸ member)
    simpa using other
  obtain ⟨taken, left⟩ := takeWhile_dropWhile_of_stop ('"' :: rest) inside (by simp)
  have source : '"' :: contents ++ ['"'] ++ rest = '"' :: (contents ++ '"' :: rest) := by simp
  rw [source]
  simp only [read?, readText?, List.tail_cons, taken, left]
  rfl

theorem read?_symbol (mark : Symbol) (parted : Parted rest) :
    read? (mark.characters ++ rest) = some ⟨.symbol mark, mark.characters, rest⟩ := by
  have alone : ['='].isPrefixOf rest = false := by
    rcases rest with _ | ⟨first, behind⟩
    · rfl
    · have other : first ≠ '=' := (separator_facts (parted first rfl)).2.2.2
      simp [List.isPrefixOf, other.symm]
  cases mark <;> simp [read?, readSymbol?, Symbol.all, Symbol.characters, alone]

/-- **A spelled word in front of a separator is read whole, and no more.** -/
theorem read?_of_spells {kind : TokenKind} (spelled : kind.Spells text)
    (inside : kind ≠ .endOfInput) (parted : Parted rest) :
    read? (text ++ rest) = some ⟨kind, text, rest⟩ := by
  match kind, spelled with
  | .symbol mark, spelled =>
    obtain rfl : text = mark.characters := spelled
    exact read?_symbol mark parted
  | .keyword word, spelled =>
    obtain rfl : text = word.characters := spelled
    rw [read?_word (isWord_keyword word) parted, wordKind_keyword]
  | .number, spelled =>
    obtain ⟨value, numeral⟩ := spelled
    rcases numeral with @⟨digits, run⟩ | @⟨digits, decimals, run, behind⟩
    · rw [read?_digits run, readNumeral_whole run parted]
    · have listed : (['.'], TokenKind.number) ∈ dottedKinds := by simp [dottedKinds]
      have read := read?_dotted listed run behind parted
      simpa using read
  | .text, spelled =>
    obtain ⟨contents, quoted⟩ := spelled
    exact read?_quoted quoted rest
  | .range kind, spelled =>
    obtain ⟨first, last, firstRun, lastRun, rfl⟩ := spelled
    have listed : (kind.dots, TokenKind.range kind) ∈ dottedKinds := by
      rcases kind <;> simp [dottedKinds]
    exact read?_dotted listed firstRun lastRun parted
  | .identifier, spelled =>
    rw [read?_word spelled.1 parted, wordKind_identifier spelled.2]
  | .endOfInput, spelled => exact absurd rfl inside

end Lexeme

/-- **A word behind a gap is taken whole**, and the newlines of both are counted. -/
theorem scanFrom_word {gap rest : List Char} {word : Word} (before : Gap gap)
    (spelled : word.Spelled) (parted : Parted rest) (line : Nat) :
    scanFrom line (gap ++ word.text ++ rest) =
      .ok ⟨word.kind, String.ofList word.text, line + (gap ++ word.text).count '\n'⟩ ::
        scanFrom (line + (gap ++ word.text).count '\n') rest := by
  have read := Lexeme.read?_of_spells spelled.2 spelled.1 parted
  obtain ⟨first, others, split⟩ : ∃ first others, word.text ++ rest = first :: others :=
    List.exists_cons_of_ne_nil fun empty => by simp [empty, Lexeme.read?] at read
  rw [List.append_assoc, scanFrom_gap before, split, scanFrom_lexeme _ (split ▸ read),
    List.count_append, ← Nat.add_assoc]
  rfl

/-- **A written text scans to its words**, whatever the gaps are. -/
theorem scanFrom_written {words : List Word} {text : List Char} (written : Written words text)
    (spelled : ∀ word ∈ words, word.Spelled) (line : Nat) :
    (scanFrom line text).map (ScanResult.mapLines fun _ => 0) =
      (words.map Word.token ++ [Token.endOfInput 0]).map .ok := by
  induction written generalizing line with
  | @nothing gap before =>
    have skipped := scanFrom_gap before line []
    rw [List.append_nil] at skipped
    rw [skipped, scanFrom_nil]
    rfl
  | @word gap rest word words before parted later hypothesis =>
    rw [scanFrom_word before (spelled word List.mem_cons_self) parted, List.map_cons,
      hypothesis fun word member => spelled word (List.mem_cons_of_mem _ member)]
    rfl

end Scriptlet
