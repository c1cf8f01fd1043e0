/-
**Token languages**: the texts that each kind of token may be spelled with, and what literals mean.

The languages are stated on their own, without a scanner; a scan is then related to them.

* `TokenKind.Spells`: the texts of a kind. A name is a word that is not reserved.
* `Numeral`, `Quoted`, `RangeSpelling`: the texts of literals together with their values.
* `Lexeme.spells_of_read?`: what is read at the front of a text is spelled as its kind says.
* `Scanned`, `scan_scanned`: the tokens of a scan are spelled by their kinds, and the end of the
  input is its last result and no other; `Scanned.spelled` tells it of each token.
* `Parser.numberLiteral_of_numeral`, `Parser.textLiteral_of_quoted`,
  `Parser.rangeLiteral_of_dotted`: a literal that is spelled is decoded to its value; a range may
  still be too large.
-/

import Scriptlet.Parser

namespace Scriptlet

/-! ### The languages -/

/-- One or more decimal digits. -/
def IsDigits (text : List Char) : Prop := text ≠ [] ∧ ∀ character ∈ text, character.isDigit

/-- A letter, and letters, digits and underscores behind it. -/
def IsWord : List Char → Prop
  | [] => False
  | first :: rest => first.isAlpha ∧ ∀ character ∈ rest, isWordCharacter character

instance (text : List Char) : Decidable (IsDigits text) :=
  decidable_of_iff (text ≠ [] ∧ text.all Char.isDigit) (by simp [IsDigits])

instance : (text : List Char) → Decidable (IsWord text)
  | [] => .isFalse id
  | first :: rest =>
    decidable_of_iff (first.isAlpha ∧ rest.all isWordCharacter) (by simp [IsWord])

/-- **A numeral and its number**: digits, or digits with decimals behind a point. -/
inductive Numeral : List Char → Number → Prop
  | whole {digits : List Char} (run : IsDigits digits) :
      Numeral digits (.ofDecimal (decimalValue digits) 0)
  | decimal {digits decimals : List Char} (run : IsDigits digits) (behind : IsDigits decimals) :
      Numeral (digits ++ '.' :: decimals)
        (.ofDecimal (decimalValue (digits ++ decimals)) decimals.length)

/-- **A string literal and its contents**, which hold no quote. -/
def Quoted (text contents : List Char) : Prop :=
  '"' ∉ contents ∧ text = '"' :: contents ++ ['"']

/-- The texts of ranges, with the digits of both bounds. -/
def Dotted (kind : RangeKind) (text first last : List Char) : Prop :=
  IsDigits first ∧ IsDigits last ∧ text = first ++ kind.dots ++ last

/-- **A range literal and its range**: both runs of digits are the bounds. -/
def RangeSpelling (text : List Char) (range : Range) : Prop :=
  ∃ first last, Dotted range.kind text first last ∧
    range.first.toInt = decimalValue first ∧ range.last.toInt = decimalValue last

/-- **The texts of a kind of token.** -/
def TokenKind.Spells : TokenKind → List Char → Prop
  | symbol mark, spelling => spelling = mark.characters
  | keyword word, spelling => spelling = word.characters
  | number, spelling => ∃ value, Numeral spelling value
  | text, spelling => ∃ contents, Quoted spelling contents
  | range kind, spelling => ∃ first last, Dotted kind spelling first last
  | identifier, spelling => IsWord spelling ∧ ∀ word : Keyword, spelling ≠ word.characters
  | endOfInput, spelling => spelling = []

/-- A token whose characters its kind allows. -/
def Token.Spelled (token : Token) : Prop := token.kind.Spells token.lexeme.toList

/-! ### Runs of characters -/

/-- **A run ends where its condition fails**: it is taken whole, and what is behind it is left. -/
theorem takeWhile_dropWhile_of_stop {α : Type} {condition : α → Bool} {run : List α}
    (rest : List α) (inside : ∀ item ∈ run, condition item)
    (stop : ∀ item ∈ rest.head?, condition item = false) :
    (run ++ rest).takeWhile condition = run ∧ (run ++ rest).dropWhile condition = rest := by
  rw [List.takeWhile_append_of_pos inside, List.dropWhile_append_of_pos inside]
  rcases rest with _ | ⟨first, others⟩
  · simp
  · have fails : condition first = false := stop first rfl
    simp [fails]

/-- The digits in front of a text, at least one of them. -/
theorem isDigits_takeWhile {source : List Char} (start : Lexeme.startsWithDigit source) :
    IsDigits (source.takeWhile Char.isDigit) := by
  refine ⟨?_, List.all_eq_true.mp List.all_takeWhile⟩
  rcases source with _ | ⟨first, rest⟩
  · cases start
  · have digit : first.isDigit := start
    simp [digit]

/-! ### What is read is spelled -/

/-- Every reserved word is listed. -/
theorem Keyword.mem_all (word : Keyword) : word ∈ Keyword.all := by
  cases word <;> decide

namespace Lexeme

/-- A word is spelled as the kind it gets: a reserved word or a name. -/
theorem spells_wordKind {word : List Char} (shape : IsWord word) : (wordKind word).Spells word := by
  unfold wordKind Keyword.ofText?
  cases search : Keyword.all.find? fun keyword => keyword.characters = word with
  | some keyword =>
    have spelled : keyword.characters = word := by simpa using List.find?_some search
    exact spelled.symm
  | none =>
    refine ⟨shape, fun keyword same => ?_⟩
    have different := List.find?_eq_none.mp search keyword keyword.mem_all
    exact different (by simp [same])

/-- The digits behind a separator. -/
theorem readDigitsAfter?_digits {separator source more rest : List Char}
    (found : readDigitsAfter? separator source = some (more, rest)) :
    ∃ digits, IsDigits digits ∧ more = separator ++ digits := by
  simp only [readDigitsAfter?] at found
  split at found
  · next condition =>
    obtain ⟨rfl, -⟩ : separator ++ (source.drop separator.length).takeWhile Char.isDigit = more ∧
        (source.drop separator.length).dropWhile Char.isDigit = rest := by
      simpa using found
    have start : startsWithDigit (source.drop separator.length) := by simp_all
    exact ⟨_, isDigits_takeWhile start, rfl⟩
  · cases found

theorem spells_readNumeral {first : Char} {rest : List Char} (digit : first.isDigit) :
    (readNumeral (first :: rest)).kind.Spells (readNumeral (first :: rest)).text := by
  have whole : IsDigits ((first :: rest).takeWhile Char.isDigit) := isDigits_takeWhile digit
  rcases readNumeral_cases (first :: rest) with read | ⟨_, _, _, _, listed, found, read⟩
  · rw [read]
    exact ⟨_, .whole whole⟩
  · obtain ⟨digits, run, rfl⟩ := readDigitsAfter?_digits found
    rw [read]
    simp only [dottedKinds, List.mem_cons, Prod.mk.injEq, List.not_mem_nil, or_false] at listed
    rcases listed with ⟨rfl, rfl⟩ | ⟨rfl, rfl⟩ | ⟨rfl, rfl⟩
    · exact ⟨_, digits, whole, run, (List.append_assoc ..).symm⟩
    · exact ⟨_, digits, whole, run, (List.append_assoc ..).symm⟩
    · exact ⟨_, .decimal whole run⟩

theorem spells_readText? {rest : List Char} {lexeme : Lexeme}
    (found : readText? ('"' :: rest) = some lexeme) : lexeme.kind.Spells lexeme.text := by
  obtain ⟨body, behind, plain, -, rfl⟩ := exists_of_readText? found
  exact ⟨body, plain, rfl⟩

theorem spells_readSymbol? {source : List Char} {lexeme : Lexeme}
    (found : readSymbol? source = some lexeme) : lexeme.kind.Spells lexeme.text := by
  obtain ⟨symbol, _, rfl⟩ := Option.map_eq_some_iff.mp found
  rfl

/-- **What is read at the front of a text is spelled as its kind says.** -/
theorem spells_of_read? {source : List Char} {lexeme : Lexeme}
    (found : read? source = some lexeme) : lexeme.kind.Spells lexeme.text := by
  cases source with
  | nil => cases found
  | cons first rest =>
    simp only [read?] at found
    split at found
    · next letter =>
      cases found
      refine spells_wordKind ?_
      have continues : isWordCharacter first := by simp [isWordCharacter, letter]
      rw [List.takeWhile_cons_of_pos continues]
      exact ⟨letter, List.all_eq_true.mp List.all_takeWhile⟩
    · split at found
      · next digit =>
        cases found
        exact spells_readNumeral digit
      · split at found
        · next quote =>
          cases quote
          exact spells_readText? found
        · exact spells_readSymbol? found

end Lexeme

/-! ### The results of a scan -/

/-- **Spelled tokens and faults, with the end of the input last** and nowhere else. -/
inductive Scanned : List ScanResult → Prop
  | endOfInput (line : Nat) : Scanned [.ok (.endOfInput line)]
  | token {token : Token} {rest : List ScanResult} (spelled : token.Spelled)
      (inside : token.kind ≠ .endOfInput) (later : Scanned rest) : Scanned (.ok token :: rest)
  | fault {error : ParseError} {rest : List ScanResult} (later : Scanned rest) :
      Scanned (.error error :: rest)

/-- Every token among such results is spelled as its kind says. -/
theorem Scanned.spelled {results : List ScanResult} (scanned : Scanned results) {token : Token}
    (member : .ok token ∈ results) : token.Spelled := by
  induction scanned with
  | endOfInput line =>
    obtain rfl := Except.ok.inj (List.mem_singleton.mp member)
    rfl
  | token spelled _ _ hypothesis =>
    rcases List.mem_cons.mp member with same | later
    · obtain rfl := Except.ok.inj same
      exact spelled
    · exact hypothesis later
  | fault _ hypothesis =>
    rcases List.mem_cons.mp member with same | later
    · cases same
    · exact hypothesis later

/-- A token that was read is not the end of the input. -/
theorem Lexeme.kind_ne_endOfInput {source : List Char} {lexeme : Lexeme}
    (found : Lexeme.read? source = some lexeme) : lexeme.kind ≠ .endOfInput := by
  intro ended
  have spelled := Lexeme.spells_of_read? found
  rw [ended] at spelled
  exact Lexeme.read?_text_ne_nil found spelled

/-- The token of a lexeme keeps its spelling. -/
theorem Lexeme.spelled_token {source : List Char} {lexeme : Lexeme} (line : Nat)
    (found : Lexeme.read? source = some lexeme) : (lexeme.token line).Spelled := by
  have spelled := Lexeme.spells_of_read? found
  simpa [Token.Spelled, Lexeme.token] using spelled

theorem scanFrom_scanned (line : Nat) (source : List Char) : Scanned (scanFrom line source) := by
  fun_induction scanFrom line source with
  | case1 line => exact .endOfInput line
  | case2 line rest hypothesis => exact hypothesis
  | case3 line first rest visible blank hypothesis => exact hypothesis
  | case4 line rest visible solid hypothesis => exact hypothesis
  | case5 line first rest visible solid code lexeme found shorter hypothesis =>
    exact .token (lexeme.spelled_token line found) (Lexeme.kind_ne_endOfInput found) hypothesis
  | case6 line rest visible solid code nothing => exact .fault (.endOfInput line)
  | case7 line first rest visible solid code nothing plain hypothesis => exact .fault hypothesis

/-- **The results of a scan** are spelled tokens and faults, the end of the input last. -/
theorem scan_scanned (source : String) : Scanned (scan source) := scanFrom_scanned 1 source.toList

/-! ### Decoding literals -/

namespace Parser

/-- **A literal has a value or is refused on the line of its token.** -/
def Decides {α : Type} (token : Token) (literal : Except Stop α) : Prop :=
  (∃ value, literal = .ok value) ∨ ∃ fault, literal = refuse token.line fault

theorem decides_orRefuse {α : Type} (token : Token) (fault : ParseFault) (found : Option α) :
    Decides token (orRefuse token.line fault found) := by
  cases found with
  | none => exact .inr ⟨fault, rfl⟩
  | some value => exact .inl ⟨value, rfl⟩

theorem decides_rangeLiteral (kind : RangeKind) (token : Token) :
    Decides token (rangeLiteral kind token) := by
  unfold rangeLiteral
  rcases splitOnce? kind.dots token.lexeme.toList with _ | ⟨first, last⟩
  · exact .inr ⟨_, rfl⟩
  · exact decides_orRefuse token _ (decodeRange? kind first last)

@[simp] theorem areDigits_iff {text : List Char} : areDigits text ↔ IsDigits text := by
  simp [areDigits, IsDigits]

/-- **A numeral is decoded to its number.** -/
theorem decodeNumber?_of_numeral {lexeme : String} {value : Number}
    (spelled : Numeral lexeme.toList value) : decodeNumber? lexeme = some value := by
  unfold decodeNumber?
  generalize lexeme.toList = text at spelled
  cases spelled with
  | whole run =>
    obtain ⟨taken, left⟩ := takeWhile_dropWhile_of_stop [] run.2 (by simp)
    rw [List.append_nil] at taken left
    rw [taken, left]
    simp [run]
  | decimal run behind =>
    obtain ⟨taken, left⟩ := takeWhile_dropWhile_of_stop ('.' :: _) run.2 (by simp)
    rw [taken, left]
    simp [run, behind]

theorem numberLiteral_of_numeral {token : Token} {value : Number}
    (spelled : Numeral token.lexeme.toList value) : numberLiteral token = .ok value := by
  rw [numberLiteral, decodeNumber?_of_numeral spelled]
  rfl

theorem byteLength_append (front behind : List Char) :
    byteLength (front ++ behind) = byteLength front + byteLength behind := by
  induction front with
  | nil => rw [List.nil_append, byteLength, Nat.zero_add]
  | cons first rest hypothesis =>
    rw [List.cons_append, byteLength, byteLength, hypothesis, Nat.add_assoc]

/-- Characters are split behind a front part at the number of its bytes. -/
theorem splitBytes?_append (front behind : List Char) :
    splitBytes? (byteLength front) (front ++ behind) = some (front, behind) := by
  induction front with
  | nil => simp [byteLength, splitBytes?]
  | cons first rest hypothesis =>
    obtain ⟨less, same⟩ : ∃ less, first.utf8Size + byteLength rest = less + 1 :=
      Nat.exists_eq_add_one.mpr (Nat.add_pos_left first.utf8Size_pos _)
    have left : less + 1 - first.utf8Size = byteLength rest := by omega
    rw [byteLength, same, List.cons_append, splitBytes?, if_pos (by omega), left, hypothesis]
    rfl

/-- **The characters between two others** are cut out at the bytes where these end and begin. -/
theorem slice?_between (front inside behind : List Char) :
    slice? (byteLength front) (byteLength front + byteLength inside) (front ++ inside ++ behind) =
      some inside := by
  rw [slice?, if_pos (Nat.le_add_right ..), List.append_assoc, splitBytes?_append,
    Nat.add_sub_cancel_left, Option.bind_some, splitBytes?_append,
    Option.map_some]

/-- **The contents of a string literal** are all but its first and its last byte. -/
theorem slice?_of_quoted {text contents : List Char} (spelled : Quoted text contents) :
    slice? 1 (byteLength text - 1) text = some contents := by
  have size :
      byteLength ('"' :: contents ++ ['"']) - 1 = byteLength ['"'] + byteLength contents := by
    rw [byteLength_append, byteLength]
    exact Nat.add_sub_cancel _ 1
  rw [spelled.2, size]
  exact slice?_between ['"'] contents ['"']

theorem textLiteral_of_quoted {token : Token} {contents : List Char}
    (spelled : Quoted token.lexeme.toList contents) :
    textLiteral token = .ok (String.ofList contents) := by
  rw [textLiteral, decodeText?, slice?_of_quoted spelled]
  rfl

/-- A bound is decoded exactly when it is a 64-bit integer. -/
theorem decodeBound?_eq_some_iff {digits : List Char} {bound : Int64} (run : IsDigits digits) :
    decodeBound? digits = some bound ↔ bound.toInt = decimalValue digits := by
  unfold decodeBound?
  dsimp only
  rw [areDigits_iff.mpr run, Bool.true_and]
  by_cases fits : decimalValue digits < 2 ^ 63
  · have exact : (Int64.ofNat (decimalValue digits)).toInt = decimalValue digits :=
      Int64.toInt_ofNat_of_lt fits
    rw [if_pos (decide_eq_true fits), Option.some.injEq, ← exact, Int64.toInt_inj, eq_comm]
  · have below := bound.toInt_lt
    rw [if_neg (by simpa using fits)]
    constructor
    · intro impossible
      cases impossible
    · intro same
      omega

/-- **Two bounds are decoded to the range between them**, if both fit. -/
theorem decodeRange?_eq_some_iff {kind : RangeKind} {first last : List Char} {range : Range}
    (firstRun : IsDigits first) (lastRun : IsDigits last) :
    decodeRange? kind first last = some range ↔
      range.kind = kind ∧ range.first.toInt = decimalValue first ∧
        range.last.toInt = decimalValue last := by
  unfold decodeRange?
  constructor
  · intro decoded
    obtain ⟨lower, low, decoded⟩ := Option.bind_eq_some_iff.mp decoded
    obtain ⟨upper, high, rfl⟩ := Option.map_eq_some_iff.mp decoded
    exact ⟨rfl, (decodeBound?_eq_some_iff firstRun).mp low,
      (decodeBound?_eq_some_iff lastRun).mp high⟩
  · rintro ⟨rfl, low, high⟩
    rw [(decodeBound?_eq_some_iff firstRun).mpr low, (decodeBound?_eq_some_iff lastRun).mpr high]
    rfl

/-- **The bounds of a range are found around its dots**: no digit is one. -/
theorem splitOnce?_of_dotted {kind : RangeKind} {text first last : List Char}
    (dotted : Dotted kind text first last) : splitOnce? kind.dots text = some (first, last) := by
  obtain ⟨firstRun, -, rfl⟩ := dotted
  obtain ⟨others, begins⟩ : ∃ others, kind.dots = '.' :: others := by
    cases kind <;> exact ⟨_, rfl⟩
  have digits := firstRun.2
  clear firstRun
  induction first with
  | nil => simp [begins, splitOnce?]
  | cons front rest hypothesis =>
    have digit : front.isDigit := digits front List.mem_cons_self
    have other : '.' ≠ front := by
      rintro rfl
      cases digit
    have apart : kind.dots.isPrefixOf (front :: rest ++ kind.dots ++ last) = false := by
      simp [begins, List.isPrefixOf, other]
    have later := hypothesis fun character member => digits character (List.mem_cons_of_mem _ member)
    rw [List.cons_append, List.cons_append] at apart ⊢
    rw [splitOnce?, apart, if_neg Bool.false_ne_true, later]
    rfl

/-- A range literal is decoded from the digits around its dots, or refused as too large. -/
theorem rangeLiteral_of_dotted {kind : RangeKind} {token : Token} {first last : List Char}
    (dotted : Dotted kind token.lexeme.toList first last) :
    rangeLiteral kind token =
      orRefuse token.line (.literalTooLarge token.lexeme) (decodeRange? kind first last) := by
  rw [rangeLiteral, splitOnce?_of_dotted dotted]
  rfl

end Parser

end Scriptlet
