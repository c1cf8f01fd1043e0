/-
**Two texts with a newline between them.**

A newline ends a comment and every token but a string, so the scan of the first text goes on into
the second one as if it began there, on a later line. Only a quote that is still open at the
newline is not ended by it.

* `IsTokenText.prefix_or_quoted`: a token that is no string ends in front of a newline.
* `Lexeme.read?_append_newline`, `Lexeme.read?_append_newline_eq_none`: what is read in front of a
  newline does not depend on the text behind it.
* `scanFrom_append_newline`: **the results of the first text, its end apart, and those of the
  second** from the line behind the newline on.
* `scanFrom_add`: a scan that begins on a later line has the same results on later lines.
* `BreaksOff`, `scanFrom_breaksOff`: whatever follows behind a newline, also if it closes a quote,
  the results of the first text are those of both up to where the first one breaks off.
-/

import Scriptlet.Proofs.Token.Decomposition

namespace Scriptlet

/-! ### Tokens across a newline -/

/-- Newlines and quotes are in no word, no numeral and no symbol. -/
theorem IsTokenText.exists_quoted {text : List Char} {character : Char} (token : IsTokenText text)
    (member : character ∈ text) (foreign : character = '\n' ∨ character = '"') :
    ∃ contents, Quoted text contents := by
  have noDigit : ∀ {digits : List Char}, IsDigits digits → character ∉ digits := by
    intro digits run inside
    have digit := run.2 character inside
    rcases foreign with rfl | rfl <;> exact absurd digit (by decide)
  have noPoint : character ≠ '.' := by
    rcases foreign with rfl | rfl <;> decide
  have noLetter : isWordCharacter character = false := by
    rcases foreign with rfl | rfl <;> decide
  obtain ⟨kind, inside, spelled⟩ := token
  match kind, spelled with
  | .symbol mark, spelled =>
    obtain rfl : text = mark.characters := spelled
    rcases foreign with rfl | rfl <;> cases mark <;> simp [Symbol.characters] at member
  | .keyword word, spelled =>
    obtain rfl : text = word.characters := spelled
    rcases foreign with rfl | rfl <;> cases word <;> simp [Keyword.characters] at member
  | .number, spelled =>
    obtain ⟨value, numeral⟩ := spelled
    rcases numeral with @⟨digits, run⟩ | @⟨digits, decimals, run, behind⟩
    · exact absurd member (noDigit run)
    · simp [noDigit run, noDigit behind, noPoint] at member
  | .text, spelled => exact spelled
  | .range kind, spelled =>
    obtain ⟨first, last, firstRun, lastRun, rfl⟩ := spelled
    cases kind <;> simp [noDigit firstRun, noDigit lastRun, noPoint, RangeKind.dots] at member
  | .identifier, spelled =>
    have word : isWordCharacter character := by
      rcases text with _ | ⟨first, others⟩
      · exact spelled.1.elim
      · rcases List.mem_cons.mp member with rfl | member
        · simp [isWordCharacter, spelled.1.1]
        · exact spelled.1.2 character member
    rw [noLetter] at word
    cases word
  | .endOfInput, _ => exact absurd rfl inside

/-- **A token that is no string ends in front of a newline.** -/
theorem IsTokenText.prefix_or_quoted {text source more : List Char} (token : IsTokenText text)
    (front : text <+: source ++ '\n' :: more) :
    text <+: source ∨ ∃ contents, Quoted text contents := by
  have line : source ++ ['\n'] <+: source ++ '\n' :: more := ⟨more, by simp⟩
  rcases List.prefix_or_prefix_of_prefix front line with short | long
  · rcases List.prefix_concat_iff.mp short with rfl | short
    · exact .inr (token.exists_quoted (by simp) (.inl rfl))
    · exact .inl short
  · exact .inr (token.exists_quoted (long.subset (by simp)) (.inl rfl))

namespace Lexeme

variable (more : List Char)

/-- **A token in front of a newline is read as it is at the end of the text.** -/
theorem read?_append_newline {source : List Char} {lexeme : Lexeme}
    (found : read? source = some lexeme) :
    read? (source ++ '\n' :: more) =
      some ⟨lexeme.kind, lexeme.text, lexeme.rest ++ '\n' :: more⟩ := by
  have old := isTokenText_of_read? found
  have whole : source ++ '\n' :: more = lexeme.text ++ (lexeme.rest ++ '\n' :: more) := by
    rw [← List.append_assoc, read?_append found]
  obtain ⟨⟨kind, text, rest⟩, read, longer⟩ :=
    exists_read?_of_spells old (lexeme.rest ++ '\n' :: more)
  rw [← whole] at read
  have new := isTokenText_of_read? read
  have split : text ++ rest = source ++ '\n' :: more := read?_append read
  -- what is read now begins with what was read before, and it is no longer
  have same : text = lexeme.text := by
    rcases new.prefix_or_quoted ⟨rest, split⟩ with short | ⟨contents, plain, quoted⟩
    · have shorter := prefix_of_read? found new short
      exact shorter.eq_of_length_le longer.length_le
    · obtain ⟨first, others, begun⟩ := List.exists_cons_of_ne_nil (read?_text_ne_nil found)
      have quote : first = '"' := by
        rw [quoted, begun] at longer
        exact (List.cons_prefix_cons.mp longer).1
      have member : '"' ∈ lexeme.text := by simp [begun, quote]
      obtain ⟨inner, string⟩ := old.exists_quoted member (.inr rfl)
      have again := read?_quoted string (lexeme.rest ++ '\n' :: more)
      rw [← whole, read] at again
      exact congrArg Lexeme.text (Option.some.inj again)
  subst same
  have sameKind : kind = lexeme.kind :=
    kind_unique (kind_ne_endOfInput read) (kind_ne_endOfInput found) (spells_of_read? read)
      (spells_of_read? found)
  rw [read, sameKind, List.append_cancel_left (split.trans whole)]

/-- A text behind a newline adds no token in front of it, unless it closes a quote. -/
theorem read?_append_newline_eq_none {first : Char} {rest : List Char}
    (nothing : read? (first :: rest) = none) (plain : first ≠ '"') :
    read? (first :: rest ++ '\n' :: more) = none := by
  cases read : read? (first :: rest ++ '\n' :: more) with
  | none => rfl
  | some lexeme =>
    have token := isTokenText_of_read? read
    have front : lexeme.text <+: first :: rest ++ '\n' :: more := ⟨_, read?_append read⟩
    rcases token.prefix_or_quoted front with short | ⟨contents, -, quoted⟩
    · exact absurd short (not_prefix_of_read? nothing token)
    · rw [quoted] at front
      exact absurd (List.cons_prefix_cons.mp front).1.symm plain

end Lexeme

/-! ### Scanning both texts -/

/-- A scan has a last result. -/
theorem scanFrom_ne_nil (line : Nat) (source : List Char) : scanFrom line source ≠ [] := by
  have scanned := scanFrom_scanned line source
  intro empty
  rw [empty] at scanned
  cases scanned

/-- A comment ends at a newline, whatever stands behind it. -/
theorem dropWhile_append_newline (rest more : List Char) :
    (rest ++ '\n' :: more).dropWhile (· ≠ '\n') = rest.dropWhile (· ≠ '\n') ++ '\n' :: more := by
  rw [List.dropWhile_append]
  split
  · next empty =>
    rw [List.isEmpty_iff.mp empty]
    simp
  · rfl

/-- No newline is in a comment. -/
theorem count_dropWhile_newline (rest : List Char) :
    (rest.dropWhile (· ≠ '\n')).count '\n' = rest.count '\n' := by
  have skipped := not_mem_takeWhile_newline rest
  have whole := congrArg (List.count '\n') (List.takeWhile_append_dropWhile
    (p := fun character => decide (character ≠ '\n')) (l := rest))
  rwa [List.count_append, List.count_eq_zero_of_not_mem skipped, Nat.zero_add] at whole

/-- **A newline parts two texts**: behind the results of the first one, its end apart, the second
one is scanned from the next line on. -/
theorem scanFrom_append_newline (line : Nat) (source more : List Char)
    (closed : ∀ place, .error ⟨place, .unterminatedText⟩ ∉ scanFrom line source) :
    scanFrom line (source ++ '\n' :: more) =
      (scanFrom line source).dropLast ++ scanFrom (line + source.count '\n' + 1) more := by
  fun_induction scanFrom line source with
  | case1 line => simp
  | case2 line rest hypothesis =>
    have place : line + ('\n' :: rest).count '\n' = line + 1 + rest.count '\n' := by
      rw [List.count_cons_self]
      omega
    rw [List.cons_append, scanFrom_newline, hypothesis closed, place]
  | case3 line first rest visible blank hypothesis =>
    rw [List.cons_append, scanFrom_blank line blank, hypothesis closed,
      List.count_cons_of_ne visible]
  | case4 line rest visible solid hypothesis =>
    rw [List.cons_append, scanFrom_comment, dropWhile_append_newline, hypothesis closed,
      count_dropWhile_newline, List.count_cons_of_ne visible]
  | case5 line first rest visible solid code lexeme found shorter hypothesis =>
    have later := hypothesis fun place member => closed place (List.mem_cons_of_mem _ member)
    have place : line + (first :: rest).count '\n' =
        lexeme.lastLine line + lexeme.rest.count '\n' := by
      rw [← Lexeme.read?_append found, List.count_append, ← Nat.add_assoc]
      rfl
    have step := scanFrom_lexeme line (Lexeme.read?_append_newline more found)
    rw [List.dropLast_cons_of_ne_nil (scanFrom_ne_nil _ _), List.cons_append, List.cons_append,
      place, ← later]
    exact step
  | case6 line rest visible solid code nothing => exact absurd List.mem_cons_self (closed line)
  | case7 line first rest visible solid code nothing plain hypothesis =>
    have later := hypothesis fun place member => closed place (List.mem_cons_of_mem _ member)
    have step := scanFrom_unexpected line visible (by simpa using solid) code plain
      (Lexeme.read?_append_newline_eq_none more nothing plain)
    rw [List.dropLast_cons_of_ne_nil (scanFrom_ne_nil _ _), List.cons_append, List.cons_append,
      List.count_cons_of_ne visible, ← later]
    exact step

/-- **A scan from a later line** has the same results on later lines. -/
theorem scanFrom_add (line shift : Nat) (source : List Char) :
    scanFrom (line + shift) source =
      (scanFrom line source).map (ScanResult.mapLines (· + shift)) := by
  fun_induction scanFrom line source with
  | case1 line => simp [ScanResult.mapLines, Token.mapLines, Token.endOfInput]
  | case2 line rest hypothesis => rw [scanFrom_newline, ← hypothesis, Nat.add_right_comm]
  | case3 line first rest visible blank hypothesis => rw [scanFrom_blank _ blank, hypothesis]
  | case4 line rest visible solid hypothesis => rw [scanFrom_comment, hypothesis]
  | case5 line first rest visible solid code lexeme found shorter hypothesis =>
    have place : lexeme.lastLine (line + shift) = lexeme.lastLine line + shift :=
      Nat.add_right_comm ..
    rw [scanFrom_lexeme _ found, List.map_cons, ← hypothesis, Lexeme.token, place]
    rfl
  | case6 line rest visible solid code nothing =>
    rw [scanFrom_unterminated _ nothing]
    rfl
  | case7 line first rest visible solid code nothing plain hypothesis =>
    rw [scanFrom_unexpected _ visible (by simpa using solid) code plain nothing, hypothesis]
    rfl

/-! ### Texts that break off -/

/-- **The results of a text that breaks off**: they are those of the whole text up to the end of the
input, or up to a quote that is not closed. -/
inductive BreaksOff : List ScanResult → List ScanResult → Prop
  | ended (line : Nat) (whole : List ScanResult) : BreaksOff [.ok (.endOfInput line)] whole
  | unclosed (line : Nat) (last : Token) (whole : List ScanResult) :
      BreaksOff [.error ⟨line, .unterminatedText⟩, .ok last] whole
  | token {token : Token} {part whole : List ScanResult} (inside : token.kind ≠ .endOfInput)
      (later : BreaksOff part whole) : BreaksOff (.ok token :: part) (.ok token :: whole)
  | fault {fault : ParseError} {part whole : List ScanResult} (later : BreaksOff part whole) :
      BreaksOff (.error fault :: part) (.error fault :: whole)

/-- **A text breaks off at a newline**, whatever stands behind it. -/
theorem scanFrom_breaksOff (line : Nat) (source more : List Char) :
    BreaksOff (scanFrom line source) (scanFrom line (source ++ '\n' :: more)) := by
  fun_induction scanFrom line source with
  | case1 line => exact .ended line _
  | case2 line rest hypothesis =>
    rw [List.cons_append, scanFrom_newline]
    exact hypothesis
  | case3 line first rest visible blank hypothesis =>
    rw [List.cons_append, scanFrom_blank line blank]
    exact hypothesis
  | case4 line rest visible solid hypothesis =>
    rw [List.cons_append, scanFrom_comment, dropWhile_append_newline]
    exact hypothesis
  | case5 line first rest visible solid code lexeme found shorter hypothesis =>
    have step : scanFrom line (first :: rest ++ '\n' :: more) = _ :=
      scanFrom_lexeme line (Lexeme.read?_append_newline more found)
    rw [step]
    exact .token (Lexeme.kind_ne_endOfInput found) hypothesis
  | case6 line rest visible solid code nothing => exact .unclosed line _ _
  | case7 line first rest visible solid code nothing plain hypothesis =>
    have step : scanFrom line (first :: rest ++ '\n' :: more) = _ :=
      scanFrom_unexpected line visible (by simpa using solid) code plain
        (Lexeme.read?_append_newline_eq_none more nothing plain)
    rw [step]
    exact .fault hypothesis

end Scriptlet
