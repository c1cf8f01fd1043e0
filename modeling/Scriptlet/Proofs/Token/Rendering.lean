/-
**Words written down with any gaps, and scanned again.**

A rendering chooses what stands around its words: blanks, newlines and comments, as many as one
likes, but at least one character between two words. Nothing of that choice is left in the scan but
the lines.

* `Rendering`: words with the gap behind each of them, and a gap in front of all.
* `Gap.parted`: a gap that is not empty continues no word, so no two words grow together.
* `scanFrom_rendering`: the scan of a rendering, word by word, from any line on.
* `scan_rendering`: **a rendering scans to its words**, each of its kind and on the line it ends on,
  and to nothing else.
-/

import Scriptlet.Proofs.Token.Layout

namespace Scriptlet

/-- A word with the gap behind it. -/
abbrev SpacedWord := Word × List Char

/-- **Words with gaps around them**; only the first and the last gap may be empty. -/
structure Rendering where
  /-- The gap in front of all words. -/
  opening : List Char
  /-- The words in order, each with the gap behind it. -/
  parts : List SpacedWord
  opening_gap : Gap opening
  gaps : ∀ part ∈ parts, Gap part.2
  /-- Between two words stands at least one character. -/
  apart : ∀ part ∈ parts.dropLast, part.2 ≠ []
  spelled : ∀ part ∈ parts, part.1.Spelled

/-- The characters of words and gaps, behind an opening gap. -/
def renderedText (opening : List Char) (parts : List SpacedWord) : List Char :=
  opening ++ parts.flatMap fun part => part.1.text ++ part.2

/-- **The text of a rendering.** -/
def Rendering.text (rendering : Rendering) : String :=
  String.ofList (renderedText rendering.opening rendering.parts)

theorem renderedText_cons (opening : List Char) (part : SpacedWord) (parts : List SpacedWord) :
    renderedText opening (part :: parts) =
      opening ++ part.1.text ++ renderedText part.2 parts := by
  simp [renderedText]

/-- A gap begins with a separator. -/
theorem Gap.parted {gap : List Char} (is : Gap gap) : Parted gap := by
  cases is with
  | nothing => nofun
  | blank blank later =>
    rintro character ⟨⟩
    simp [isSeparator, blank]
  | newline later =>
    rintro character ⟨⟩
    rfl
  | comment oneLine later =>
    rintro character ⟨⟩
    rfl

/-- What follows a word in a rendering does not continue it. -/
theorem parted_renderedText {gap : List Char} {parts : List SpacedWord} (is : Gap gap)
    (apart : parts ≠ [] → gap ≠ []) : Parted (renderedText gap parts) := by
  rcases gap with _ | ⟨first, others⟩
  · have last : parts = [] := Decidable.of_not_not fun more => apart more rfl
    rw [last]
    exact nofun
  · exact is.parted

/-- **The tokens of words on the lines they end on**, and nothing else, from a line on. -/
def ScansTo (line : Nat) (opening : List Char) (parts : List SpacedWord)
    (results : List ScanResult) : Prop :=
  ∃ tokens : List Token,
    results = tokens.map .ok ++
      [.ok (.endOfInput (line + (renderedText opening parts).count '\n'))] ∧
    tokens.length = parts.length ∧
    ∀ before word gap behind, parts = before ++ (word, gap) :: behind →
      tokens[before.length]? = some ⟨word.kind, String.ofList word.text,
        line + (renderedText opening before ++ word.text).count '\n'⟩

/-- A word in front is the first token, and the others move up behind it. -/
theorem ScansTo.cons {line : Nat} {opening gap : List Char} {word : Word}
    {parts : List SpacedWord} {results : List ScanResult}
    (later : ScansTo (line + (opening ++ word.text).count '\n') gap parts results) :
    ScansTo line opening ((word, gap) :: parts)
      (.ok ⟨word.kind, String.ofList word.text, line + (opening ++ word.text).count '\n'⟩ ::
        results) := by
  obtain ⟨tokens, rfl, length, placed⟩ := later
  refine ⟨⟨word.kind, String.ofList word.text, line + (opening ++ word.text).count '\n'⟩ :: tokens,
    ?_, by simp [length], ?_⟩
  · simp only [renderedText_cons, List.count_append, Nat.add_assoc, List.map_cons,
      List.cons_append]
  · intro before other behindGap behind split
    rcases before with _ | ⟨front, before⟩
    · obtain ⟨same, rfl⟩ := List.cons.inj split
      obtain ⟨rfl, rfl⟩ := Prod.mk.inj same
      simp [renderedText]
    · obtain ⟨rfl, rfl⟩ := List.cons.inj split
      rw [List.length_cons, List.getElem?_cons_succ, placed before other behindGap behind rfl,
        renderedText_cons]
      simp only [List.count_append, Nat.add_assoc]

/-- **A rendering is scanned word by word**, from any line on. -/
theorem scanFrom_rendering (line : Nat) {opening : List Char} {parts : List SpacedWord}
    (front : Gap opening) (gaps : ∀ part ∈ parts, Gap part.2)
    (apart : ∀ part ∈ parts.dropLast, part.2 ≠ []) (spelled : ∀ part ∈ parts, part.1.Spelled) :
    ScansTo line opening parts (scanFrom line (renderedText opening parts)) := by
  induction parts generalizing line opening with
  | nil =>
    refine ⟨[], ?_, rfl, by simp⟩
    have skipped := scanFrom_gap front line []
    rw [scanFrom_nil] at skipped
    simpa [renderedText] using skipped
  | cons part rest hypothesis =>
    obtain ⟨word, gap⟩ := part
    have behind : Gap gap := gaps (word, gap) List.mem_cons_self
    have divided : rest ≠ [] → gap ≠ [] := by
      intro more
      refine apart (word, gap) ?_
      rw [List.dropLast_cons_of_ne_nil more]
      exact List.mem_cons_self
    have later := hypothesis (line + (opening ++ word.text).count '\n') behind
      (fun part member => gaps part (List.mem_cons_of_mem _ member))
      (fun part member => apart part (by
        rcases rest with _ | ⟨second, others⟩
        · cases member
        · exact List.mem_cons_of_mem _ member))
      (fun part member => spelled part (List.mem_cons_of_mem _ member))
    rw [renderedText_cons, scanFrom_word front (spelled (word, gap) List.mem_cons_self)
      (parted_renderedText behind divided)]
    exact later.cons

/-- **A rendering scans to its words**, whatever stands between them: there is one token for each
word and no fault, every token has the kind and the characters of its word, and its line is one
more than the newlines in all that is written up to its end. -/
theorem scan_rendering (rendering : Rendering) :
    ∃ tokens : List Token,
      scan rendering.text = tokens.map .ok ++
        [.ok (.endOfInput (1 + rendering.text.toList.count '\n'))] ∧
      tokens.length = rendering.parts.length ∧
      ∀ before word gap behind, rendering.parts = before ++ (word, gap) :: behind →
        tokens[before.length]? = some ⟨word.kind, String.ofList word.text,
          1 + (renderedText rendering.opening before ++ word.text).count '\n'⟩ := by
  have scanned := scanFrom_rendering 1 rendering.opening_gap rendering.gaps rendering.apart
    rendering.spelled
  rw [scan, Rendering.text, String.toList_ofList]
  exact scanned

/-- A number in front of a comment with a quote in it, a string with the mark of a comment in it,
and a range are three tokens. -/
theorem scan_rendering_commented :
    ∃ tokens : List Token,
      scan "1# \"\n\"#\n\" 2..3" = tokens.map .ok ++ [.ok (.endOfInput 3)] ∧
      tokens.length = 3 ∧ tokens[1]? = some ⟨.text, "\"#\n\"", 3⟩ := by
  have one : Word.Spelled ⟨.number, ['1']⟩ :=
    ⟨by decide, _, .whole (show IsDigits ['1'] by decide)⟩
  have quoted : Word.Spelled ⟨.text, ['"', '#', '\n', '"']⟩ :=
    ⟨by decide, ['#', '\n'], by decide, rfl⟩
  have range : Word.Spelled ⟨.range .inclusive, ['2', '.', '.', '3']⟩ :=
    ⟨by decide, ['2'], ['3'], by decide, by decide, rfl⟩
  have comment : Gap ['#', ' ', '"', '\n'] :=
    .comment (show '\n' ∉ [' ', '"'] by decide) .nothing
  have blank : Gap [' '] := .blank rfl .nothing
  let rendering : Rendering :=
    { opening := []
      parts := [(⟨.number, ['1']⟩, ['#', ' ', '"', '\n']),
        (⟨.text, ['"', '#', '\n', '"']⟩, [' ']), (⟨.range .inclusive, ['2', '.', '.', '3']⟩, [])]
      opening_gap := .nothing
      gaps := by simp [comment, blank, Gap.nothing]
      apart := by simp
      spelled := by simp [one, quoted, range] }
  have text : rendering.text = "1# \"\n\"#\n\" 2..3" := rfl
  have lines : 1 + rendering.text.toList.count '\n' = 3 := by simp [text]
  obtain ⟨tokens, scanned, length, placed⟩ := scan_rendering rendering
  rw [lines, text] at scanned
  exact ⟨tokens, scanned, length, placed [_] _ _ [_] rfl⟩

end Scriptlet
