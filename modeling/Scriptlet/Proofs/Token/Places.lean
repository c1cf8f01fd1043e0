/-
**Where the results of a scan stand.**

A scan goes through a text from left to right and counts the newlines that it has passed. So every
token and every fault, not only those up to the first fault, stands at a place of the text, and its
line tells how many newlines are in front of that place: a token is placed where it ends, a fault
where the character stands that it is about.

* `StandsIn`: a result stands at a place of a text that begins on a line.
* `standsIn_of_mem_scanFrom`: **so does every result of a scan.**
* `StandsIn.line_le`: its line is no line outside of the text.
-/

import Scriptlet.Proofs.Token.Junction

namespace Scriptlet

/-- The line of a token or of a fault. -/
def ScanResult.line : ScanResult → Nat
  | .ok token => token.line
  | .error fault => fault.line

/-- **A result stands at a place of a text**: its line is that of the place, and if it is a fault,
the tokens of the text end there with this fault. -/
def StandsIn (line : Nat) (source : List Char) (result : ScanResult) : Prop :=
  ∃ before behind, source = before ++ behind ∧
    ScanResult.line result = line + before.count '\n' ∧
    ∀ fault, result = .error fault → ∃ later, Ending fault.line behind (.error fault :: later)

namespace StandsIn

variable {line : Nat} {source rest : List Char} {result : ScanResult}

/-- A token stands behind any part of the text with the right number of newlines. -/
theorem ofToken {token : Token} (before behind : List Char) (split : source = before ++ behind)
    (place : token.line = line + before.count '\n') : StandsIn line source (.ok token) :=
  ⟨before, behind, split, place, nofun⟩

/-- A fault at the front of a text. -/
theorem ofFault {fault : ParseFault} {later : List ScanResult}
    (ends : Ending line source (.error ⟨line, fault⟩ :: later)) :
    StandsIn line source (.error ⟨line, fault⟩) := by
  refine ⟨[], source, rfl, rfl, ?_⟩
  rintro _ ⟨⟩
  exact ⟨later, ends⟩

/-- What stands in the rest of a text stands in the whole text. -/
theorem behind (front : List Char) (stands : StandsIn (line + front.count '\n') rest result) :
    StandsIn line (front ++ rest) result := by
  obtain ⟨before, behind, rfl, place, faulty⟩ := stands
  refine ⟨front ++ before, behind, (List.append_assoc ..).symm, ?_, faulty⟩
  rw [place, List.count_append, Nat.add_assoc]

/-- A character that is no newline is passed on the same line. -/
theorem next {first : Char} (visible : first ≠ '\n') (stands : StandsIn line rest result) :
    StandsIn line (first :: rest) result := by
  have place : line + [first].count '\n' = line := by
    rw [List.count_cons_of_ne visible]
    rfl
  exact behind [first] (place.symm ▸ stands)

/-- **A result is on a line of the text.** -/
theorem line_le (stands : StandsIn line source result) :
    line ≤ ScanResult.line result ∧ ScanResult.line result ≤ line + source.count '\n' := by
  obtain ⟨before, behind, rfl, place, -⟩ := stands
  rw [place, List.count_append]
  omega

end StandsIn

/-- **Every result of a scan stands in the text.** -/
theorem standsIn_of_mem_scanFrom {line : Nat} {source : List Char} {result : ScanResult}
    (member : result ∈ scanFrom line source) : StandsIn line source result := by
  fun_induction scanFrom line source with
  | case1 line =>
    obtain rfl := List.mem_singleton.mp member
    exact .ofToken [] [] rfl rfl
  | case2 line rest hypothesis => exact StandsIn.behind ['\n'] (hypothesis member)
  | case3 line first rest visible blank hypothesis => exact (hypothesis member).next visible
  | case4 line rest visible solid hypothesis =>
    have comment := List.count_eq_zero_of_not_mem (not_mem_takeWhile_newline rest)
    have place : line + (rest.takeWhile (· ≠ '\n')).count '\n' = line := by
      rw [comment, Nat.add_zero]
    have whole := StandsIn.behind (rest.takeWhile (· ≠ '\n')) (place.symm ▸ hypothesis member)
    rw [List.takeWhile_append_dropWhile] at whole
    exact whole.next visible
  | case5 line first rest visible solid code lexeme found shorter hypothesis =>
    rw [← Lexeme.read?_append found]
    rcases List.mem_cons.mp member with rfl | later
    · exact .ofToken lexeme.text lexeme.rest rfl rfl
    · exact StandsIn.behind lexeme.text (hypothesis later)
  | case6 line rest visible solid code nothing =>
    have ends : Ending line ('"' :: rest) [.error ⟨line, .unterminatedText⟩] :=
      .unclosed (Lexeme.not_mem_of_read? nothing)
    rcases List.mem_cons.mp member with rfl | later
    · exact .ofFault ends
    · obtain rfl := List.mem_singleton.mp later
      exact .ofToken [] _ rfl rfl
  | case7 line first rest visible solid code nothing plain hypothesis =>
    have clear : isSeparator first = false := by simp [isSeparator, visible, solid, code]
    have ends : Ending line (first :: rest) [.error ⟨line, .unexpectedCharacter first⟩] :=
      .unexpected (fun _ token => Lexeme.not_prefix_of_read? nothing token) clear plain
    rcases List.mem_cons.mp member with rfl | later
    · exact .ofFault ends
    · exact (hypothesis later).next visible

end Scriptlet
