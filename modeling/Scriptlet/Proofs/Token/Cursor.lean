/-
**A cursor moves over the fixed results of a scan.**

The abstract side is a place in a sequence that never changes: the tokens and faults of a scan, with
the end of the input repeated for ever. A place knows the position of the token in front, the
position of the token consumed last, unless that was taken back, and how many results have been
looked at; faults among these have been reported and are passed over. The concrete side is a cursor
with a stream that is used up, a previous token and a pending one. They are related as long as
there are only faults between the positions of neighbouring tokens, and a token is pending only when
none is previous (`Follows`); every request keeps that.

* `Cursor.Request`, `Cursor.answer`, `transcript`: requests to a cursor and all that it answers.
* `endless`, `Place`, `Place.answer`: the sequence of results, and a place that answers requests.
* `Follows.advance`, `Follows.rewind`, `Follows.step`: **a request is answered the same and keeps
  cursor and place related.**
* `cursor_follows_results`: **a cursor answers as a place does**, and the tokens that it has
  consumed are the first ones of the text, in order, none of them lost or doubled.
-/

import Mathlib.Algebra.Ring.Int.Defs
import Mathlib.Data.List.GetD
import Mathlib.Data.Nat.Nth
import Scriptlet.Proofs.Token.Places
import Scriptlet.Proofs.Token.Stream

namespace Scriptlet

/-! ### Requests -/

namespace Cursor

/-- What a cursor is asked for. -/
inductive Request where
  | peek
  | previous
  | line
  | atEnd
  | check (kind : TokenKind)
  | accept (kind : TokenKind)
  | expect (kind : TokenKind)
  | advance
  | rewind

/-- What a cursor answers. -/
inductive Answer where
  | front (token : Token)
  | last (token : Option Token)
  | line (number : Nat)
  | holds (truth : Bool)
  | accepted (result : Except ParseError Bool)
  | consumed (result : Except ParseError Token)
  | steppedBack (done : Bool)

/-- **A cursor answers a request.** -/
def answer (cursor : Cursor) : Request → Answer × Cursor
  | .peek => (.front cursor.stream.current, cursor)
  | .previous => (.last cursor.previous, cursor)
  | .line => (.line cursor.stream.line, cursor)
  | .atEnd => (.holds cursor.stream.atEnd, cursor)
  | .check kind => (.holds (cursor.stream.check kind), cursor)
  | .accept kind => ((cursor.accept kind).map .accepted id)
  | .expect kind => ((cursor.expect kind).map .consumed id)
  | .advance => (cursor.advance.map .consumed id)
  | .rewind => (cursor.rewind.map .steppedBack id)

end Cursor

open Cursor (Request Answer)

/-- **All answers to requests one after another**, and the state behind the last one. -/
def transcript {σ : Type} (answer : σ → Request → Answer × σ) (state : σ) :
    List Request → List Answer × σ
  | [] => ([], state)
  | request :: rest =>
    let (first, next) := answer state request
    let (others, last) := transcript answer next rest
    (first :: others, last)

/-- How many tokens further on the cursor is behind an answer. -/
def Cursor.Answer.moves : Answer → ℤ
  | .accepted (.ok true) | .consumed (.ok _) => 1
  | .steppedBack true => -1
  | _ => 0

/-- The faults of a scan, as opposed to those of its reader. -/
def ParseFault.isLexical : ParseFault → Bool
  | unexpectedCharacter _ | unterminatedText => true
  | _ => false

/-- The fault of the scan that an answer reports. -/
def Cursor.Answer.fault? : Answer → Option ParseError
  | .accepted (.error error) | .consumed (.error error) =>
    if error.fault.isLexical then some error else none
  | _ => none

/-! ### Places in a sequence -/

/-- **The results of a scan as an endless sequence**: the last one, which is the end of the input,
is repeated for ever. -/
def endless (results : List ScanResult) (position : ℕ) : ScanResult :=
  results.getD position (results.getLastD (.ok (.endOfInput 1)))

/-- The token at a position; a fault stands for the end of the input. -/
def tokenAt (sequence : ℕ → ScanResult) (position : ℕ) : Token :=
  match sequence position with
  | .ok token => token
  | .error fault => .endOfInput fault.line

/-- The error of a token in the place of another kind of token. -/
def Token.misplaced (token : Token) (kind : TokenKind) : ParseError :=
  if token.kind = .endOfInput then ⟨token.line, .unexpectedEnd⟩
  else ⟨token.line, .expectedToken kind token.lexeme⟩

/-- **A place in a sequence of results.** -/
structure Place where
  /-- The position of the token in front. -/
  current : ℕ
  /-- The position of the token consumed last, unless it was taken back. -/
  previous : Option ℕ
  /-- The number of results that have been looked at; the faults among them are passed over. -/
  seen : ℕ

namespace Place

variable (sequence : ℕ → ScanResult) (place : Place)

theorem exists_next :
    ∃ position, place.current < position ∧
      (place.seen ≤ position ∨ (sequence position).isOk = true) :=
  ⟨max (place.current + 1) place.seen, by omega, .inl (by omega)⟩

/-- **The position behind the token in front**: that of the next result, except for the faults that
have been reported. -/
def next : ℕ := Nat.find (place.exists_next sequence)

/-- **Move on to the next token**; a fault in its place is reported and passed over. -/
def advance : Except ParseError Token × Place :=
  match sequence (place.next sequence) with
  | .ok _ =>
    (.ok (tokenAt sequence place.current),
      ⟨place.next sequence, some place.current, max place.seen (place.next sequence + 1)⟩)
  | .error fault => (.error fault, { place with seen := place.next sequence + 1 })

/-- **Move back over the token consumed last**, if it was not taken back already. -/
def rewind : Bool × Place :=
  match place.previous with
  | none => (false, place)
  | some earlier => (true, ⟨earlier, none, place.seen⟩)

/-- **A place answers a request.** -/
def answer : Request → Answer × Place
  | .peek => (.front (tokenAt sequence place.current), place)
  | .previous => (.last (place.previous.map (tokenAt sequence)), place)
  | .line => (.line (tokenAt sequence place.current).line, place)
  | .atEnd => (.holds ((tokenAt sequence place.current).kind = .endOfInput), place)
  | .check kind => (.holds ((tokenAt sequence place.current).kind = kind), place)
  | .accept kind =>
    if (tokenAt sequence place.current).kind = kind then
      (place.advance sequence).map (fun result => .accepted (result.map fun _ => true)) id
    else (.accepted (.ok false), place)
  | .expect kind =>
    if (tokenAt sequence place.current).kind = kind then
      (place.advance sequence).map .consumed id
    else (.consumed (.error ((tokenAt sequence place.current).misplaced kind)), place)
  | .advance => (place.advance sequence).map .consumed id
  | .rewind => place.rewind.map .steppedBack id

/-- The place of the first token, when nothing has been consumed. -/
def start : Place := ⟨0, none, 1⟩

end Place

/-! ### Tokens and faults of a sequence -/

section Sequence

variable {sequence : ℕ → ScanResult}

/-- Only faults stand between two positions. -/
def OnlyFaults (sequence : ℕ → ScanResult) (first last : ℕ) : Prop :=
  first < last ∧
    ∀ position, first < position → position < last → (sequence position).isOk = false

theorem OnlyFaults.succ (position : ℕ) : OnlyFaults sequence position (position + 1) :=
  ⟨by omega, fun _ _ _ => by omega⟩

theorem OnlyFaults.extend {first last : ℕ} (gap : OnlyFaults sequence first last)
    (fault : (sequence last).isOk = false) : OnlyFaults sequence first (last + 1) := by
  refine ⟨by have := gap.1; omega, fun position behind before => ?_⟩
  by_cases same : position = last
  · exact same ▸ fault
  · exact gap.2 position behind (by omega)

/-- The next position is the first one behind a gap that has not been passed over. -/
theorem Place.next_eq {place : Place} {later : ℕ} (gap : OnlyFaults sequence place.current later)
    (known : later ≤ place.seen) (stops : place.seen ≤ later ∨ (sequence later).isOk = true) :
    place.next sequence = later := by
  refine (Nat.find_eq_iff _).mpr ⟨⟨gap.1, stops⟩, ?_⟩
  rintro position before ⟨behind, unseen | token⟩
  · omega
  · rw [gap.2 position behind before] at token
    cases token

/-- **The number of tokens in front of a position.** -/
def rank (sequence : ℕ → ScanResult) (position : ℕ) : ℕ :=
  Nat.count (fun position => (sequence position).isOk = true) position

/-- From one token to the next the number of tokens grows by one. -/
theorem rank_of_gap {first last : ℕ} (gap : OnlyFaults sequence first last)
    (token : (sequence first).isOk = true) : rank sequence last = rank sequence first + 1 := by
  obtain ⟨less, faults⟩ := gap
  induction last, less using Nat.le_induction with
  | base => rw [rank, Nat.count_succ, if_pos token, rank]
  | succ last less hypothesis =>
    have fault := faults last less (Nat.lt_succ_self last)
    rw [rank, Nat.count_succ, if_neg (by rw [fault]; decide), Nat.add_zero]
    exact hypothesis fun position behind before => faults position behind (by omega)

/-- **The faults in front of a position**, in order. -/
def faultsBefore (sequence : ℕ → ScanResult) (position : ℕ) : List ParseError :=
  (List.range position).filterMap fun earlier =>
    match sequence earlier with
    | .ok _ => none
    | .error fault => some fault

theorem faultsBefore_succ_ok {position : ℕ} {token : Token} (held : sequence position = .ok token) :
    faultsBefore sequence (position + 1) = faultsBefore sequence position := by
  simp [faultsBefore, List.range_succ, held]

theorem faultsBefore_succ_error {position : ℕ} {fault : ParseError}
    (held : sequence position = .error fault) :
    faultsBefore sequence (position + 1) = faultsBefore sequence position ++ [fault] := by
  simp [faultsBefore, List.range_succ, held]

theorem tokenAt_eq {position : ℕ} {token : Token} (held : sequence position = .ok token) :
    tokenAt sequence position = token := by
  rw [tokenAt, held]

end Sequence

/-! ### The results of a scan -/

section Results

variable {results : List ScanResult} {position : ℕ}

theorem endless_of_lt (inside : position < results.length) :
    results.drop position = endless results position :: results.drop (position + 1) := by
  rw [List.drop_eq_getElem_cons inside, endless, List.getD_eq_getElem _ _ inside]

/-- A scan ends with a token, which is then repeated. -/
theorem Scanned.exists_last (scanned : Scanned results) :
    ∃ token, ∀ position, results.length ≤ position + 1 → endless results position = .ok token := by
  have last : ∃ token, results.getLast? = some (.ok token) := by
    induction scanned with
    | endOfInput line => exact ⟨_, rfl⟩
    | token _ _ later hypothesis | fault later hypothesis =>
      obtain ⟨token, last⟩ := hypothesis
      refine ⟨token, ?_⟩
      rw [List.getLast?_cons, last]
      rfl
  obtain ⟨token, last⟩ := last
  refine ⟨token, fun position beyond => ?_⟩
  have repeated : results.getLastD (.ok (.endOfInput 1)) = .ok token := by
    rw [List.getLastD_eq_getLast?, last]
    rfl
  unfold endless
  rw [repeated]
  by_cases inside : position < results.length
  · rw [List.getLast?_eq_getElem?] at last
    have same : results.length - 1 = position := by omega
    rw [List.getD_eq_getElem?_getD, ← same, last]
    rfl
  · exact List.getD_eq_default _ _ (by omega)

/-- Behind the results of a scan there is nothing but its last token. -/
theorem Scanned.endless_of_gap (scanned : Scanned results) {current seen : ℕ}
    (gap : OnlyFaults (endless results) current seen) (beyond : results.length ≤ seen) :
    endless results seen = endless results current := by
  obtain ⟨token, last⟩ := scanned.exists_last
  rw [last seen (by omega)]
  by_cases late : results.length ≤ current + 1
  · exact (last current late).symm
  · -- the last token would stand in a gap where there are only faults
    have fault := gap.2 (results.length - 1) (by omega) (by omega)
    rw [last (results.length - 1) (by omega)] at fault
    cases fault

/-- **A stream behind a gap moves on to the next result.** -/
theorem Scanned.advance_drop (scanned : Scanned results) {token : Token} {current seen : ℕ}
    (front : endless results current = .ok token)
    (gap : OnlyFaults (endless results) current seen) :
    Stream.advance ⟨token, results.drop seen⟩ =
      (endless results seen).map fun next => (token, ⟨next, results.drop (seen + 1)⟩) := by
  unfold Stream.advance
  by_cases inside : seen < results.length
  · rw [endless_of_lt inside]
    rcases endless results seen with fault | next
    · rfl
    · rfl
  · rw [scanned.endless_of_gap gap (by omega), front, List.drop_eq_nil_of_le (by omega),
      List.drop_eq_nil_of_le (by omega)]
    rfl

/-- A fault in the sequence is one of the results. -/
theorem Scanned.mem_of_endless (scanned : Scanned results) {fault : ParseError}
    (held : endless results position = .error fault) : .error fault ∈ results := by
  by_cases inside : position < results.length
  · have member := List.mem_of_mem_drop (endless_of_lt inside ▸ List.mem_cons_self)
    rwa [held] at member
  · obtain ⟨token, last⟩ := scanned.exists_last
    rw [last position (by omega)] at held
    cases held

end Results

/-! ### A cursor and its place -/

/-- A remembered token stands in front of the current one, with only faults between them. -/
inductive Remembers (sequence : ℕ → ScanResult) (current : ℕ) : Option Token → Option ℕ → Prop
  | nothing : Remembers sequence current none none
  | token {token : Token} {earlier : ℕ} (held : sequence earlier = .ok token)
      (gap : OnlyFaults sequence earlier current) :
      Remembers sequence current (some token) (some earlier)

/-- **A cursor follows the results of a scan**: its stream holds what has not been looked at, and a
token is pending only if none is remembered. -/
inductive Follows (results : List ScanResult) : Cursor → Place → Prop
  | onward {token : Token} {previous : Option Token} {current seen : ℕ} {earlier : Option ℕ}
      (front : endless results current = .ok token)
      (gap : OnlyFaults (endless results) current seen)
      (memory : Remembers (endless results) current previous earlier) :
      Follows results ⟨⟨token, results.drop seen⟩, previous, none⟩ ⟨current, earlier, seen⟩
  | back {token pending : Token} {current later seen : ℕ}
      (front : endless results current = .ok token)
      (gap : OnlyFaults (endless results) current later)
      (waits : endless results later = .ok pending)
      (rest : OnlyFaults (endless results) later seen) :
      Follows results ⟨⟨token, results.drop seen⟩, none, some pending⟩ ⟨current, none, seen⟩

/-- What an answer tells about the tokens and faults between two places. -/
structure Accounts (sequence : ℕ → ScanResult) (place after : Place) (answer : Answer) : Prop where
  tokens : (rank sequence after.current : ℤ) = rank sequence place.current + answer.moves
  faults : faultsBefore sequence after.seen =
    faultsBefore sequence place.seen ++ answer.fault?.toList

section Accounts

variable {sequence : ℕ → ScanResult} {place after : Place}

/-- A request that moves nothing. -/
theorem Accounts.still {answer : Answer} (unmoved : answer.moves = 0)
    (faultless : answer.fault? = none) : Accounts sequence place place answer := by
  refine ⟨?_, ?_⟩
  · rw [unmoved, add_zero]
  · rw [faultless]
    exact (List.append_nil _).symm

/-- It makes no difference whether the consumed token is returned. -/
theorem Accounts.accepted {result : Except ParseError Token}
    (accounts : Accounts sequence place after (.consumed result)) :
    Accounts sequence place after (.accepted (result.map fun _ => true)) := by
  rcases result with fault | token
  · exact ⟨accounts.tokens, accounts.faults⟩
  · exact ⟨accounts.tokens, accounts.faults⟩

theorem Stream.missing_eq (stream : Stream) (kind : TokenKind) :
    stream.missing kind = stream.current.misplaced kind := by
  unfold Stream.missing Token.misplaced Stream.atEnd Stream.check
  by_cases ended : stream.current.kind = .endOfInput
  · rw [if_pos (decide_eq_true ended), if_pos ended]
    rfl
  · rw [if_neg (by simpa using ended), if_neg ended]
    rfl

/-- A token of another kind is no fault of the scan. -/
theorem Cursor.Answer.fault?_misplaced (token : Token) (kind : TokenKind) :
    (Answer.consumed (.error (token.misplaced kind))).fault? = none := by
  unfold Token.misplaced
  by_cases ended : token.kind = .endOfInput
  · rw [if_pos ended]
    rfl
  · rw [if_neg ended]
    rfl

end Accounts

namespace Follows

variable {results : List ScanResult} {cursor : Cursor} {place : Place}

/-- The token in front stands at the current position. -/
theorem front (follows : Follows results cursor place) :
    endless results place.current = .ok cursor.stream.current := by
  cases follows with
  | onward front => exact front
  | back front => exact front

theorem tokenAt_current (follows : Follows results cursor place) :
    tokenAt (endless results) place.current = cursor.stream.current :=
  tokenAt_eq follows.front

theorem tokenAt_previous (follows : Follows results cursor place) :
    place.previous.map (tokenAt (endless results)) = cursor.previous := by
  cases follows with
  | onward front gap memory =>
    cases memory with
    | nothing => rfl
    | token held gap => exact congrArg some (tokenAt_eq held)
  | back => rfl

/-- The remembered token stands in front of the current one. -/
theorem remembered (follows : Follows results cursor place) {token : Token}
    (known : cursor.previous = some token) :
    ∃ earlier, endless results earlier = .ok token ∧
      OnlyFaults (endless results) earlier place.current := by
  cases follows with
  | onward front gap memory =>
    cases memory with
    | nothing => cases known
    | token held between =>
      cases known
      exact ⟨_, held, between⟩
  | back => cases known

/-- **Consuming a token**: cursor and place return the same and stay related. A token moves both of
them on by one, a fault leaves them where they are. -/
theorem advance (scanned : Scanned results)
    (lexical : ∀ fault, .error fault ∈ results → fault.fault.isLexical = true)
    (follows : Follows results cursor place) :
    ∃ result next behind, cursor.advance = (result, next) ∧
      place.advance (endless results) = (result, behind) ∧ Follows results next behind ∧
      Accounts (endless results) place behind (.consumed result) := by
  cases follows with
  | @onward token previous current seen earlier front gap memory =>
    have next : Place.next (endless results) ⟨current, earlier, seen⟩ = seen :=
      Place.next_eq gap (Nat.le_refl _) (.inl (Nat.le_refl _))
    have step := scanned.advance_drop front gap
    rw [Cursor.advance, Place.advance, next, step, tokenAt_eq front]
    cases held : endless results seen with
    | ok found =>
      have last : max seen (seen + 1) = seen + 1 := by omega
      refine ⟨_, _, _, rfl, rfl, ?_, ?_, ?_⟩
      · rw [last]
        exact .onward held (.succ seen) (.token front gap)
      · show (rank (endless results) seen : ℤ) = rank (endless results) current + 1
        rw [rank_of_gap gap (by rw [front]; rfl)]
        rfl
      · show faultsBefore _ (max seen (seen + 1)) = _
        rw [last, faultsBefore_succ_ok held]
        exact (List.append_nil _).symm
    | error fault =>
      have lexed : fault.fault.isLexical = true := lexical fault (scanned.mem_of_endless held)
      refine ⟨_, _, _, rfl, rfl, ?_, ?_, ?_⟩
      · rw [Cursor.skipFault, List.tail_drop]
        exact .onward front (gap.extend (by rw [held]; rfl)) memory
      · exact (add_zero _).symm
      · show faultsBefore _ (seen + 1) = _
        rw [faultsBefore_succ_error held, Answer.fault?, if_pos lexed]
        rfl
  | @back token pending current later seen front gap waits rest =>
    have next : Place.next (endless results) ⟨current, none, seen⟩ = later :=
      Place.next_eq gap rest.1.le (.inr (by rw [waits]; rfl))
    have last : max seen (later + 1) = seen := by
      have := rest.1
      omega
    rw [Cursor.advance, Place.advance, next, waits, tokenAt_eq front]
    refine ⟨_, _, _, rfl, rfl, ?_, ?_, ?_⟩
    · rw [last]
      exact .onward waits rest (.token front gap)
    · show (rank (endless results) later : ℤ) = rank (endless results) current + 1
      rw [rank_of_gap gap (by rw [front]; rfl)]
      rfl
    · show faultsBefore _ (max seen (later + 1)) = _
      rw [last]
      exact (List.append_nil _).symm

/-- **Stepping back**: it is refused to both, or takes both back over the token consumed last. -/
theorem rewind (follows : Follows results cursor place) :
    ∃ done next behind, cursor.rewind = (done, next) ∧ place.rewind = (done, behind) ∧
      Follows results next behind ∧
      Accounts (endless results) place behind (.steppedBack done) := by
  cases follows with
  | @onward token previous current seen earlier front gap memory =>
    cases memory with
    | nothing =>
      refine ⟨_, _, _, rfl, rfl, .onward front gap .nothing, ?_, ?_⟩
      · exact (add_zero _).symm
      · exact (List.append_nil _).symm
    | @token before earlier held between =>
      refine ⟨_, _, _, rfl, rfl, .back held between front gap, ?_, ?_⟩
      · show (rank (endless results) earlier : ℤ) = rank (endless results) current + -1
        have grown := rank_of_gap between (by rw [held]; rfl)
        omega
      · exact (List.append_nil _).symm
  | back front gap waits rest =>
    refine ⟨_, _, _, rfl, rfl, .back front gap waits rest, ?_, ?_⟩
    · exact (add_zero _).symm
    · exact (List.append_nil _).symm

/-- **Every request is answered the same and keeps cursor and place related.** -/
theorem step (scanned : Scanned results)
    (lexical : ∀ fault, .error fault ∈ results → fault.fault.isLexical = true)
    (follows : Follows results cursor place) (request : Request) :
    ∃ answer next behind, cursor.answer request = (answer, next) ∧
      place.answer (endless results) request = (answer, behind) ∧ Follows results next behind ∧
      Accounts (endless results) place behind answer := by
  have current := follows.tokenAt_current
  cases request with
  | peek =>
    refine ⟨_, _, _, rfl, ?_, follows, .still rfl rfl⟩
    rw [Place.answer, current]
  | previous =>
    refine ⟨_, _, _, rfl, ?_, follows, .still rfl rfl⟩
    rw [Place.answer, follows.tokenAt_previous]
  | line =>
    refine ⟨_, _, _, rfl, ?_, follows, .still rfl rfl⟩
    rw [Place.answer, current]
    rfl
  | atEnd =>
    refine ⟨_, _, _, rfl, ?_, follows, .still rfl rfl⟩
    rw [Place.answer, current]
    rfl
  | check kind =>
    refine ⟨_, _, _, rfl, ?_, follows, .still rfl rfl⟩
    rw [Place.answer, current]
    rfl
  | accept kind =>
    rw [Cursor.answer, Cursor.accept, Place.answer, current, Stream.check]
    by_cases same : cursor.stream.current.kind = kind
    · obtain ⟨result, next, behind, moved, placed, later, accounts⟩ :=
        follows.advance scanned lexical
      rw [if_pos (decide_eq_true same), if_pos same, moved, placed]
      exact ⟨_, _, _, rfl, rfl, later, accounts.accepted⟩
    · rw [if_neg (by simpa using same), if_neg same]
      exact ⟨_, _, _, rfl, rfl, follows, .still rfl rfl⟩
  | expect kind =>
    rw [Cursor.answer, Cursor.expect, Place.answer, current, Stream.check]
    by_cases same : cursor.stream.current.kind = kind
    · obtain ⟨result, next, behind, moved, placed, later, accounts⟩ :=
        follows.advance scanned lexical
      rw [if_pos (decide_eq_true same), if_pos same, moved, placed]
      exact ⟨_, _, _, rfl, rfl, later, accounts⟩
    · rw [if_neg (by simpa using same), if_neg same, Stream.missing_eq]
      exact ⟨_, _, _, rfl, rfl, follows, .still rfl (Answer.fault?_misplaced _ kind)⟩
  | advance =>
    obtain ⟨result, next, behind, moved, placed, later, accounts⟩ := follows.advance scanned lexical
    rw [Cursor.answer, Place.answer, moved, placed]
    exact ⟨_, _, _, rfl, rfl, later, accounts⟩
  | rewind =>
    obtain ⟨done, next, behind, moved, placed, later, accounts⟩ := follows.rewind
    rw [Cursor.answer, Place.answer, moved, placed]
    exact ⟨_, _, _, rfl, rfl, later, accounts⟩

/-- **So are all requests one after another**, and the tokens and faults of the answers add up. -/
theorem transcript (scanned : Scanned results)
    (lexical : ∀ fault, .error fault ∈ results → fault.fault.isLexical = true)
    (follows : Follows results cursor place) (requests : List Request) :
    ∃ answers next behind, Scriptlet.transcript Cursor.answer cursor requests = (answers, next) ∧
      Scriptlet.transcript (Place.answer (endless results)) place requests = (answers, behind) ∧
      Follows results next behind ∧
      (rank (endless results) behind.current : ℤ) =
        rank (endless results) place.current + (answers.map Answer.moves).sum ∧
      faultsBefore (endless results) behind.seen =
        faultsBefore (endless results) place.seen ++ answers.filterMap Answer.fault? := by
  induction requests generalizing cursor place with
  | nil =>
    refine ⟨[], cursor, place, rfl, rfl, follows, ?_, ?_⟩
    · exact (add_zero _).symm
    · exact (List.append_nil _).symm
  | cons request rest hypothesis =>
    obtain ⟨answer, next, behind, asked, placed, later, accounts⟩ :=
      follows.step scanned lexical request
    obtain ⟨answers, final, last, others, reached, ended, tokens, faults⟩ := hypothesis later
    refine ⟨answer :: answers, final, last, ?_, ?_, ended, ?_, ?_⟩
    · simp only [Scriptlet.transcript, asked, others]
    · simp only [Scriptlet.transcript, placed, reached]
    · rw [tokens, accounts.tokens, List.map_cons, List.sum_cons, add_assoc]
    · rw [faults, accounts.faults, List.append_assoc]
      cases reported : answer.fault? with
      | none => rw [List.filterMap_cons_none reported]; rfl
      | some fault => rw [List.filterMap_cons_some reported]; rfl

end Follows

/-! ### Texts -/

/-- All faults of a scan are lexical. -/
theorem isLexical_of_mem_scan {source : String} {fault : ParseError}
    (member : .error fault ∈ scan source) : fault.fault.isLexical = true := by
  obtain ⟨before, behind, -, -, faulty⟩ := standsIn_of_mem_scanFrom member
  obtain ⟨later, ends⟩ := faulty fault rfl
  rcases fault with ⟨line, fault⟩
  cases ends with
  | unclosed => rfl
  | unexpected => rfl

/-- The cursor of a text follows its scan from the first token on. -/
theorem follows_ofSource {source : String} {cursor : Cursor}
    (begun : Cursor.ofSource source = .ok cursor) : Follows (scan source) cursor .start := by
  unfold Cursor.ofSource at begun
  cases opened : Stream.ofSource source with
  | error fault =>
    rw [opened] at begun
    cases begun
  | ok stream =>
    rw [opened] at begun
    cases begun
    rw [results_of_ofSource opened]
    exact .onward rfl (.succ 0) .nothing

/-- **A cursor moves over the fixed results of a scan.** Whatever a cursor is asked for, and in
whatever order, it answers as a place in the endless sequence of the results does. The token in
front is always the one with the number of tokens consumed, less those taken back; the token
consumed last, if it was not taken back, is the one before. The faults reported are those of the
results looked at, each of them once and in order. So no token is lost, doubled or moved to another
place, however steps back and faults are mixed. -/
theorem cursor_follows_results (source : String) (cursor : Cursor)
    (begun : Cursor.ofSource source = .ok cursor) (requests : List Request) :
    ∃ answers next behind,
      transcript Cursor.answer cursor requests = (answers, next) ∧
      transcript (Place.answer (endless (scan source))) .start requests = (answers, behind) ∧
      ∃ number : ℕ, (number : ℤ) = (answers.map Answer.moves).sum ∧
        endless (scan source)
          (Nat.nth (fun position => (endless (scan source) position).isOk = true) number) =
            .ok next.stream.current ∧
        (∀ token, next.previous = some token → ∃ before, number = before + 1 ∧
          endless (scan source)
            (Nat.nth (fun position => (endless (scan source) position).isOk = true) before) =
              .ok token) ∧
        answers.filterMap Answer.fault? = faultsBefore (endless (scan source)) behind.seen := by
  have follows := follows_ofSource begun
  obtain ⟨answers, next, behind, asked, placed, later, tokens, faults⟩ :=
    follows.transcript (scan_scanned source) (fun _ => isLexical_of_mem_scan) requests
  refine ⟨answers, next, behind, asked, placed, rank (endless (scan source)) behind.current,
    ?_, ?_, ?_, ?_⟩
  · rw [tokens]
    have none : rank (endless (scan source)) 0 = 0 := Nat.count_zero _
    show ((rank (endless (scan source)) 0 : ℕ) : ℤ) + _ = _
    rw [none, Int.natCast_zero, Int.zero_add]
  · have front := later.front
    rw [rank, Nat.nth_count (by rw [front]; rfl)]
    exact front
  · intro token remembered
    obtain ⟨earlier, held, gap⟩ := later.remembered remembered
    have counted : (endless (scan source) earlier).isOk = true := by
      rw [held]
      rfl
    refine ⟨rank (endless (scan source)) earlier, rank_of_gap gap counted, ?_⟩
    rw [rank, Nat.nth_count counted]
    exact held
  · rw [faults]
    have first : faultsBefore (endless (scan source)) (0 + 1) = [] :=
      faultsBefore_succ_ok follows.front
    show _ = faultsBefore _ (0 + 1) ++ _
    rw [first, List.nil_append]

/-- A fault behind the first token is reported once, and the token stays in front. It is consumed,
taken back, and consumed again. -/
theorem cursor_follows_results_fault :
    ∃ cursor next, Cursor.ofSource "a $ b" = .ok cursor ∧
      transcript Cursor.answer cursor
        [.advance, .rewind, .accept .identifier, .rewind, .rewind, .expect .identifier, .peek] =
          ([.consumed (.error ⟨1, .unexpectedCharacter '$'⟩), .steppedBack false,
            .accepted (.ok true), .steppedBack true, .steppedBack false,
            .consumed (.ok ⟨.identifier, "a", 1⟩), .front ⟨.identifier, "b", 1⟩], next) ∧
      endless (scan "a $ b")
        (Nat.nth (fun position => (endless (scan "a $ b") position).isOk = true) 1) =
          .ok ⟨.identifier, "b", 1⟩ := by
  have scanned : scan "a $ b" =
      [.ok ⟨.identifier, "a", 1⟩, .error ⟨1, .unexpectedCharacter '$'⟩,
        .ok ⟨.identifier, "b", 1⟩, .ok (.endOfInput 1)] := by
    decide +kernel
  have begun : Cursor.ofSource "a $ b" = .ok
      ⟨⟨⟨.identifier, "a", 1⟩, [.error ⟨1, .unexpectedCharacter '$'⟩,
        .ok ⟨.identifier, "b", 1⟩, .ok (.endOfInput 1)]⟩, none, none⟩ := by
    rw [Cursor.ofSource, Stream.ofSource, scanned]
    rfl
  refine ⟨_, ⟨⟨⟨.identifier, "b", 1⟩, [.ok (.endOfInput 1)]⟩, some ⟨.identifier, "a", 1⟩, none⟩,
    begun, rfl, ?_⟩
  obtain ⟨answers, next, behind, asked, -, number, moved, front, -⟩ :=
    cursor_follows_results _ _ begun
      [.advance, .rewind, .accept .identifier, .rewind, .rewind, .expect .identifier, .peek]
  cases asked
  have one : number = 1 := Int.ofNat.inj moved
  rw [one] at front
  exact front

end Scriptlet
