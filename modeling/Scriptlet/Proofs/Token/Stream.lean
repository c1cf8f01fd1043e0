/-
**Streams of tokens**: what stands in front of a stream, and what consuming a token does to it.

* `Stream.prepend`: tokens in front of a stream. A parser that reads `tokens` takes the stream
  `after.prepend tokens` to the stream `after`.
* `Stream.advance_prepend`, `Stream.accept_prepend`, `Stream.expect_prepend`: a token in front can
  be consumed.
* `Stream.eq_prepend_of_advance`, `Stream.eq_prepend_of_accept`, `Stream.eq_prepend_of_expect`:
  what was consumed stood in front. This needs a stream of scanned results, because the end of the
  input is never used up.
* `results_of_ofSource`: the stream of a text holds the results of its scan.
-/

import Scriptlet.Proofs.Token.Spelling

namespace Scriptlet

namespace Stream

/-- The token in front and all results behind it. -/
def results (stream : Stream) : List ScanResult := .ok stream.current :: stream.rest

/-- **Tokens in front of a stream.** -/
def prepend (stream : Stream) : List Token → Stream
  | [] => stream
  | token :: tokens => ⟨token, (stream.prepend tokens).results⟩

variable {stream next : Stream} {token : Token} {tokens : List Token} {kind : TokenKind}

@[simp] theorem prepend_nil : stream.prepend [] = stream := rfl

/-- Tokens in front of tokens. -/
@[simp] theorem prepend_prepend (front : List Token) :
    (stream.prepend tokens).prepend front = stream.prepend (front ++ tokens) := by
  induction front with
  | nil => rfl
  | cons first rest hypothesis => simp only [prepend, List.cons_append, hypothesis]

theorem results_prepend (tokens : List Token) :
    (stream.prepend tokens).results = tokens.map .ok ++ stream.results := by
  induction tokens with
  | nil => rfl
  | cons first rest hypothesis =>
    show .ok first :: (stream.prepend rest).results = _
    rw [hypothesis]
    rfl

theorem length_rest_prepend (tokens : List Token) :
    (stream.prepend tokens).rest.length = tokens.length + stream.rest.length := by
  have count : (stream.prepend tokens).results.length = tokens.length + stream.results.length := by
    rw [results_prepend, List.length_append, List.length_map]
  simp only [results, List.length_cons] at count
  omega

theorem results_injective (same : stream.results = next.results) : stream = next := by
  obtain ⟨current, rest⟩ := stream
  obtain ⟨other, others⟩ := next
  cases same
  rfl

/-! ### A token in front is consumed -/

@[simp] theorem advance_prepend :
    (stream.prepend (token :: tokens)).advance = .ok (token, stream.prepend tokens) := rfl

@[simp] theorem check_prepend :
    (stream.prepend (token :: tokens)).check kind = decide (token.kind = kind) := rfl

theorem accept_prepend (same : token.kind = kind) :
    (stream.prepend (token :: tokens)).accept kind = .ok (some (stream.prepend tokens)) := by
  simp [accept, same, Except.map]

theorem accept_of_ne (different : stream.current.kind ≠ kind) :
    stream.accept kind = .ok none := by
  simp [accept, check, different]

theorem expect_prepend (same : token.kind = kind) :
    (stream.prepend (token :: tokens)).expect kind = .ok (token, stream.prepend tokens) := by
  simp [expect, same]

/-! ### What is consumed stood in front -/

/-- What is behind some tokens of scanned results is scanned, too. -/
theorem scanned_of_prepend (scanned : Scanned (stream.prepend tokens).results) :
    Scanned stream.results := by
  induction tokens with
  | nil => exact scanned
  | cons first rest hypothesis =>
    refine hypothesis ?_
    cases scanned with
    | token spelled inside later => exact later

/-- The token in front is spelled as its kind says. -/
theorem spelled_current (scanned : Scanned stream.results) : stream.current.Spelled := by
  obtain ⟨current, rest⟩ := stream
  cases scanned with
  | endOfInput line => rfl
  | token spelled inside later => exact spelled

/-- Behind the end of the input there is nothing. -/
theorem results_of_atEnd (scanned : Scanned stream.results) (ended : stream.atEnd) :
    stream.results = [.ok stream.current] := by
  obtain ⟨current, rest⟩ := stream
  have kind : current.kind = .endOfInput := by simpa [atEnd, check] using ended
  cases scanned with
  | endOfInput line => rfl
  | token spelled inside later => exact absurd kind inside

theorem current_of_advance (step : stream.advance = .ok (token, next)) :
    token = stream.current := by
  unfold advance at step
  split at step <;> cases step <;> rfl

/-- **A consumed token stood in front**, unless it is the end of the input. -/
theorem eq_prepend_of_advance (scanned : Scanned stream.results)
    (inside : stream.current.kind ≠ .endOfInput) (step : stream.advance = .ok (token, next)) :
    stream = next.prepend [token] := by
  obtain ⟨current, rest⟩ := stream
  cases scanned with
  | endOfInput line => exact absurd rfl inside
  | token spelled inside later =>
    cases later with
    | endOfInput line => cases step; rfl
    | token spelled inside later => cases step; rfl
    | fault later => cases step

/-- An accepted token stood in front and has the given kind. -/
theorem eq_prepend_of_accept (scanned : Scanned stream.results) (inside : kind ≠ .endOfInput)
    (step : stream.accept kind = .ok (some next)) :
    ∃ token, token.kind = kind ∧ stream = next.prepend [token] := by
  unfold accept at step
  split at step
  · next checked =>
    have same : stream.current.kind = kind := by simpa [check] using checked
    cases advanced : stream.advance with
    | error error =>
      rw [advanced] at step
      cases step
    | ok pair =>
      obtain ⟨token, behind⟩ := pair
      rw [advanced] at step
      cases step
      obtain rfl := current_of_advance advanced
      exact ⟨stream.current, same, eq_prepend_of_advance scanned (same ▸ inside) advanced⟩
  · cases step

/-- An expected token stood in front and has the given kind. -/
theorem eq_prepend_of_expect (scanned : Scanned stream.results) (inside : kind ≠ .endOfInput)
    (step : stream.expect kind = .ok (token, next)) :
    token.kind = kind ∧ stream = next.prepend [token] := by
  unfold expect at step
  split at step
  · next checked =>
    have same : stream.current.kind = kind := by simpa [check] using checked
    obtain rfl := current_of_advance step
    exact ⟨same, eq_prepend_of_advance scanned (same ▸ inside) step⟩
  · cases step

end Stream

/-- The results of a text are the results of its stream. -/
theorem results_of_ofSource {source : String} {stream : Stream}
    (begun : Stream.ofSource source = .ok stream) : scan source = stream.results := by
  have scanned := scan_scanned source
  unfold Stream.ofSource at begun
  generalize scan source = results at scanned begun
  cases scanned with
  | endOfInput line => cases begun; rfl
  | token spelled inside later => cases begun; rfl
  | fault later => cases begun

end Scriptlet
