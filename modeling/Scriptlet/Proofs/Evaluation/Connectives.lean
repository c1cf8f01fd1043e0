/-
**A truth operator that may skip its right side agrees with the one that never does.**

In an expression a truth operator runs its right side only if the left one does not answer, and the
right side's answer is then its own. Between two values the operator is told by both. The two are
written apart, but where both can be asked they give the same value, and where the right side is no
truth value they give the same fault.

* `Expr.ComesTo`: what the evaluation of an expression is from some fuel on.
* `BinaryOperator.Answered`: the left sides that answer alone.
* `Value.rightAnswer_eq_binary`, `Value.binary_of_answered`: **the answer of one side against the
  operator on both values.**
* `comesTo_of_answered`, `comesTo_of_open`: what an expression comes to in the two cases.
* `connectives_agree`: **both cases together**, whatever the right side does.
-/

import Scriptlet.Proofs.Evaluation.Fuel

namespace Scriptlet

open Outcome

/-! ### What an expression comes to -/

/-- **An expression comes to an outcome**: from some fuel on, its evaluation is that outcome. One
that comes to exhaustion never ends. -/
def Expr.ComesTo (expression : Expr) (machine : Machine) (outcome : Outcome Value) : Prop :=
  ∃ enough, ∀ fuel, enough ≤ fuel → evaluate fuel expression machine = outcome

/-- An answer with any fuel is what the expression comes to. -/
theorem Expr.comesTo_of_evaluate {expression : Expr} {machine : Machine} {outcome : Outcome Value}
    {fuel : Nat} (ended : outcome ≠ .exhausted)
    (run : evaluate fuel expression machine = outcome) : expression.ComesTo machine outcome := by
  refine ⟨fuel, fun more enough => ?_⟩
  have kept := evaluate_mono enough expression machine
  rw [run] at kept
  exact kept.resolve_left ended

/-! ### Both sides known -/

/-- **A left side that answers a truth operator alone**: false for `&&`, true for `||`. -/
def BinaryOperator.Answered (operator : BinaryOperator) (answer : Bool) : Prop :=
  operator = .and ∧ answer = false ∨ operator = .or ∧ answer = true

section Values

variable {operator : BinaryOperator} {answer : Bool}

theorem BinaryOperator.isLogical_iff : operator.isLogical ↔ operator = .and ∨ operator = .or := by
  cases operator <;> simp [isLogical]

theorem BinaryOperator.decides_iff (logical : operator.isLogical) :
    operator.decides answer ↔ operator.Answered answer := by
  rcases isLogical_iff.mp logical with rfl | rfl <;> cases answer <;> simp [decides, Answered]

/-- **The right side answers as the operator on both values does**, or is refused with its fault, if
the left side does not answer alone. -/
theorem Value.rightAnswer_eq_binary (logical : operator.isLogical)
    (leftOpen : ¬ operator.Answered answer) (value : Value) :
    (Value.boolean answer).rightAnswer operator value =
      Value.binary operator (.boolean answer) value := by
  rcases BinaryOperator.isLogical_iff.mp logical with rfl | rfl
  · obtain rfl : answer = true := by simpa [BinaryOperator.Answered] using leftOpen
    cases value <;> rfl
  · obtain rfl : answer = false := by simpa [BinaryOperator.Answered] using leftOpen
    cases value <;> rfl

/-- **A left side that answers alone** answers as the operator on both values does. -/
theorem Value.binary_of_answered (answered : operator.Answered answer) (second : Bool) :
    Value.binary operator (.boolean answer) (.boolean second) = .ok (.boolean answer) := by
  rcases answered with ⟨rfl, rfl⟩ | ⟨rfl, rfl⟩ <;> rfl

end Values

/-! ### The expression -/

section Expressions

variable {operator : BinaryOperator} {left right : Expr} {machine middle : Machine} {answer : Bool}

/-- With fuel for its left side, a truth operator goes on from the left side's answer. -/
theorem evaluate_connective (logical : operator.isLogical) (line fuel : Nat)
    (run : evaluate fuel left machine = .done (.boolean answer) middle) :
    evaluate (fuel + 2) (.binary line operator left right) machine =
      if operator.decides answer then .done (.boolean answer) middle
      else (evaluate fuel right middle).bind fun value after =>
        .ofResult line ((Value.boolean answer).rightAnswer operator value) after := by
  rw [evaluate, if_pos logical, evaluateLogical, run]
  rfl

/-- **A left side that answers alone is the whole answer**, in the state that it leaves. -/
theorem comesTo_of_answered (logical : operator.isLogical) (line : Nat)
    (answered : operator.Answered answer)
    (first : left.ComesTo machine (.done (.boolean answer) middle)) :
    (Expr.binary line operator left right).ComesTo machine (.done (.boolean answer) middle) := by
  obtain ⟨enough, run⟩ := first
  refine ⟨enough + 2, fun fuel more => ?_⟩
  obtain ⟨fuel, rfl⟩ := Nat.exists_eq_add_of_le' (Nat.le_of_add_left_le more)
  rw [evaluate_connective logical line fuel (run fuel (by omega)),
    if_pos ((BinaryOperator.decides_iff logical).mpr answered)]

/-- **Behind any other left side the right one runs**, and the operator on both values answers. -/
theorem comesTo_of_open (logical : operator.isLogical) (line : Nat)
    (leftOpen : ¬ operator.Answered answer) {outcome : Outcome Value}
    (first : left.ComesTo machine (.done (.boolean answer) middle))
    (second : right.ComesTo middle outcome) :
    (Expr.binary line operator left right).ComesTo machine
      (outcome.bind fun value after =>
        .ofResult line (Value.binary operator (.boolean answer) value) after) := by
  obtain ⟨enough, run⟩ := first
  obtain ⟨others, again⟩ := second
  refine ⟨max enough others + 2, fun fuel more => ?_⟩
  obtain ⟨fuel, rfl⟩ := Nat.exists_eq_add_of_le' (Nat.le_of_add_left_le more)
  rw [evaluate_connective logical line fuel (run fuel (by omega)),
    if_neg (mt (BinaryOperator.decides_iff logical).mp leftOpen), again fuel (by omega)]
  simp only [Value.rightAnswer_eq_binary logical leftOpen]

end Expressions

/-- **A truth operator that may skip its right side agrees with the one that never does**, if the
left side comes to a truth value. If that answers alone, the right side has no say, whatever it
would do. If not, the expression comes to what the operator on both values makes of the right side's
outcome, in the state that the right side leaves; an error or a run without end of the right side is
kept. And wherever the right side comes to a truth value, the expression comes to the value of the
operator on both. -/
theorem connectives_agree (operator : BinaryOperator) (logical : operator.isLogical) (line : Nat)
    (left right : Expr) (machine middle : Machine) (answer : Bool)
    (first : left.ComesTo machine (.done (.boolean answer) middle)) :
    (operator.Answered answer →
      (Expr.binary line operator left right).ComesTo machine (.done (.boolean answer) middle)) ∧
    (¬ operator.Answered answer → ∀ outcome, right.ComesTo middle outcome →
      (Expr.binary line operator left right).ComesTo machine
        (outcome.bind fun value after =>
          .ofResult line (Value.binary operator (.boolean answer) value) after)) ∧
    (∀ second after, right.ComesTo middle (.done (.boolean second) after) →
      ∃ result,
        Value.binary operator (.boolean answer) (.boolean second) = .ok result ∧
        (Expr.binary line operator left right).ComesTo machine
          (.done result (if operator.decides answer then middle else after))) := by
  refine ⟨fun answered => comesTo_of_answered logical line answered first,
    fun leftOpen outcome => comesTo_of_open logical line leftOpen first, fun second after run => ?_⟩
  by_cases answered : operator.Answered answer
  · refine ⟨.boolean answer, Value.binary_of_answered answered second, ?_⟩
    rw [if_pos ((BinaryOperator.decides_iff logical).mpr answered)]
    exact comesTo_of_answered logical line answered first
  · obtain ⟨result, computed⟩ : ∃ result,
        Value.binary operator (.boolean answer) (.boolean second) = .ok result := by
      rcases BinaryOperator.isLogical_iff.mp logical with rfl | rfl <;> exact ⟨_, rfl⟩
    refine ⟨result, computed, ?_⟩
    have whole := comesTo_of_open logical line answered first run
    rw [done_bind, computed] at whole
    rwa [if_neg (mt (BinaryOperator.decides_iff logical).mp answered)]

/-- A left side that does not answer alone leaves the answer, and the last word on the state, to an
assignment on the right. -/
theorem connectives_agree_assigning :
    ∃ result,
      Value.binary .and (.boolean true) (.boolean false) = .ok result ∧
      (Expr.binary 1 .and (.boolean 1 true) (.assign 1 "x" (.boolean 1 false))).ComesTo
        (.start .unlimited)
        (.done result (Machine.assign (.start .unlimited) "x" (.boolean false))) :=
  have first : (Expr.boolean 1 true).ComesTo (.start .unlimited)
      (.done (.boolean true) (.start .unlimited)) :=
    Expr.comesTo_of_evaluate nofun (show evaluate 1 _ _ = _ from rfl)
  have second : (Expr.assign 1 "x" (.boolean 1 false)).ComesTo (.start .unlimited)
      (.done (.boolean false) (Machine.assign (.start .unlimited) "x" (.boolean false))) :=
    Expr.comesTo_of_evaluate nofun (show evaluate 2 _ _ = _ from rfl)
  (connectives_agree .and rfl 1 _ _ _ _ true first).2.2 false _ second

end Scriptlet
