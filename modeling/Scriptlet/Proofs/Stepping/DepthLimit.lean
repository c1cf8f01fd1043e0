/-
**The limit of the depth does nothing but stop a run.**

Two runs of the same text begin with the same names and the same output, one with more calls active
than the other. They go on in step, and the deeper one stays deeper by the same number, until it is
about to make a call that only the other one has room for. There the deeper run stops with an error
that nothing catches; what it has printed by then, the other one has printed, too, and may print
more.

* `Machine.deepen`: more active calls; `State.Overflows`: a call that has no room with them.
* `lockstep_deepen`: the two runs go on in step up to such a call.
* `depth_limit_transparent`: **with fewer active calls a run ends in the same way**, unless the one
  with more of them was stopped by the limit.
-/

import Scriptlet.Proofs.Stepping.Depth
import Scriptlet.Proofs.Stepping.Lockstep
import Scriptlet.Proofs.Stepping.Output

namespace Scriptlet

open State

namespace Machine

/-- The machine with another number of active calls. -/
def atDepth (depth : Nat) (machine : Machine) : Machine := { machine with depth := depth }

/-- The machine with more active calls. -/
def deepen (extra : Nat) (machine : Machine) : Machine := machine.atDepth (machine.depth + extra)

theorem enter_deepen (extra : Nat) (machine : Machine) (definition : Definition)
    (values : List Value) :
    (machine.deepen extra).enter definition values =
      (machine.enter definition values).deepen extra := by
  simp only [enter, deepen, atDepth, Nat.add_right_comm]

theorem unseen_deepen (extra : Nat) : Unseen (deepen extra) :=
  ⟨fun _ => rfl, fun _ _ _ => rfl, fun _ _ => rfl⟩

end Machine

/-- **A call for which there is room, but none with more active calls.** -/
def State.Overflows (extra : Nat) (state : State) : Prop :=
  (∃ line definition values, state.focus = .call line definition values) ∧
    state.machine.depth < maximumDepth ∧ maximumDepth ≤ state.machine.depth + extra

section Deeper

variable {extra base : Nat} {state : State}

theorem State.Counted.respects_deepen (counted : Counted base state)
    (room : ¬ Overflows extra state) : Respects (Machine.deepen extra) state := by
  obtain ⟨focus, waiting, machine⟩ := state
  refine ⟨?_, ?_, ?_⟩
  · intro line definition values about
    refine ofCall_mapMachine ⟨fun deeper => ?_, Nat.le_add_right_of_le⟩
      (Machine.enter_deepen extra machine definition values)
    refine Nat.le_of_not_lt fun shallow => ?_
    exact room ⟨⟨line, definition, values, about⟩, shallow, deeper⟩
  · intro line value rest _ _
    exact ofPrint_mapMachine rfl rfl rfl
  · rintro caller rest waits
    -- a call waits, so the depth is not zero
    have entered : machine.depth = base + callsOf waiting := counted.depth
    obtain rfl : waiting = .call caller :: rest := waits
    rw [callsOf_call] at entered
    have counts : machine.depth + extra - 1 = machine.depth - 1 + extra := by omega
    simp only [Machine.leave, Machine.deepen, Machine.atDepth, counts]

/-- **With more active calls a run goes on in step**, up to a call that has no room. -/
theorem lockstep_deepen : Lockstep (Machine.deepen extra) (Counted base) (Overflows extra) where
  next := fun counted room =>
    next_mapMachine (Machine.unseen_deepen extra) (counted.respects_deepen room)
  kept := fun counted _ step => counted.step step

/-- A call without room ends the run, and nothing more is written. -/
theorem State.Overflows.exists_reaches (overflows : Overflows extra state) :
    ∃ line after, Reaches (state.mapMachine (Machine.deepen extra))
      ⟨.error ⟨line, .tooDeep⟩, [], after⟩ ∧ after.sink = state.machine.sink := by
  obtain ⟨focus, waiting, machine⟩ := state
  obtain ⟨⟨line, definition, values, rfl⟩, -, deep⟩ := overflows
  obtain ⟨after, reaches, same⟩ := exists_reaches_error ⟨line, .tooDeep⟩
    (waiting.map (Waiting.mapMachine (Machine.deepen extra))) (machine.deepen extra)
  exact ⟨line, after, reaches.head (next_call_eq_tooDeep_iff.mpr deep), same⟩

/-- At its end a run has the depth it began with. -/
theorem Outcome.ends_atDepth {outcome : Outcome Value} {last : State}
    (ended : outcome.final = some last) (counted : Counted base last) :
    outcome.Ends fun machine => machine.depth = base := by
  cases outcome <;> cases ended <;> exact counted.depth

theorem Outcome.Ends.mapMachine_deepen {outcome : Outcome Value}
    (ends : outcome.Ends fun machine => machine.depth = base) :
    outcome.mapMachine (Machine.deepen extra) =
      outcome.mapMachine (Machine.atDepth (base + extra)) := by
  cases outcome <;> cases ends <;> rfl

theorem Outcome.Ends.mapMachine_atDepth {outcome : Outcome Value}
    (ends : outcome.Ends fun machine => machine.depth = base) :
    (outcome.mapMachine (Machine.deepen extra)).mapMachine (Machine.atDepth base) = outcome := by
  cases outcome <;> cases ends <;> rfl

end Deeper

/-- **The limit of the depth is transparent.** Run any statement, expression, call or program in the
same scope and with the same output, once with fewer and once with more active calls. If the deeper
run ends, and not by the limit, then the other one ends with the same result or error, the same
scope and the same output. If the other one ends, then the deeper run ends in the same way, or the
limit stops it, and its output is the beginning of the other one's. -/
theorem depth_limit_transparent (action : Action) (machine : Machine) (shallow deep : Nat)
    (deeper : shallow ≤ deep) :
    (∀ outcome, action.EndsWith (machine.atDepth deep) outcome →
      (∀ line after, outcome ≠ .failed ⟨line, .tooDeep⟩ after) →
      action.EndsWith (machine.atDepth shallow) (outcome.mapMachine (Machine.atDepth shallow))) ∧
    ∀ outcome, action.EndsWith (machine.atDepth shallow) outcome →
      action.EndsWith (machine.atDepth deep) (outcome.mapMachine (Machine.atDepth deep)) ∨
        ∃ line after, action.EndsWith (machine.atDepth deep) (.failed ⟨line, .tooDeep⟩ after) ∧
          outcome.Ends fun last => after.sink.written.toList <+: last.sink.written.toList := by
  obtain ⟨extra, rfl⟩ := Nat.exists_eq_add_of_le deeper
  have lockstep : Lockstep (Machine.deepen extra) (Counted shallow) _ := lockstep_deepen
  have counted : Counted shallow (action.begin (machine.atDepth shallow)) :=
    action.counted_begin (machine.atDepth shallow)
  have begun : (action.begin (machine.atDepth shallow)).mapMachine (Machine.deepen extra) =
      action.begin (machine.atDepth (shallow + extra)) := action.mapMachine_begin _ _
  constructor
  · intro outcome ended free
    obtain ⟨last, final, reaches⟩ := Action.endsWith_iff.mp ended
    rw [← begun] at reaches
    rcases lockstep.reaches_back counted reaches with
      ⟨original, holds, before, rfl⟩ | ⟨middle, parted, later⟩
    · obtain ⟨first, firstFinal, rfl⟩ := Outcome.exists_of_final_mapMachine final
      rw [(Outcome.ends_atDepth firstFinal holds).mapMachine_atDepth]
      exact Action.endsWith_iff.mpr ⟨original, firstFinal, before⟩
    · obtain ⟨line, after, stops, -⟩ := parted.parts.exists_reaches
      have stopped : Outcome.final (.failed ⟨line, .tooDeep⟩ after) = some last :=
        congrArg some (Reaches.final_unique stops later rfl (Outcome.final_ends final))
      exact absurd (Outcome.eq_of_final final stopped) (free line after)
  · intro outcome ended
    obtain ⟨last, final, reaches⟩ := Action.endsWith_iff.mp ended
    rcases lockstep.reaches counted reaches with ⟨holds, same⟩ | ⟨middle, parted, later⟩
    · left
      rw [begun] at same
      rw [← (Outcome.ends_atDepth final holds).mapMachine_deepen]
      refine Action.endsWith_iff.mpr ⟨_, ?_, same⟩
      rw [Outcome.final_mapMachine, final]
      rfl
    · right
      obtain ⟨line, after, stops, silent⟩ := parted.parts.exists_reaches
      refine ⟨line, after, ?_, ?_⟩
      · exact Action.endsWith_iff.mpr ⟨_, rfl, begun ▸ parted.changed.trans stops⟩
      · have grown := later.extends.written
        rw [← silent] at grown
        cases outcome <;> cases final <;> exact grown

/-- A machine that knows an empty function. -/
def knowingMachine : Machine := (Machine.start .unlimited).define ⟨"f", [], []⟩

/-- With one active call the function can be called, so it can be without any. Where as many calls
are active as the limit allows, the run is the same or was stopped. -/
theorem depth_limit_transparent_call :
    let action : Action := .evaluate (.call 1 "f" [])
    action.EndsWith (knowingMachine.atDepth 1) (.done .nil (knowingMachine.atDepth 1)) ∧
      action.EndsWith (knowingMachine.atDepth 0) (.done .nil (knowingMachine.atDepth 0)) ∧
      (action.EndsWith (knowingMachine.atDepth maximumDepth)
          (.done .nil (knowingMachine.atDepth maximumDepth)) ∨
        ∃ line after,
          action.EndsWith (knowingMachine.atDepth maximumDepth) (.failed ⟨line, .tooDeep⟩ after) ∧
            after.sink.written.toList <+: knowingMachine.sink.written.toList) := by
  intro action
  have inner : action.EndsWith (knowingMachine.atDepth 1) (.done .nil (knowingMachine.atDepth 1)) :=
    ⟨by simp, 3, rfl⟩
  have outer : action.EndsWith (knowingMachine.atDepth 0) (.done .nil (knowingMachine.atDepth 0)) :=
    (depth_limit_transparent action knowingMachine 0 1 (Nat.zero_le _)).1 _ inner (by simp)
  exact ⟨inner, outer, (depth_limit_transparent action knowingMachine 0 maximumDepth
    (Nat.zero_le _)).2 _ outer⟩

end Scriptlet
