/-
This file lets two runs go on side by side. Main statement: runs that begin together and stay together step
by step come equally far, or fail together.
-/

import ScriptMachine.Proofs.Lockstep
import ScriptMachine.Proofs.Outcome

namespace ScriptMachine

namespace Ties

variable {ties : Ties} {world : ties.World}

/-- Runs abreast are done together. -/
theorem Abreast.isDone {session other : Session} {state again : State}
    (abreast : ties.Abreast world session other state again) : again.isDone = state.isDone := by
  cases abreast <;> rfl

/-- Outcomes of two runs that belong together. -/
def Coincides (ties : Ties) (world : ties.World) : Outcome → Outcome → Prop
  | .ok state session, .ok again other =>
      ∃ later, ties.Later world later ∧ ties.Abreast later session other state again
  | .error fault session, .error again other => ties.Matches fault again ∧ ties.Alike session other
  | _, _ => False

/-- Two runs that have come equally far. -/
def Accompanies (ties : Ties) (world : ties.World) :
    EStateM.Result Fault Session Machine.Progress → EStateM.Result Fault Session Machine.Progress → Prop
  | .ok progress session, .ok again other => again.count = progress.count ∧
      ∃ later, ties.Later world later ∧ ties.Abreast later session other progress.state again.state
  | .error fault session, .error again other => ties.Matches fault again ∧ ties.Alike session other
  | _, _ => False

end Ties

namespace Correspondence

variable (both : Correspondence)

/-- Where nothing is excused, actions that lead to states that belong together end together. -/
theorem coincides_of_leads {world : both.World} {first second : Action State} {session other : Session}
    (strict : both.strict) (allowed : ∀ session, both.Allowed session)
    (leads : both.Leads world first second session other) :
    both.Coincides world (first session) (second other) := by
  cases ran : first session with
  | ok next after =>
      obtain ⟨copy, last, ranAgain, onward⟩ := (leads.of_ok ran (allowed after)).exists_ok
      rw [ranAgain]
      exact onward
  | error fault after =>
      have fails := leads.of_error ran strict (allowed after)
      cases ranAgain : second other with
      | ok copy last => exact absurd (fails.of_ok ranAgain) id
      | error repeated last => exact fails.of_error ranAgain

theorem accompanies_of_later {world later : both.World}
    {result again : EStateM.Result Fault Session Machine.Progress} (passed : both.Later world later)
    (together : both.Accompanies later result again) : both.Accompanies world result again := by
  cases result with
  | ok progress session =>
      cases again with
      | ok repeated other =>
          obtain ⟨count, last, onward, abreast⟩ := together
          exact ⟨count, last, both.later_trans passed onward, abreast⟩
      | error fault other => exact together
  | error fault session => cases again <;> exact together

/-- What is known about a run for the steps that are left may be used for each of them. -/
theorem accompanies_advance {machine second : Machine} {known : Nat → State → Session → Prop}
    (goesOn : ∀ {steps state session next after}, known (steps + 1) state session →
      state.isDone = false → machine.step state session = .ok next after → known steps next after)
    (coincides : ∀ {steps world state again session other}, known (steps + 1) state session →
      state.isDone = false → both.Abreast world session other state again →
      both.Coincides world (machine.step state session) (second.step again other))
    {steps : Nat} {world : both.World} {progress again : Machine.Progress} {session other : Session}
    (knows : known steps progress.state session) (count : again.count = progress.count)
    (abreast : both.Abreast world session other progress.state again.state) :
    both.Accompanies world (machine.advance steps progress session)
      (second.advance steps again other) := by
  -- What is known counts the steps that are left, and the world may move on with each of them.
  induction steps generalizing world progress again session other with
  | zero => exact ⟨count, world, both.later_refl world, abreast⟩
  | succ steps ih =>
      have ended := abreast.isDone
      cases done : progress.state.isDone with
      | true =>
          rw [Machine.advance_of_isDone machine _ done,
            Machine.advance_of_isDone second _ (ended.trans done)]
          exact ⟨count, world, both.later_refl world, abreast⟩
      | false =>
          rw [Machine.advance_succ done, Machine.advance_succ (ended.trans done)]
          have together := coincides knows done abreast
          cases stepped : machine.step progress.state session with
          | error fault after =>
              cases steppedAgain : second.step again.state other with
              | error repeated last =>
                  rw [stepped, steppedAgain] at together
                  exact together
              | ok copy last =>
                  rw [stepped, steppedAgain] at together
                  exact absurd together id
          | ok next after =>
              cases steppedAgain : second.step again.state other with
              | error repeated last =>
                  rw [stepped, steppedAgain] at together
                  exact absurd together id
              | ok copy last =>
                  rw [stepped, steppedAgain] at together
                  obtain ⟨later, passed, onward⟩ := together
                  have advanced := @ih later ⟨progress.count + 1, next⟩
                    ⟨again.count + 1, copy⟩ after last (goesOn knows done stepped)
                    (congrArg Nat.succ count) onward
                  exact both.accompanies_of_later passed advanced

end Correspondence

end ScriptMachine
