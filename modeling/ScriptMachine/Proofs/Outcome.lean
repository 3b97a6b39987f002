/-
This file follows runs from outcome to outcome. Main statements: a run comes to its final outcome in a
number of steps, and a run has no more than one final outcome.
-/

import ScriptMachine.Machine
import ScriptMachine.Proofs.Ends

namespace ScriptMachine

/-- Where a run stands: at a state, or at the fault that ended it. -/
abbrev Outcome := EStateM.Result Fault Session State

namespace Outcome

/-- A run goes no further from a fault, nor from a state in which it has ended. -/
def isFinal : Outcome → Bool
  | .ok state _ => state.isDone
  | .error .. => true

end Outcome

namespace Machine

variable {machine : Machine}

/-- One outcome comes after another in a run. -/
inductive Onward (machine : Machine) : Outcome → Outcome → Prop where
  | refl {outcome : Outcome} : Onward machine outcome outcome
  | step {state : State} {session : Session} {outcome : Outcome} (active : state.isDone = false)
      (onward : Onward machine (machine.step state session) outcome) :
      Onward machine (.ok state session) outcome

/-- A run goes on for at least a number of steps, the last of which may fail. -/
def Lasts (machine : Machine) : Nat → Outcome → Prop
  | 0, _ => True
  | steps + 1, .ok state session =>
      state.isDone = false ∧ machine.Lasts steps (machine.step state session)
  | _ + 1, .error .. => False

variable {first second : Outcome} {steps : Nat} {session : Session}

/-- Going onward composes. -/
theorem Onward.trans {third : Outcome} (before : machine.Onward first second)
    (after : machine.Onward second third) : machine.Onward first third := by
  induction before with
  | refl => exact after
  | step active _ ih => exact .step active (ih after)

theorem Lasts.succ {outcome : Outcome} (lasts : machine.Lasts (steps + 1) outcome) :
    machine.Lasts steps outcome := by
  induction steps generalizing outcome with
  | zero => trivial
  | succ steps ih =>
      cases outcome with
      | error fault session => exact lasts
      | ok state session => exact ⟨lasts.1, ih lasts.2⟩

/-- What lasts later on has lasted before. -/
theorem Onward.lasts (onward : machine.Onward first second) (lasts : machine.Lasts steps second) :
    machine.Lasts steps first := by
  induction onward with
  | refl => exact lasts
  | step active _ ih =>
      have later : machine.Lasts (steps + 1) (.ok _ _) := ⟨active, ih lasts⟩
      exact later.succ

variable {start : Outcome} {state : State}

/-- A run has no more than one final outcome. -/
theorem Onward.final_unique (toFirst : machine.Onward start first) (toSecond : machine.Onward start second)
    (firstFinal : first.isFinal = true) (secondFinal : second.isFinal = true) : first = second := by
  induction toFirst with
  | refl =>
      cases toSecond with
      | refl => rfl
      | step active onward =>
          rw [Outcome.isFinal, active] at firstFinal
          cases firstFinal
  | step active onward ih =>
      cases toSecond with
      | refl =>
          rw [Outcome.isFinal, active] at secondFinal
          cases secondFinal
      | step _ further => exact ih further firstFinal

/-- Where a run stands that was advanced. -/
def Progress.outcome : EStateM.Result Fault Session Progress → Outcome
  | .ok progress session => .ok progress.state session
  | .error fault session => .error fault session

variable {result : EStateM.Result Fault Session Progress} {progress : Progress}

theorem Progress.exists_of_outcome_ok (stands : Progress.outcome result = .ok state session) :
    ∃ count, result = .ok ⟨count, state⟩ session := by
  cases result with
  | error fault after => cases stands
  | ok progress after =>
      cases stands
      exact ⟨progress.count, rfl⟩

theorem Progress.eq_of_outcome_error {fault : Fault}
    (stands : Progress.outcome result = .error fault session) : result = .error fault session := by
  cases result with
  | error fault after =>
      cases stands
      rfl
  | ok progress after => cases stands

/-- One more step is a step and then the rest. -/
theorem advance_succ (active : progress.state.isDone = false) :
    machine.advance (steps + 1) progress session =
      match machine.step progress.state session with
      | .ok next after => machine.advance steps ⟨progress.count + 1, next⟩ after
      | .error fault after => .error fault after := by
  rw [advance, if_neg (by simp [active])]
  cases stepped : machine.step progress.state session with
  | ok next after => exact bind_of_ok stepped
  | error fault after => exact bind_of_error stepped

/-- A run may be advanced in two parts. -/
theorem advance_add (machine : Machine) (first second : Nat) (progress : Progress) :
    machine.advance (first + second) progress =
      machine.advance first progress >>= machine.advance second := by
  funext session
  induction first generalizing progress session with
  | zero => rw [Nat.zero_add]; rfl
  | succ first ih =>
      rw [Nat.add_right_comm]
      cases ended : progress.state.isDone with
      | true =>
          rw [advance_of_isDone machine _ ended, advance_of_isDone machine _ ended]
          exact congrFun (advance_of_isDone machine second ended).symm session
      | false =>
          rw [advance_succ ended]
          cases stepped : machine.step progress.state session with
          | ok next after =>
              have advanced : machine.advance (first + 1) progress session =
                  machine.advance first ⟨progress.count + 1, next⟩ after := by
                rw [advance_succ ended, stepped]
              show machine.advance (first + second) ⟨progress.count + 1, next⟩ after = _
              rw [ih]
              show EStateM.bind _ _ _ = EStateM.bind _ _ _
              rw [EStateM.bind, EStateM.bind, advanced]
          | error fault after =>
              have failed : machine.advance (first + 1) progress session = .error fault after := by
                rw [advance_succ ended, stepped]
              exact (bind_of_error failed).symm

/-- A run that is advanced sees a state with every step until it has ended, or until a step fails. -/
theorem ends_advance (machine : Machine) (steps : Nat) (progress : Progress) (session : Session) :
    Ends (machine.advance steps progress) session
      (fun last _ => progress.count ≤ last.count ∧
        (last.state.isDone = true ∨ last.count = progress.count + steps))
      fun fault after => ∃ fewer last before, machine.advance fewer progress session = .ok last before ∧
        last.state.isDone = false ∧ machine.step last.state before = .error fault after := by
  induction steps generalizing progress session with
  | zero => exact ⟨Nat.le_refl _, .inr rfl⟩
  | succ steps ih =>
      cases ended : progress.state.isDone with
      | true =>
          rw [advance_of_isDone machine _ ended]
          exact ⟨Nat.le_refl _, .inl ended⟩
      | false =>
          unfold Ends
          rw [advance_succ ended]
          cases stepped : machine.step progress.state session with
          | error fault after => exact ⟨0, progress, session, rfl, ended, stepped⟩
          | ok next after =>
              have onward := ih ⟨progress.count + 1, next⟩ after
              refine onward.weaken ?_ ?_
              · rintro last _ ⟨grown, reached⟩
                dsimp only at grown reached
                exact ⟨by omega, reached.imp_right fun counted => by omega⟩
              · rintro fault final ⟨fewer, last, before, advanced, active, failed⟩
                refine ⟨fewer + 1, last, before, ?_, active, failed⟩
                rw [advance_succ ended, stepped]
                exact advanced

/-- Advancing a run leads to a later outcome. -/
theorem onward_advance (machine : Machine) (steps : Nat) (progress : Progress) (session : Session) :
    machine.Onward (.ok progress.state session)
      (Progress.outcome (machine.advance steps progress session)) := by
  induction steps generalizing progress session with
  | zero => exact .refl
  | succ steps ih =>
      cases ended : progress.state.isDone with
      | true =>
          rw [advance_of_isDone machine _ ended]
          exact .refl
      | false =>
          rw [advance_succ ended]
          apply Onward.step ended
          cases stepped : machine.step progress.state session with
          | ok next after => exact ih ⟨progress.count + 1, next⟩ after
          | error fault after => exact .refl

/-- A later outcome is found by advancing the run far enough. -/
theorem Onward.exists_advance {outcome : Outcome} (onward : machine.Onward start outcome) (count : Nat)
    (starts : start = .ok state session) :
    ∃ steps, Progress.outcome (machine.advance steps ⟨count, state⟩ session) = outcome := by
  induction onward generalizing count state session with
  | refl => exact ⟨0, starts.symm⟩
  | @step first before outcome active onward ih =>
      cases starts
      cases stepped : machine.step first before with
      | ok next after =>
          obtain ⟨steps, found⟩ := ih (count + 1) stepped
          refine ⟨steps + 1, ?_⟩
          rw [advance_succ active, stepped]
          exact found
      | error fault after =>
          refine ⟨1, ?_⟩
          rw [advance_succ active, stepped]
          rw [stepped] at onward
          cases onward
          rfl

/-- A run that is advanced less than it lasts has not come to its end. -/
theorem not_isFinal_advance (lasts : machine.Lasts (steps + 1) (.ok progress.state session)) :
    (Progress.outcome (machine.advance steps progress session)).isFinal = false := by
  induction steps generalizing progress session with
  | zero => exact lasts.1
  | succ steps ih =>
      obtain ⟨active, onward⟩ := lasts
      rw [advance_succ active]
      cases stepped : machine.step progress.state session with
      | ok next after =>
          rw [stepped] at onward
          exact ih onward
      | error fault after =>
          rw [stepped] at onward
          exact absurd onward id

end Machine

end ScriptMachine
