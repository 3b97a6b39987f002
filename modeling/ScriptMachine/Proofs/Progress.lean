/-
This file shows that programs fail only in documented ways. Main statement: a plain program is loaded
and started, and every step before its end leads to a state or is refused with a code of the runtime.
-/

import ScriptMachine.Proofs.Loading
import ScriptMachine.Proofs.Placement

namespace ScriptMachine

/-- The codes of the failures that a program may run into. -/
def Fault.runtimeCodes : List String :=
  ["E_UNSUPPORTED", "E_UNRESOLVED", "E_NOT_CALLABLE", "E_BAD_WRITE", "E_TYPE"]

/-- A failure that is reported under one of the codes of the runtime. -/
def Fault.IsRuntime (fault : Fault) : Prop :=
  ∃ code text, fault.report = some (code, text) ∧ code ∈ Fault.runtimeCodes

theorem Fault.isRuntime_of_permitted {fault : Fault} (permitted : fault.permitted true = true) :
    fault.IsRuntime := by
  cases fault with
  | unsupported cause => exact ⟨"E_UNSUPPORTED", cause.message, rfl, by decide⟩
  | unresolved shown => exact ⟨"E_UNRESOLVED", "could not find " ++ shown, rfl, by decide⟩
  | notCallable => exact ⟨"E_NOT_CALLABLE", "callee is not a function", rfl, by decide⟩
  | badWrite cause => exact ⟨"E_BAD_WRITE", cause.message, rfl, by decide⟩
  | mistyped cause => exact ⟨"E_TYPE", cause.message, rfl, by decide⟩
  | _ => cases permitted

namespace Machine

/-- A step of a plain program leads to a state or fails with a code of the runtime. -/
theorem Reachable.ends_step {machine : Machine} {program : Node} {state : State}
    (formed : program.isWellFormed true = true) (owns : program.OwnsExits)
    (quiet : machine.config.debug = false) (reachable : machine.Reachable program state)
    (active : state.isDone = false) (session : Session) :
    Ends (machine.step state) session (fun _ _ => True) fun fault _ => fault.IsRuntime := by
  have sound := reachable.sound formed owns (fun _ => quiet)
  have leads : Leads program true session _ := machine.leads_step formed owns (fun _ => quiet) active sound
  exact leads.weaken (fun _ _ _ => trivial) fun _ _ => Fault.isRuntime_of_permitted

/-- A plain program can be loaded and started. From then on every step before the end leads to a state
or is refused with a code of the runtime, in whatever session it is taken. -/
theorem runs_or_reports {machine : Machine} {tree : Tree} {program : Node} {counted : Nat}
    {session : Session} (reads : tree.read 0 = .ok program counted)
    (formed : program.isWellFormed true = true) (quiet : machine.config.debug = false)
    (readable : machine.config.outline = true → session.verbose = true → program.IsReadable)
    (allocates : Session.machineAllocator < session.allocators.size) :
    ∃ loaded state started, machine.load tree session = .ok program loaded ∧
      initialState program loaded = .ok state started ∧
      ∀ reached, machine.Reachable program reached → reached.isDone = false → ∀ now,
        (∃ next after, machine.step reached now = .ok next after) ∨
          ∃ fault after, machine.step reached now = .error fault after ∧ fault.IsRuntime := by
  obtain ⟨_, loaded, loads, rfl, same⟩ :=
    (machine.ends_load_of_isWellFormed reads formed readable).exists_ok
  have available : Session.machineAllocator < loaded.allocators.size := by
    have allocators : loaded.bare.allocators = session.bare.allocators := by rw [same]
    exact Nat.lt_of_lt_of_eq allocates (congrArg Array.size allocators).symm
  obtain ⟨state, started, starts, -⟩ : ∃ state started, _ ∧ True :=
    ((ends_initialState available).mpr trivial).exists_ok
  refine ⟨loaded, state, started, loads, starts, ?_⟩
  intro reached reachable active now
  have ends := reachable.ends_step formed (Tree.ownsExits_of_read reads) quiet active now
  cases stepped : machine.step reached now with
  | ok next after => exact .inl ⟨next, after, rfl⟩
  | error fault after => exact .inr ⟨fault, after, rfl, ends.of_error stepped⟩

/-- A program that throws inside a function can be started, and its throw is a step. -/
theorem runs_or_reports_in_handler :
    ∃ program counted state, handledTree.read 0 = .ok program counted ∧
      program.isWellFormed true = true ∧ Reachable ⟨.default, none⟩ program state ∧
      state.kindText = "ThrowStatement" ∧
      ((∃ next after, step ⟨.default, none⟩ state (.start false) = .ok next after) ∨
        ∃ fault after, step ⟨.default, none⟩ state (.start false) = .error fault after ∧
          fault.IsRuntime) := by
  obtain ⟨program, counted, reads, formed⟩ : ∃ program counted,
      handledTree.read 0 = .ok program counted ∧ program.isWellFormed true = true :=
    Ends.exists_ok (by decide +kernel)
  obtain ⟨progress, after, ran, throwing, active⟩ : ∃ progress after,
      Machine.run ⟨.default, none⟩ 5 handledTree (Session.start false) = .ok progress after ∧
        progress.state.kindText = "ThrowStatement" ∧ progress.state.isDone = false :=
    Ends.exists_ok (by decide +kernel)
  have reached := (Machine.reachable_of_run _ reads _ _).of_ok ran
  obtain ⟨_, _, _, _, _, steps⟩ :=
    @runs_or_reports ⟨.default, none⟩ _ _ _ (Session.start false) reads formed rfl
      (fun outlines => nomatch outlines) (by decide)
  exact ⟨program, counted, progress.state, reads, formed, reached, throwing,
    steps progress.state reached active (.start false)⟩

end Machine

end ScriptMachine
