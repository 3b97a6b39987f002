/-
This file brings the machine and the structured evaluation of programs together. Main statement: a
well-formed program ends in a run of the machine exactly when it ends in its structured evaluation,
and then both leave the same behind.
-/

import ScriptMachine.Proofs.Loading
import ScriptMachine.Proofs.Simulation
import ScriptMachine.Proofs.Tracing

namespace ScriptMachine

namespace Structured

/-- Executing a program begins as a run of the machine does. -/
theorem ends_begun {machine : Machine} {depth : Nat} {program : Node} {base : Session}
    (allocates : Session.machineAllocator < base.allocators.size)
    {good : Option Ending → Session → Prop} {bad : Fault → Session → Prop} :
    Ends (run machine depth program) base good bad ↔
      Ends (do
        conclude (← (execute machine depth (Machine.globalScope base) program).run
          (Globals.store base))) (Machine.begun base) good bad := by
  unfold run Action.reset
  simp only [ends_bind, ends_modify, ends_enter, ends_run]
  exact Globals.ends_install allocates

section

variable {machine second : Machine} (truth : second.invertedTruth = machine.invertedTruth)
include truth

theorem declareAll_congr (scope : Scope) (keyword : Tree) (declarators : List Node) :
    second.declareAll scope keyword declarators = machine.declareAll scope keyword declarators := by
  induction declarators with
  | nil => rfl
  | cons node rest ih =>
      cases node with
      | declarator place target init =>
          rw [Machine.declareAll_cons, Machine.declareAll_cons, ih]
          unfold Machine.initialValue
          rw [truth]
      | _ => rfl

theorem statement_congr (execute : Scope → Node → Course) (scope : Scope) (node : Node) :
    statement second execute scope node = statement machine execute scope node := by
  have declares : ∀ keyword declarators, declaration second execute scope keyword declarators =
      declaration machine execute scope keyword declarators := by
    intro keyword declarators
    unfold declaration
    simp only [truth, declareAll_congr truth]
  unfold statement
  simp only [truth, declares]

/-- The structured evaluation depends on how a machine reads truth, and on nothing else of it. -/
theorem execute_congr (depth : Nat) : execute second depth = execute machine depth := by
  induction depth with
  | zero => rfl
  | succ depth ih =>
      funext scope node
      rw [execute, execute, ih, statement_congr truth]

/-- Agreeing machines run a program alike. -/
theorem run_congr (depth : Nat) (program : Node) : run second depth program = run machine depth program := by
  unfold run
  rw [execute_congr truth]

end

end Structured

/-- A final outcome of a run and a result of the structured evaluation that leave the same behind, but
for what is kept for tracing. -/
def Outcome.Leaves :
    Outcome → EStateM.Result Fault Session (Option Structured.Ending) → Prop
  | .ok state session, .ok (some ending) after =>
      state.isDone = true ∧ state.store = ending.store ∧ state.uncaught? = ending.uncaught ∧
        after.bare = session.bare
  | .error fault session, .error again after => again = fault ∧ after.bare = session.bare
  | _, _ => False

namespace Machine

/-- A machine of the same truth that announces and outlines nothing. -/
def quiet (machine : Machine) : Machine :=
  ⟨{ machine.config with debug := false, outline := false }, machine.source⟩

section

variable {machine : Machine} {program : Node} {session : Session}
  (formed : program.isWellFormed false = true) (owns : program.OwnsExits)
  (quiet : machine.config.debug = false)
  (allocates : Session.machineAllocator < session.allocators.size)

include formed owns quiet allocates

/-- A run accounts for the structured evaluation of its program. -/
theorem accounts_structured (depth : Nat) :
    Ends (Structured.run machine depth program) session
      (fun ending after => match ending with
        | none => machine.Lasts depth (.ok (firstState program session) (begun session))
        | some ending => ∃ state, state.isDone = true ∧ state.store = ending.store ∧
            state.uncaught? = ending.uncaught ∧
            machine.Onward (.ok (firstState program session) (begun session)) (.ok state after))
      (fun fault after =>
        machine.Onward (.ok (firstState program session) (begun session)) (.error fault after)) := by
  have starts := @initialState_of_allocates program session allocates
  have inOrder : InOrder program (.ok (firstState program session) (begun session)) :=
    @Reachable.sound machine program false _ formed owns (by simp) (.initial starts)
  have notExit : program.isExit = false := by
    cases program with
    | scopeExit id | handlerExit id => simp [Node.isWellFormed] at formed
    | _ => rfl
  have accounts := simulates_execute formed owns quiet depth program .done (globalScope session)
    (Globals.store session) [] (begun session) notExit inOrder
  rw [Structured.ends_begun allocates, ends_bind, ends_run]
  refine accounts.weaken ?_ fun fault after comes => comes
  intro result after comes
  cases result with
  | none => exact comes
  | some completion =>
      cases completion with
      | normal => exact ⟨_, rfl, rfl, rfl, comes⟩
      | returned value => exact comes
      | thrown value => exact ⟨_, rfl, rfl, rfl, comes⟩

/-- A final outcome of a run is found by the structured evaluation. -/
theorem exists_structured {last : Outcome} (final : last.isFinal = true)
    (onward : machine.Onward (.ok (firstState program session) (begun session)) last) :
    ∃ depth, match last with
      | .ok state after =>
          Structured.run machine depth program session =
            .ok (some ⟨state.store, state.uncaught?⟩) after
      | .error fault after => Structured.run machine depth program session = .error fault after := by
  obtain ⟨steps, arrives⟩ := onward.exists_advance 1 rfl
  refine ⟨steps + 1, ?_⟩
  have accounts := accounts_structured formed owns quiet allocates (steps + 1)
  cases ran : Structured.run machine (steps + 1) program session with
  | ok ending after =>
      have comes := accounts.of_ok ran
      cases ending with
      | none =>
          have unfinished := @not_isFinal_advance machine steps _ ⟨1, firstState program session⟩ comes
          rw [arrives, final] at unfinished
          cases unfinished
      | some ending =>
          obtain ⟨state, done, store, uncaught, reaches⟩ := comes
          have same := onward.final_unique reaches final done
          subst same
          dsimp only
          rw [store, uncaught]
  | error fault after =>
      have same := onward.final_unique (accounts.of_error ran) final rfl
      subst same
      rfl

end

section

variable {machine : Machine} {tree : Tree} {program : Node} {base other : Session}

/-- Runs that begin in sessions that differ in what they keep for tracing begin alike. -/
theorem matches_firstState (same : other.bare = base.bare) :
    Outcome.Matches (.ok (firstState program base) (begun base))
      (.ok (firstState program other) (begun other)) := by
  have frames : other.bare.frames = base.bare.frames := by rw [same]
  have identities : other.bare.identities = base.bare.identities := by rw [same]
  have scope : globalScope other = globalScope base :=
    congrArg (fun held : Array Frame => (⟨held.size, []⟩ : Scope)) frames
  have store : Globals.store other = Globals.store base := by
    unfold Globals.store Globals.prototype
    rw [show other.identities = base.identities from identities,
      show other.frames = base.frames from frames]
  have tame := fun address => @Globals.forall_get_store Value.IsTame base (fun isPlain => .plain isPlain)
    (Value.isTame_object _) (fun _ own => .builtin _ _ _ own) address
  have after : (begun other).bare = (begun base).bare := congrArg begun same
  have agrees : Scratch.Matches ⟨begun base, Globals.store base⟩ ⟨begun other, Globals.store base⟩ :=
    ⟨after, rfl, tame⟩
  have abreast : Correspondence.tracing.Abreast () (begun base) (begun other)
      (.active program .done (globalScope base) (Globals.store base) [])
      (.active program .done (Correspondence.tracing.toPairing.scope (globalScope base))
        (Globals.store base) []) :=
    .active program .done agrees trivial .halt
  rw [Correspondence.tracing_scope] at abreast
  unfold firstState
  rw [scope, store]
  exact abreast

/-- Every statement of a program whose ranges can be read can be announced. -/
theorem reads_of_inOrder {state : State} {session : Session}
    (readable : machine.config.debug = true → program.IsReadable)
    (inOrder : InOrder program (.ok state session)) : machine.Reads state := by
  intro debugging
  cases state with
  | active node next scope store continuation =>
      obtain ⟨⟨inFunction, layers, position, -⟩, -⟩ := inOrder
      have range : node.place.range.isRange = true := by
        cases exit : node.isExit with
        | false => exact readable debugging node (position.within exit)
        | true =>
            cases node with
            | scopeExit id | handlerExit id => rfl
            | _ => cases exit
      exact Node.excerpt_of_isRange range machine.source
  | halted scope store continuation => exact ⟨_, rfl⟩
  | uncaught value store => exact ⟨_, rfl⟩

/-- What machines announce makes no difference to where they come to. -/
theorem exists_onward {first second : Machine} {last : Outcome}
    (truth : second.invertedTruth = first.invertedTruth)
    (formed : program.isWellFormed false = true) (owns : program.OwnsExits)
    (readable : first.config.debug = true → program.IsReadable)
    (readableAgain : second.config.debug = true → program.IsReadable)
    (same : other.bare = base.bare) (allocates : Session.machineAllocator < base.allocators.size)
    (onward : first.Onward (.ok (firstState program base) (begun base)) last) :
    ∃ again, second.Onward (.ok (firstState program other) (begun other)) again ∧
      last.Matches again := by
  have starts := @initialState_of_allocates program base allocates
  have inOrder : InOrder program (.ok (firstState program base) (begun base)) :=
    @Reachable.sound first program false _ formed owns (by simp) (.initial starts)
  refine onward.matched truth ?_ ?_ inOrder (matches_firstState same)
  · intro state session active kept
    exact kept.step formed owns active
  · intro state session kept
    exact ⟨reads_of_inOrder readable kept, reads_of_inOrder readableAgain kept⟩

section

variable (formed : program.isWellFormed false = true) (owns : program.OwnsExits)
  (readable : machine.config.debug = true → program.IsReadable) (same : base.bare = other.bare)
  (allocates : Session.machineAllocator < base.allocators.size)
  (available : Session.machineAllocator < other.allocators.size)
include formed owns readable same available

include allocates in
/-- Where a run ends, the structured evaluation ends as well. -/
theorem exists_leaves_of_onward {last : Outcome} (final : last.isFinal = true)
    (onward : machine.Onward (.ok (firstState program base) (begun base)) last) :
    ∃ depth, last.Leaves (Structured.run machine depth program other) := by
  have silent : machine.quiet.config.debug = true → program.IsReadable :=
    fun debugging => nomatch debugging
  -- The evaluation is compared with a run that is not debugged, which comes to the same.
  obtain ⟨again, onwardAgain, matched⟩ :=
    @exists_onward program base other machine machine.quiet last rfl formed owns readable silent
      same.symm allocates onward
  have finalAgain : again.isFinal = true := by
    cases last with
    | ok state session =>
        cases again with
        | ok copy after =>
            obtain ⟨rfl, -⟩ := Correspondence.eq_of_abreast matched
            exact final
        | error fault after => rfl
    | error fault session =>
        cases again with
        | ok copy after => exact absurd matched id
        | error fault after => rfl
  obtain ⟨depth, evaluated⟩ :=
    @exists_structured machine.quiet program other formed owns rfl available again finalAgain onwardAgain
  rw [@Structured.run_congr machine machine.quiet rfl] at evaluated
  refine ⟨depth, ?_⟩
  cases again with
  | ok copy after =>
      cases last with
      | ok state session =>
          obtain ⟨rfl, kept⟩ := Correspondence.eq_of_abreast matched
          rw [show Structured.run machine depth program other = _ from evaluated]
          exact ⟨final, rfl, rfl, kept⟩
      | error fault session => exact absurd matched id
  | error repeated after =>
      cases last with
      | ok state session => exact absurd matched id
      | error fault session =>
          rw [show Structured.run machine depth program other = _ from evaluated]
          exact matched

/-- Where the structured evaluation ends, a run ends as well. -/
theorem exists_onward_of_structured {depth : Nat} :
    Ends (Structured.run machine depth program) other
      (fun ending after => ∀ found, ending = some found →
        ∃ last, machine.Onward (.ok (firstState program base) (begun base)) last ∧
          last.Leaves (.ok (some found) after))
      (fun fault after => ∃ last, machine.Onward (.ok (firstState program base) (begun base)) last ∧
        last.Leaves (.error fault after)) := by
  have silent : machine.quiet.config.debug = true → program.IsReadable :=
    fun debugging => nomatch debugging
  have comes := fun last => @exists_onward program other base machine.quiet machine last rfl formed owns
    silent readable same available
  rw [← @Structured.run_congr machine machine.quiet rfl]
  refine (@accounts_structured machine.quiet program other formed owns rfl available depth).weaken ?_ ?_
  · rintro _ after outcome found rfl
    obtain ⟨state, done, store, uncaught, onward⟩ := outcome
    obtain ⟨last, onwardAgain, matched⟩ := comes _ onward
    cases last with
    | ok copy final =>
        obtain ⟨rfl, kept⟩ := Correspondence.eq_of_abreast matched
        exact ⟨_, onwardAgain, done, store, uncaught, kept.symm⟩
    | error fault final => exact absurd matched id
  · intro fault after onward
    obtain ⟨last, onwardAgain, matched⟩ := comes _ onward
    cases last with
    | ok copy final => exact absurd matched id
    | error repeated final => exact ⟨_, onwardAgain, matched.1.symm, matched.2.symm⟩

end

end

/-- A well-formed program runs to its end exactly when its structured evaluation does, and fails exactly
when that does, with the same fault. Either way both leave the same frames, addresses, identities and
printed text, and at an end the same store and the same uncaught value. -/
theorem run_agrees_structured {machine : Machine} {tree : Tree} {program : Node} {counted : Nat}
    {session : Session} (reads : tree.read 0 = .ok program counted)
    (formed : program.isWellFormed false = true)
    (readable : machine.config.debug = true ∨ machine.config.outline = true → program.IsReadable)
    (allocates : Session.machineAllocator < session.allocators.size) :
    (∀ store uncaught left,
      (∃ steps progress after, machine.run steps tree session = .ok progress after ∧
        progress.state.isDone = true ∧ progress.state.store = store ∧
        progress.state.uncaught? = uncaught ∧ after.bare = left) ↔
      ∃ depth after, Structured.run machine depth program session = .ok (some ⟨store, uncaught⟩) after ∧
        after.bare = left) ∧
    ∀ fault left,
      (∃ steps after, machine.run steps tree session = .error fault after ∧ after.bare = left) ↔
      ∃ depth after, Structured.run machine depth program session = .error fault after ∧
        after.bare = left := by
  have owns := Tree.ownsExits_of_read reads
  obtain ⟨found, loaded, loads, equal, same⟩ :=
    (machine.ends_load_of_isWellFormed reads formed fun outlines _ => readable (.inr outlines)).exists_ok
  subst equal
  have allocators : loaded.bare.allocators = session.bare.allocators := by rw [same]
  have available : Session.machineAllocator < loaded.allocators.size :=
    Nat.lt_of_lt_of_eq allocates (congrArg Array.size allocators).symm
  have announced := fun debugging => readable (.inl debugging)
  have runs := run_of_load loads available
  have evaluates := fun last => @exists_leaves_of_onward machine found loaded session formed owns
    announced same available allocates last
  have stepped := fun depth => @exists_onward_of_structured machine found loaded session formed owns
    announced same allocates depth
  have advances := fun steps => machine.onward_advance steps ⟨1, firstState found loaded⟩ (begun loaded)
  refine ⟨fun store uncaught left => ⟨?_, ?_⟩, fun fault left => ⟨?_, ?_⟩⟩
  · rintro ⟨steps, progress, after, ran, done, rfl, rfl, rfl⟩
    have onward := advances steps
    rw [← runs, ran] at onward
    obtain ⟨depth, leaves⟩ := evaluates (.ok progress.state after) done onward
    cases evaluated : Structured.run machine depth found session with
    | error fault last =>
        rw [evaluated] at leaves
        exact absurd leaves id
    | ok ending last =>
        rw [evaluated] at leaves
        cases ending with
        | none => exact absurd leaves id
        | some ending =>
            obtain ⟨-, store, uncaught, kept⟩ := leaves
            rw [store, uncaught]
            exact ⟨depth, last, evaluated, kept⟩
  · rintro ⟨depth, after, evaluated, rfl⟩
    obtain ⟨last, onward, leaves⟩ := (stepped depth).of_ok evaluated _ rfl
    cases last with
    | error fault final => exact absurd leaves id
    | ok state final =>
        obtain ⟨done, rfl, rfl, kept⟩ := leaves
        obtain ⟨steps, arrives⟩ := onward.exists_advance 1 rfl
        obtain ⟨count, ran⟩ := Progress.exists_of_outcome_ok arrives
        rw [← runs] at ran
        exact ⟨steps, ⟨count, state⟩, final, ran, done, rfl, rfl, kept.symm⟩
  · rintro ⟨steps, after, ran, rfl⟩
    have onward := advances steps
    rw [← runs, ran] at onward
    obtain ⟨depth, leaves⟩ := evaluates (.error fault after) rfl onward
    cases evaluated : Structured.run machine depth found session with
    | ok ending last =>
        rw [evaluated] at leaves
        exact absurd leaves id
    | error repeated last =>
        rw [evaluated] at leaves
        obtain ⟨rfl, kept⟩ := leaves
        exact ⟨depth, last, evaluated, kept⟩
  · rintro ⟨depth, after, evaluated, rfl⟩
    obtain ⟨last, onward, leaves⟩ := (stepped depth).of_error evaluated
    cases last with
    | ok state final => exact absurd leaves id
    | error repeated final =>
        obtain ⟨rfl, kept⟩ := leaves
        obtain ⟨steps, arrives⟩ := onward.exists_advance 1 rfl
        have ran := Progress.eq_of_outcome_error arrives
        rw [← runs] at ran
        exact ⟨steps, final, ran, kept.symm⟩

/-- A function that catches what it throws runs to its end, and so does its structured evaluation. -/
theorem run_agrees_structured_in_handler :
    ∃ program counted steps progress after depth last, handledTree.read 0 = .ok program counted ∧
      program.isWellFormed false = true ∧
      run ⟨.default, none⟩ steps handledTree (.start false) = .ok progress after ∧
      progress.state.isDone = true ∧ progress.state.uncaught?.isNone = true ∧
      Structured.run ⟨.default, none⟩ depth program (.start false) =
        .ok (some ⟨progress.state.store, progress.state.uncaught?⟩) last ∧ last.bare = after.bare := by
  obtain ⟨program, counted, reads, formed⟩ : ∃ program counted,
      handledTree.read 0 = .ok program counted ∧ program.isWellFormed false = true :=
    Ends.exists_ok (by decide +kernel)
  obtain ⟨progress, after, ran, done, caught⟩ : ∃ progress after,
      run ⟨.default, none⟩ 20 handledTree (Session.start false) = .ok progress after ∧
        progress.state.isDone = true ∧ progress.state.uncaught?.isNone = true :=
    Ends.exists_ok (by decide +kernel)
  have agrees := @run_agrees_structured ⟨.default, none⟩ _ _ _ (Session.start false) reads formed
    (fun traces => nomatch traces) (by decide)
  obtain ⟨depth, last, evaluated, left⟩ := (agrees.1 progress.state.store progress.state.uncaught?
    after.bare).mp ⟨20, progress, after, ran, done, rfl, rfl, rfl⟩
  exact ⟨program, counted, 20, progress, after, depth, last, reads, formed, ran, done, caught,
    evaluated, left⟩

end Machine

end ScriptMachine
