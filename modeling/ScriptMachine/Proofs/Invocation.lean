/-
This file follows calls through the runs of a program. Main statement: a call that waits for its value
stays where it is below all that its function does, until a value is returned to it, and then the caller
goes on as it was, or until a value is thrown past it.
-/

import ScriptMachine.Proofs.Unwinding

namespace ScriptMachine

namespace Machine

/-- A step enters the body of a function, and the statement that made the call waits: it is known what
comes after it, in which scope it stands and where it wants the value. -/
inductive Calls (machine : Machine) (target : Target) (resume : Control) (scope : Scope)
    (rest : Continuation) : State → Session → State → Prop where
  | intro {node body : Node} {inner : Scope} {store bound : Store} {before announced : Session}
      (said : machine.announce (.active node resume scope store rest) before = .ok () announced)
      (requests : machine.Requests scope store announced node target)
      (filled : body.emptyBody? = some false) :
      Calls machine target resume scope rest (.active node resume scope store rest) before
        (.active body .nowhere inner bound (.call target resume scope :: rest))

/-- A step returns a value to a call that waits. No other call is nearer. The caller goes on after its
statement, in its own scope and with its own work pending, and its store is the one that the value came
with, apart from the place that takes the value. -/
inductive Returns (machine : Machine) (target : Target) (resume : Control) (scope : Scope)
    (rest : Continuation) : State → Session → State → Session → Prop where
  | intro {node : Node} {next : Control} {inner : Scope} {store arrived bound : Store}
      {above : Continuation} {value : Value} {before announced middle after : Session} {later : State}
      (said : machine.announce (.active node next inner store
        (above ++ .call target resume scope :: rest)) before = .ok () announced)
      (gives : machine.Gives inner store announced node (above ++ .call target resume scope :: rest)
        value arrived middle)
      (nearest : ∀ pending ∈ above, pending.isCall = false)
      (takes : target.Takes scope value arrived after bound)
      (stands : later.StandsAt resume scope bound rest) :
      Returns machine target resume scope rest
        (.active node next inner store (above ++ .call target resume scope :: rest)) before later after

/-- A step throws a value past a call that waits. The value goes to the innermost handler below the call,
which deals with it, or it ends the run. -/
inductive ThrowsPast (machine : Machine) (base : Session) (call : Pending) (rest : Continuation) :
    State → Session → State → Session → Prop where
  | caught {place : Place} {argument clause : Node} {next resume : Control} {inner outer : Scope}
      {store arrived : Store} {above between below : Continuation} {value : Value}
      {before announced middle after : Session} {later : State}
      (split : rest = between ++ .handler clause outer resume :: below)
      (said : machine.announce (.active (.throwStatement place argument) next inner store
        (above ++ call :: rest)) before = .ok () announced)
      (evaluated : (argument.value machine.invertedTruth inner).run store announced =
        .ok (value, arrived) middle)
      (unguarded : ∀ pending ∈ above ++ call :: between, pending.isHandler = false)
      (handles : Handles base clause outer resume below value arrived middle later after) :
      ThrowsPast machine base call rest
        (.active (.throwStatement place argument) next inner store (above ++ call :: rest)) before
        later after
  | uncaught {place : Place} {argument : Node} {next : Control} {inner : Scope}
      {store arrived : Store} {above : Continuation} {value : Value}
      {before announced middle after : Session}
      (said : machine.announce (.active (.throwStatement place argument) next inner store
        (above ++ call :: rest)) before = .ok () announced)
      (evaluated : (argument.value machine.invertedTruth inner).run store announced =
        .ok (value, arrived) middle)
      (unguarded : ∀ pending ∈ above ++ call :: rest, pending.isHandler = false) :
      ThrowsPast machine base call rest
        (.active (.throwStatement place argument) next inner store (above ++ call :: rest)) before
        (.uncaught value arrived) after

variable {machine : Machine} {program : Node} {base session after : Session} {state next : State}
  {target : Target} {resume : Control} {scope : Scope} {rest : Continuation}

/-- Nothing but entering a function puts a call on top of what is pending. -/
theorem Moves.calls_of_pushed {announced : Session}
    (said : machine.announce state session = .ok () announced)
    (moves : machine.Moves announced state next after) (waiting : state.continuation = rest)
    (pushed : next.continuation = .call target resume scope :: rest) :
    machine.Calls target resume scope rest state session next := by
  have missing : ¬ (.call target resume scope :: rest) <:+ state.continuation := by
    intro suffix
    rw [waiting] at suffix
    exact Nat.not_succ_le_self _ suffix.length_le
  rcases moves.gained (pushed ▸ List.suffix_rfl) missing with
    ⟨onward, outer, isScope⟩ | ⟨node, body, onward, outer, inner, store, bound, wanted, same, rfl,
      requests, filled, rfl⟩ | ⟨place, guarded, clause, others, exit, onward, outer, store, same, -⟩
  · cases isScope
  · cases same
    exact .intro said requests filled
  · cases same

/-- A call that waits is taken away by a value that is returned to it, or by one that is thrown past. -/
theorem Runs.returns_or_throws {announced : Session}
    (runs : machine.Runs program base (.ok state session))
    (said : machine.announce state session = .ok () announced)
    (moves : machine.Moves announced state next after)
    (holds : .call target resume scope :: rest <:+ state.continuation)
    (dropped : ¬ .call target resume scope :: rest <:+ next.continuation) :
    machine.Returns target resume scope rest state session next after ∨
      machine.ThrowsPast base (.call target resume scope) rest state session next after := by
  obtain ⟨before, split⟩ := holds
  cases moves.pops_of_dropped ⟨before, split⟩ dropped with
  | leaves stands => cases (Continuation.top_of_dropped split stands.suffix dropped).1
  | completes stands => cases (Continuation.top_of_dropped split stands.suffix dropped).1
  | returns gives uncalled binds stands =>
      rcases Continuation.split_of_dropped split stands.suffix dropped with ⟨rfl, same, rfl⟩ | ⟨between, rfl, -⟩
      · cases same
        have takes := Target.takes_of_bindResult (runs.inside_of_gives said gives) binds
        exact .inl (.intro said gives uncalled takes stands)
      · -- a call above the one that is returned to would be nearer
        cases uncalled (.call target resume scope) (by simp)
  | @catches place argument clause onward goesOn inner outer store arrived above below value middle _ _
      evaluated unguarded caught =>
      have lower := Continuation.suffix_of_caught caught
      rcases Continuation.split_of_dropped split lower dropped with
        ⟨-, isHandler, -⟩ | ⟨between, rfl, rfl⟩
      · cases isHandler
      · obtain ⟨layout, passed, laid, stored, pends⟩ := runs.laid_evaluated said evaluated
        obtain ⟨_, _, _, _, visible⟩ := pends (.handler clause outer goesOn) (by simp)
        have handles := (Layout.ends_caught passed laid stored visible).of_ok caught
        have same : before ++ .call target resume scope :: between ++ .handler clause outer goesOn :: below =
            before ++ .call target resume scope :: (between ++ .handler clause outer goesOn :: below) := by
          simp
        rw [same] at said ⊢
        exact .inr (.caught rfl said evaluated unguarded handles)
  | escapes evaluated unguarded =>
      dsimp only [State.continuation] at split
      subst split
      exact .inr (.uncaught said evaluated unguarded)

/-- A call keeps its place below all that its function does, until a value is returned to it or thrown
past it. -/
theorem Runs.call_protocol {tree : Tree} {counted : Nat} {entered : State} {later : Outcome}
    (reads : tree.read 0 = .ok program counted) (formed : program.isWellFormed false = true)
    (runs : machine.Runs program base (.ok state session))
    (stepped : machine.step state session = .ok entered after)
    (pushed : entered.continuation = .call target resume scope :: state.continuation)
    (onward : machine.Onward (.ok entered after) later) :
    machine.Calls target resume scope state.continuation state session entered ∧
      (machine.Keeps (.call target resume scope :: state.continuation) (.ok entered after) later ∨
        ∃ last before next final,
          machine.Keeps (.call target resume scope :: state.continuation) (.ok entered after)
            (.ok last before) ∧
          machine.step last before = .ok next final ∧ machine.Onward (.ok next final) later ∧
          (machine.Returns target resume scope state.continuation last before next final ∨
            machine.ThrowsPast base (.call target resume scope) state.continuation last before next
              final)) := by
  obtain ⟨announced, said, moves⟩ := exists_moves formed (runs.fits reads formed) stepped
  refine ⟨moves.calls_of_pushed said rfl pushed, ?_⟩
  have holds : Outcome.Holds (.call target resume scope :: state.continuation) (.ok entered after) :=
    pushed ▸ List.suffix_rfl
  rcases onward.keeps_or_drops holds with keeps | ⟨last, before, next, final, keeps, left, dropped, reached⟩
  · exact .inl keeps
  · have active := Machine.isDone_of_step stepped
    have inside : machine.Runs program base (.ok last before) := by
      refine runs.onward (.step active ?_)
      rw [stepped]
      exact keeps.onward
    obtain ⟨announced, said, moves⟩ := exists_moves formed (inside.fits reads formed) left
    exact .inr ⟨last, before, next, final, keeps, left, reached,
      inside.returns_or_throws said moves keeps.holds dropped⟩

/-- The first call of a function that makes an object waits for the object. -/
theorem Runs.call_protocol_of_activations :
    ∃ program counted state session entered after target resume scope,
      Sample.activations.read 0 = .ok program counted ∧ program.isWellFormed false = true ∧
      Runs ⟨.default, none⟩ program (Session.start false) (.ok state session) ∧
      Machine.step ⟨.default, none⟩ state session = .ok entered after ∧
      entered.continuation = .call target resume scope :: state.continuation ∧
      Calls ⟨.default, none⟩ target resume scope state.continuation state session entered ∧
      ∀ later, Onward ⟨.default, none⟩ (.ok entered after) later →
        Keeps ⟨.default, none⟩ (.call target resume scope :: state.continuation) (.ok entered after)
          later ∨
        ∃ last before next final, Machine.step ⟨.default, none⟩ last before = .ok next final ∧
          (Returns ⟨.default, none⟩ target resume scope state.continuation last before next final ∨
            ThrowsPast ⟨.default, none⟩ (Session.start false) (.call target resume scope)
              state.continuation last before next final) := by
  obtain ⟨program, counted, reads, formed⟩ : ∃ program counted,
      Sample.activations.read 0 = .ok program counted ∧ program.isWellFormed false = true :=
    Ends.exists_ok (by decide +kernel)
  obtain ⟨progress, session, ran, steps, alone⟩ : ∃ progress session,
      Machine.run ⟨.default, none⟩ 2 Sample.activations (Session.start false) = .ok progress session ∧
        Ends (Machine.step ⟨.default, none⟩ progress.state) session
          (fun entered _ => entered.continuation.map Pending.isCall = [true]) (fun _ _ => False) ∧
        progress.state.continuation.length = 0 :=
    Ends.exists_ok (by decide +kernel)
  obtain ⟨entered, after, stepped, calls⟩ := steps.exists_ok
  have empty := List.eq_nil_of_length_eq_zero alone
  obtain ⟨pending, single, isCall⟩ : ∃ pending, entered.continuation = [pending] ∧
      pending.isCall = true := by simpa using calls
  obtain ⟨target, resume, scope, rfl⟩ : ∃ target resume scope, pending = .call target resume scope := by
    cases pending with
    | call target resume scope => exact ⟨target, resume, scope, rfl⟩
    | scope resume outer => cases isCall
    | handler clause scope resume => cases isCall
  have runs := runs_of_run rfl reads ran
  have pushed : entered.continuation = .call target resume scope :: progress.state.continuation := by
    rw [single, empty]
  refine ⟨program, counted, progress.state, session, entered, after, target, resume, scope, reads, formed,
    runs, stepped, pushed, (runs.call_protocol reads formed stepped pushed .refl).1, ?_⟩
  intro later onward
  rcases (runs.call_protocol reads formed stepped pushed onward).2 with
    keeps | ⟨last, before, next, final, -, left, -, ends⟩
  · exact .inl keeps
  · exact .inr ⟨last, before, next, final, left, ends⟩

end Machine

end ScriptMachine
