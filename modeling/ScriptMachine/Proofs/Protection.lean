/-
This file follows handlers through the runs of a program. Main statement: the handler of a try statement
catches what is thrown while no other handler is above it, it is taken away once, and from then on every
handler that is pending is an older one or belongs to a later try statement.
-/

import ScriptMachine.Proofs.Unwinding

namespace ScriptMachine

namespace Machine

/-- A handler that has been pending since an outcome catches what is thrown while it is the innermost
one. Nothing is asked but that the throw is announced and that its argument has a value. -/
def CatchesSince (machine : Machine) (base : Session) (clause : Node) (scope : Scope) (resume : Control)
    (rest : Continuation) (start : Outcome) : Prop :=
  ∀ place argument next inner store above before announced value arrived middle,
    machine.Keeps (.handler clause scope resume :: rest) start (.ok (.active
      (.throwStatement place argument) next inner store (above ++ .handler clause scope resume :: rest))
      before) →
    (∀ pending ∈ above, pending.isHandler = false) →
    machine.announce (.active (.throwStatement place argument) next inner store
      (above ++ .handler clause scope resume :: rest)) before = .ok () announced →
    (argument.value machine.invertedTruth inner).run store announced = .ok (value, arrived) middle →
    ∃ later after, machine.step (.active (.throwStatement place argument) next inner store
        (above ++ .handler clause scope resume :: rest)) before = .ok later after ∧
      Handles base clause scope resume rest value arrived middle later after

/-- A step takes a handler away: the protected block is left and control goes on after the try statement,
a value is thrown to the handler, or a value is returned from the function that the try statement stands
in. -/
inductive Removes (machine : Machine) (base : Session) (clause : Node) (scope : Scope) (resume : Control)
    (rest : Continuation) : State → Session → State → Session → Prop where
  | completed {id : Nat} {next : Control} {inner : Scope} {store : Store} {before after : Session}
      {later : State} (stands : later.StandsAt resume scope store rest) :
      Removes machine base clause scope resume rest
        (.active (.handlerExit id) next inner store (.handler clause scope resume :: rest)) before later
        after
  | thrown {place : Place} {argument : Node} {next : Control} {inner : Scope} {store arrived : Store}
      {above : Continuation} {value : Value} {before announced middle after : Session} {later : State}
      (said : machine.announce (.active (.throwStatement place argument) next inner store
        (above ++ .handler clause scope resume :: rest)) before = .ok () announced)
      (evaluated : (argument.value machine.invertedTruth inner).run store announced =
        .ok (value, arrived) middle)
      (unguarded : ∀ pending ∈ above, pending.isHandler = false)
      (handles : Handles base clause scope resume rest value arrived middle later after) :
      Removes machine base clause scope resume rest (.active (.throwStatement place argument) next inner
        store (above ++ .handler clause scope resume :: rest)) before later after
  | returned {place : Place} {argument : Node} {next goesOn : Control} {inner caller : Scope}
      {store arrived bound : Store} {above between below : Continuation} {value : Value} {target : Target}
      {before announced middle after : Session} {later : State}
      (split : rest = between ++ .call target goesOn caller :: below)
      (said : machine.announce (.active (.returnStatement place argument) next inner store
        (above ++ .handler clause scope resume :: rest)) before = .ok () announced)
      (gives : machine.Gives inner store announced (.returnStatement place argument)
        (above ++ .handler clause scope resume :: rest) value arrived middle)
      (uncalled : ∀ pending ∈ above ++ .handler clause scope resume :: between, pending.isCall = false)
      (takes : target.Takes caller value arrived after bound)
      (stands : later.StandsAt goesOn caller bound below) :
      Removes machine base clause scope resume rest (.active (.returnStatement place argument) next inner
        store (above ++ .handler clause scope resume :: rest)) before later after

/-- Every handler that is pending at a state is one of some older ones, or a try statement has put it
there since an outcome and it has stayed. -/
def GuardedSince (machine : Machine) (older : Continuation) (start : Outcome) (state : State)
    (session : Session) : Prop :=
  ∀ clause scope resume rest, .handler clause scope resume :: rest <:+ state.continuation →
    .handler clause scope resume :: rest <:+ older ∨
    ∃ place guarded others exit store before,
      machine.Onward start (.ok (.active (.tryStatement place guarded clause others exit) resume scope
        store rest) before) ∧
      machine.Keeps (.handler clause scope resume :: rest) (machine.step (.active
        (.tryStatement place guarded clause others exit) resume scope store rest) before)
        (.ok state session)

variable {machine : Machine} {program clause : Node} {base session after before announced : Session}
  {state next : State} {resume : Control} {scope : Scope} {rest : Continuation} {store : Store} {tree : Tree}
  {counted : Nat}

/-- A handler that is gone leaves nothing but older handlers behind. -/
theorem Removes.older (removes : machine.Removes base clause scope resume rest state before next after)
    {held : Pending} {below : Continuation} (isHandler : held.isHandler = true)
    (holds : held :: below <:+ next.continuation) : held :: below <:+ rest := by
  cases removes with
  | completed stands =>
      rw [stands.continuation] at holds
      exact holds
  | thrown said evaluated unguarded handles =>
      cases handles with
      | passed empty stands =>
          rw [stands.continuation] at holds
          exact holds
      | entered shape listed named fresh slot stands =>
          rw [stands.continuation, List.suffix_cons_iff] at holds
          rcases holds with same | deeper
          · rw [(List.cons.inj same).1] at isHandler
            cases isHandler
          · exact deeper
  | returned split said gives uncalled takes stands =>
      rw [stands.continuation] at holds
      rw [split]
      exact holds.trans ((List.suffix_cons _ _).trans (List.suffix_append _ _))

/-- Control that falls off the body of a function stands above no handler of the function. -/
theorem Gives.isReturn {node : Node} {inner : Scope} {arrived : Store} {value : Value} {middle : Session}
    {above : Continuation}
    (gives : machine.Gives inner store announced node (above ++ .handler clause scope resume :: rest) value
      arrived middle) (uncalled : ∀ pending ∈ above, pending.isCall = false) :
    ∃ place argument, node = .returnStatement place argument := by
  generalize waiting : above ++ .handler clause scope resume :: rest = continuation at gives
  cases gives with
  | nothing => exact ⟨_, _, rfl⟩
  | argument present evaluated => exact ⟨_, _, rfl⟩
  | fallenOff =>
      cases above with
      | nil => cases waiting
      | cons first above =>
          cases above with
          | nil => cases waiting
          | cons second above =>
              obtain ⟨-, isCall, -⟩ : _ ∧ second = _ ∧ _ := by simpa using waiting
              cases isCall
              cases uncalled _ (List.mem_cons_of_mem _ List.mem_cons_self)

/-- A handler that is pending is taken away in one of three ways. -/
theorem Runs.removes (runs : machine.Runs program base (.ok state session))
    (said : machine.announce state session = .ok () announced)
    (moves : machine.Moves announced state next after)
    (holds : .handler clause scope resume :: rest <:+ state.continuation)
    (dropped : ¬ .handler clause scope resume :: rest <:+ next.continuation) :
    machine.Removes base clause scope resume rest state session next after := by
  obtain ⟨before, split⟩ := holds
  cases moves.pops_of_dropped ⟨before, split⟩ dropped with
  | leaves stands => cases (Continuation.top_of_dropped split stands.suffix dropped).1
  | completes stands =>
      obtain ⟨same, rfl⟩ := Continuation.top_of_dropped split stands.suffix dropped
      cases same
      exact .completed stands
  | returns gives uncalled binds stands =>
      rcases Continuation.split_of_dropped split stands.suffix dropped with ⟨-, isCall, -⟩ | ⟨between, rfl, rfl⟩
      · cases isCall
      · have takes := Target.takes_of_bindResult (runs.inside_of_gives said gives) binds
        rw [List.append_assoc, List.cons_append] at said gives ⊢
        have nearer : ∀ pending ∈ before, pending.isCall = false :=
          fun pending member => uncalled pending (List.mem_append_left _ member)
        obtain ⟨place, argument, rfl⟩ := gives.isReturn nearer
        exact .returned rfl said gives uncalled takes stands
  | @catches _ _ _ _ _ _ _ _ _ above below _ _ _ _ evaluated unguarded caught =>
      have lower := Continuation.suffix_of_caught caught
      rcases Continuation.split_of_dropped split lower dropped with
        ⟨rfl, same, rfl⟩ | ⟨between, rfl, -⟩
      · cases same
        obtain ⟨layout, passed, laid, stored, pends⟩ := runs.laid_evaluated said evaluated
        obtain ⟨_, _, _, _, visible⟩ := pends (.handler clause scope resume) (by simp)
        exact .thrown said evaluated unguarded
          ((Layout.ends_caught passed laid stored visible).of_ok caught)
      · -- a handler above the one that caught would have been nearer
        cases unguarded (.handler clause scope resume) (by simp)
  | escapes evaluated unguarded =>
      dsimp only [State.continuation] at split
      subst split
      cases unguarded (.handler clause scope resume) (by simp)

/-- From when a handler is gone, every handler that is pending is an older one or a later one. -/
theorem Runs.guardedSince {final : Session} {gone last : State} (reads : tree.read 0 = .ok program counted)
    (formed : program.isWellFormed false = true) (runs : machine.Runs program base (.ok gone after))
    (removes : machine.Removes base clause scope resume rest state before gone after)
    (onward : machine.Onward (.ok gone after) (.ok last final)) :
    machine.GuardedSince rest (.ok gone after) last final := by
  intro other outer goesOn below holds
  have later : Outcome.Holds (.handler other outer goesOn :: below) (.ok last final) := holds
  rcases onward.keeps_or_gains later with keeps | ⟨site, moment, reached, active, missing, keeps⟩
  · exact .inl (removes.older rfl keeps.begins)
  · cases stepped : machine.step site moment with
    | error fault failed =>
        rw [stepped] at keeps
        cases keeps
    | ok inside entered =>
        rw [stepped] at keeps
        obtain ⟨announced, -, moves⟩ := exists_moves formed ((runs.onward reached).fits reads formed) stepped
        rcases moves.gained keeps.begins missing with
          ⟨onward, around, isScope⟩ | ⟨node, body, onward, around, inner, store, bound, target, isCall, -⟩ |
          ⟨place, guarded, clause, others, exit, onward, around, store, same, rfl⟩
        · cases isScope
        · cases isCall
        · cases same
          rw [← stepped] at keeps
          exact .inr ⟨place, guarded, others, exit, store, moment, reached, keeps⟩

/-- A handler that is set up by a try statement catches what is thrown to it. -/
theorem Runs.catchesSince {place inner : Place} {guarded body : Node} {param : Ident} {others : List Node}
    {exit : Nat} {start : Outcome} (reads : tree.read 0 = .ok program counted)
    (formed : program.isWellFormed false = true)
    (runs : machine.Runs program base (.ok (.active (.tryStatement place guarded
      (.catchClause inner param body) others exit) resume scope store rest) session))
    (named : param.name.isText = true)
    (onward : machine.Onward (.ok (.active (.tryStatement place guarded (.catchClause inner param body)
      others exit) resume scope store rest) session) start) :
    machine.CatchesSince base (.catchClause inner param body) scope resume rest start := by
  intro thrownPlace argument next around held above before announced value arrived middle keeps unguarded
    said evaluated
  have canCatch : (Node.catchClause inner param body).CanCatch resume := by
    obtain ⟨inFunction, layers, position, -⟩ := runs.fits reads formed
    have statement := (position.standing formed).isStatement rfl rfl formed
    simp only [Node.isStatement, Node.isClause, Bool.and_eq_true] at statement
    obtain ⟨blockPlace, statements, blockExit, rfl, -⟩ := Node.exists_of_isBlock statement.2.2
    obtain ⟨text, written⟩ : ∃ text, param.name.written = .text text := by
      unfold Name.isText at named
      split at named
      · exact ⟨_, ‹_›⟩
      · cases named
    have keyed : param.name.key = .ok (.text text) := by simp [Name.key, written]
    exact ⟨position.next_ne_nowhere formed (Tree.ownsExits_of_read reads) rfl rfl,
      inner, param, blockPlace, statements, blockExit, .text text, rfl, keyed⟩
  have throwing := (runs.onward onward).onward keeps.onward
  obtain ⟨layout, passed, laid, stored, pends⟩ := throwing.laid_evaluated said evaluated
  obtain ⟨_, _, _, _, visible⟩ := pends (.handler (.catchClause inner param body) scope resume) (by simp)
  have caught : Ends (Continuation.caught (.catchClause inner param body) scope resume value arrived rest)
      middle (Handles base (.catchClause inner param body) scope resume rest value arrived middle)
      fun _ _ => False :=
    (Layout.ends_caught passed laid stored visible).weaken (fun _ _ handles => handles)
      fun _ _ cannot => cannot canCatch
  have stepped : machine.step (.active (.throwStatement thrownPlace argument) next around held
      (above ++ .handler (.catchClause inner param body) scope resume :: rest)) before =
      Continuation.caught (.catchClause inner param body) scope resume value arrived rest middle := by
    rw [← Continuation.thrown_append unguarded]
    exact (bind_of_ok said).trans (bind_of_ok evaluated)
  rw [stepped]
  exact caught.exists_ok

/-- A try statement with a filled block protects it: its handler catches what is thrown to it, and is
taken away once and for all. -/
theorem Runs.try_protocol {tree : Tree} {counted : Nat} {place inner : Place} {guarded body : Node}
    {param : Ident} {others : List Node} {exit : Nat} {store : Store} {entered : State}
    (reads : tree.read 0 = .ok program counted) (formed : program.isWellFormed false = true)
    (runs : machine.Runs program base (.ok (.active (.tryStatement place guarded
      (.catchClause inner param body) others exit) resume scope store rest) session))
    (filled : guarded.emptyBody? = some false) (named : param.name.isText = true)
    (stepped : machine.step (.active (.tryStatement place guarded (.catchClause inner param body) others
      exit) resume scope store rest) session = .ok entered after) :
    entered.continuation = .scope (.visit (.handlerExit exit) resume) scope ::
        .handler (.catchClause inner param body) scope resume :: rest ∧
      machine.CatchesSince base (.catchClause inner param body) scope resume rest (.ok entered after) ∧
      ∀ later, machine.Onward (.ok entered after) later →
        machine.Keeps (.handler (.catchClause inner param body) scope resume :: rest) (.ok entered after)
          later ∨
        ∃ last before gone final,
          machine.Keeps (.handler (.catchClause inner param body) scope resume :: rest)
            (.ok entered after) (.ok last before) ∧
          machine.step last before = .ok gone final ∧
          machine.Removes base (.catchClause inner param body) scope resume rest last before gone final ∧
          machine.Onward (.ok gone final) later ∧
          ∀ state session, later = .ok state session →
            machine.GuardedSince rest (.ok gone final) state session := by
  have active := Machine.isDone_of_step stepped
  have entering : machine.Onward (.ok (.active (.tryStatement place guarded (.catchClause inner param body)
      others exit) resume scope store rest) session) (.ok entered after) := by
    apply Onward.step active
    rw [stepped]
    exact .refl
  have pushed : entered.continuation = .scope (.visit (.handlerExit exit) resume) scope ::
      .handler (.catchClause inner param body) scope resume :: rest := by
    obtain ⟨⟨⟩, announced, -, moved⟩ := exists_of_bind stepped
    unfold stepActive at moved
    simp only [filled] at moved
    obtain ⟨opened, middle, -, resumed⟩ := exists_of_bind moved
    exact (State.standsAt_of_resume resumed).1.continuation
  refine ⟨pushed, runs.catchesSince reads formed named entering, ?_⟩
  intro later onward
  have holds : Outcome.Holds (.handler (.catchClause inner param body) scope resume :: rest)
      (.ok entered after) := by
    show _ <:+ entered.continuation
    rw [pushed]
    exact List.suffix_cons _ _
  rcases onward.keeps_or_drops holds with keeps | ⟨last, before, gone, final, keeps, left, dropped, reached⟩
  · exact .inl keeps
  · have inside := (runs.onward entering).onward keeps.onward
    obtain ⟨announced, said, moves⟩ := exists_moves formed (inside.fits reads formed) left
    have removes := inside.removes said moves keeps.holds dropped
    have leaving : machine.Runs program base (.ok gone final) := by
      refine inside.onward (.step (Machine.isDone_of_step left) ?_)
      rw [left]
      exact .refl
    refine .inr ⟨last, before, gone, final, keeps, left, removes, reached, ?_⟩
    rintro state session rfl
    exact leaving.guardedSince reads formed removes reached

/-- The state enters a block that is not empty, and what is thrown there is caught under a name. -/
def setsUpHandler : State → Bool
  | .active (.tryStatement _ guarded (.catchClause _ param _) _ _) _ _ _ _ =>
      guarded.emptyBody? == some false && param.name.isText
  | _ => false

/-- A function that catches what it throws sets up a handler in every call. -/
theorem Runs.try_protocol_of_handled :
    ∃ program counted state session entered after clause scope resume rest,
      handledTree.read 0 = .ok program counted ∧ program.isWellFormed false = true ∧
      Runs ⟨.default, none⟩ program (Session.start false) (.ok state session) ∧
      Machine.step ⟨.default, none⟩ state session = .ok entered after ∧
      .handler clause scope resume :: rest <:+ entered.continuation ∧
      CatchesSince ⟨.default, none⟩ (Session.start false) clause scope resume rest (.ok entered after) ∧
      ∀ later, Onward ⟨.default, none⟩ (.ok entered after) later →
        Keeps ⟨.default, none⟩ (.handler clause scope resume :: rest) (.ok entered after) later ∨
        ∃ last before gone final, Machine.step ⟨.default, none⟩ last before = .ok gone final ∧
          Removes ⟨.default, none⟩ (Session.start false) clause scope resume rest last before gone
            final := by
  obtain ⟨program, counted, reads, formed⟩ : ∃ program counted,
      handledTree.read 0 = .ok program counted ∧ program.isWellFormed false = true :=
    Ends.exists_ok (by decide +kernel)
  obtain ⟨progress, session, ran, guards, steps⟩ : ∃ progress session,
      Machine.run ⟨.default, none⟩ 4 handledTree (Session.start false) = .ok progress session ∧
        setsUpHandler progress.state = true ∧
        Ends (Machine.step ⟨.default, none⟩ progress.state) session (fun _ _ => True)
          (fun _ _ => False) :=
    Ends.exists_ok (by decide +kernel)
  obtain ⟨entered, after, stepped, -⟩ := steps.exists_ok
  have runs := runs_of_run rfl reads ran
  unfold setsUpHandler at guards
  split at guards
  · rename_i place guarded inner param body others exit resume scope store rest stands
    rw [stands] at runs stepped
    obtain ⟨filled, named⟩ : guarded.emptyBody? = some false ∧ param.name.isText = true := by
      simpa using guards
    obtain ⟨pushed, catches, removes⟩ := runs.try_protocol reads formed filled named stepped
    refine ⟨program, counted, _, session, entered, after, .catchClause inner param body, scope, resume, rest,
      reads, formed, runs, stepped, pushed ▸ List.suffix_cons _ _, catches, ?_⟩
    intro later onward
    rcases removes later onward with keeps | ⟨last, before, gone, final, -, left, removed, -⟩
    · exact .inl keeps
    · exact .inr ⟨last, before, gone, final, left, removed⟩
  · cases guards

end Machine

end ScriptMachine
