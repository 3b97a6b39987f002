/-
This file says what a step does to the work that is pending. Main statement: a step of a well-formed
program keeps what is pending, adds to it by entering a block, a protected block or a function, or takes
from it by leaving one of these, by a value returned or by a value thrown.
-/

import ScriptMachine.Proofs.Placement

namespace ScriptMachine

def Pending.isCall : Pending → Bool
  | .call .. => true
  | _ => false

def Pending.isHandler : Pending → Bool
  | .handler .. => true
  | _ => false

/-- Where a state stands: control has gone on in a scope, with a store and with work pending. -/
structure State.StandsAt (state : State) (control : Control) (scope : Scope) (store : Store)
    (continuation : Continuation) : Prop where
  control : state.control = control
  scope : state.scope? = some scope
  store : state.store = store
  continuation : state.continuation = continuation

section

variable {control : Control} {scope : Scope} {store : Store} {continuation : Continuation}
  {session after : Session} {state : State}

theorem State.StandsAt.suffix (stands : state.StandsAt control scope store continuation) :
    continuation <:+ state.continuation :=
  stands.continuation ▸ List.suffix_rfl

/-- Resuming stands at the control it is given. -/
theorem State.standsAt_of_resume
    (resumed : State.resume control scope store continuation session = .ok state after) :
    state.StandsAt control scope store continuation ∧ after = session := by
  cases control with
  | nowhere => cases resumed
  | done =>
      cases resumed
      exact ⟨⟨rfl, rfl, rfl, rfl⟩, rfl⟩
  | visit node next =>
      cases resumed
      exact ⟨⟨rfl, rfl, rfl, rfl⟩, rfl⟩

/-- Control that leads somewhere makes a state. -/
theorem State.exists_resume (somewhere : control ≠ .nowhere) (scope : Scope) (store : Store)
    (continuation : Continuation) (session : Session) :
    ∃ state, State.resume control scope store continuation session = .ok state session := by
  cases control with
  | nowhere => exact absurd rfl somewhere
  | done => exact ⟨_, rfl⟩
  | visit node next => exact ⟨_, rfl⟩

end

namespace Continuation

variable {continuation above before rest below : Continuation} {value : Value} {store : Store}
  {session after : Session} {state : State} {first held : Pending}

/-- Where the parts of a split at one element lie in a split at another one. -/
theorem split_cases (same : above ++ first :: rest = before ++ held :: below) :
    (∃ between, rest = between ++ held :: below) ∨
      (above = before ∧ first = held ∧ rest = below) ∨
      ∃ between, above = before ++ held :: between ∧ below = between ++ first :: rest := by
  rcases List.append_eq_append_iff.mp same with ⟨between, split, tail⟩ | ⟨between, split, tail⟩
  · cases between with
    | nil =>
        obtain ⟨rfl, rfl⟩ := List.cons.inj tail
        exact .inr (.inl ⟨by simpa using split.symm, rfl, rfl⟩)
    | cons pending between =>
        exact .inl ⟨between, (List.cons.inj tail).2⟩
  · cases between with
    | nil =>
        obtain ⟨rfl, rfl⟩ := List.cons.inj tail
        exact .inr (.inl ⟨by simpa using split, rfl, rfl⟩)
    | cons pending between =>
        obtain ⟨rfl, below⟩ := List.cons.inj tail
        exact .inr (.inr ⟨between, split, below⟩)

variable {kept : Continuation} {clause : Node} {scope : Scope} {resume : Control}

/-- Work that has been dropped is the first of what was kept away, or lies above it. -/
theorem split_of_dropped (same : before ++ held :: below = above ++ first :: rest) (lower : rest <:+ kept)
    (dropped : ¬ held :: below <:+ kept) :
    (above = before ∧ first = held ∧ rest = below) ∨
      ∃ between, above = before ++ held :: between ∧ below = between ++ first :: rest := by
  rcases split_cases same.symm with ⟨between, rfl⟩ | isFirst
  · exact absurd ((List.suffix_append between _).trans lower) dropped
  · exact isFirst

/-- Where only the topmost work was taken away, it is what has been dropped. -/
theorem top_of_dropped (same : before ++ held :: below = first :: rest) (lower : rest <:+ kept)
    (dropped : ¬ held :: below <:+ kept) : first = held ∧ rest = below := by
  rcases @split_of_dropped [] before rest below first held kept same lower dropped with
    ⟨-, isFirst⟩ | ⟨between, empty, -⟩
  · exact isFirst
  · simp at empty

/-- A value is returned to the innermost call. -/
theorem exists_of_returned (delivered : returned value store continuation session = .ok state after) :
    ∃ above target resume scope rest bound,
      continuation = above ++ .call target resume scope :: rest ∧
      (∀ pending ∈ above, pending.isCall = false) ∧
      bindResult target scope value store session = .ok bound after ∧
      state.StandsAt resume scope bound rest := by
  induction continuation with
  | nil => cases delivered
  | cons pending rest ih =>
      have further : returned value store rest session = .ok state after → pending.isCall = false →
          ∃ above target resume scope below bound,
            pending :: rest = above ++ .call target resume scope :: below ∧
            (∀ pending ∈ above, pending.isCall = false) ∧
            bindResult target scope value store session = .ok bound after ∧
            state.StandsAt resume scope bound below := by
        intro delivered noCall
        obtain ⟨above, target, resume, scope, below, bound, split, uncalled, binds, stands⟩ :=
          ih delivered
        refine ⟨pending :: above, target, resume, scope, below, bound, by rw [split]; rfl, ?_, binds, stands⟩
        exact List.forall_mem_cons.mpr ⟨noCall, uncalled⟩
      cases pending with
      | call target resume scope =>
          obtain ⟨bound, middle, binds, resumed⟩ := exists_of_bind delivered
          obtain ⟨stands, rfl⟩ := State.standsAt_of_resume resumed
          exact ⟨[], target, resume, scope, rest, bound, rfl, fun _ member => absurd member List.not_mem_nil,
            binds, stands⟩
      | scope resume outer => exact further delivered rfl
      | handler clause scope resume => exact further delivered rfl

/-- A value is thrown to the innermost handler, or ends the run. -/
theorem cases_of_thrown (delivered : thrown value store continuation session = .ok state after) :
    (∃ above clause scope resume rest,
      continuation = above ++ .handler clause scope resume :: rest ∧
      (∀ pending ∈ above, pending.isHandler = false) ∧
      caught clause scope resume value store rest session = .ok state after) ∨
    (∀ pending ∈ continuation, pending.isHandler = false) ∧ state = .uncaught value store := by
  induction continuation with
  | nil =>
      cases delivered
      exact .inr ⟨fun _ member => absurd member List.not_mem_nil, rfl⟩
  | cons pending rest ih =>
      have further : thrown value store rest session = .ok state after → pending.isHandler = false →
          (∃ above clause scope resume below,
            pending :: rest = above ++ .handler clause scope resume :: below ∧
            (∀ pending ∈ above, pending.isHandler = false) ∧
            caught clause scope resume value store below session = .ok state after) ∨
          (∀ other ∈ pending :: rest, other.isHandler = false) ∧ state = .uncaught value store := by
        intro delivered noHandler
        rcases ih delivered with
          ⟨above, clause, scope, resume, below, split, unguarded, catches⟩ | ⟨unguarded, ended⟩
        · refine .inl ⟨pending :: above, clause, scope, resume, below, by rw [split]; rfl, ?_, catches⟩
          exact List.forall_mem_cons.mpr ⟨noHandler, unguarded⟩
        · exact .inr ⟨List.forall_mem_cons.mpr ⟨noHandler, unguarded⟩, ended⟩
      cases pending with
      | call target resume scope => exact further delivered rfl
      | scope resume outer => exact further delivered rfl
      | handler clause scope resume =>
          exact .inl ⟨[], clause, scope, resume, rest, rfl,
            fun _ member => absurd member List.not_mem_nil, delivered⟩

/-- Past calls and scopes, a thrown value comes to a handler. -/
theorem thrown_append (unguarded : ∀ pending ∈ above, pending.isHandler = false) (clause : Node)
    (scope : Scope) (resume : Control) (rest : Continuation) :
    thrown value store (above ++ .handler clause scope resume :: rest) =
      caught clause scope resume value store rest := by
  induction above with
  | nil => rfl
  | cons pending above ih =>
      obtain ⟨noHandler, others⟩ := List.forall_mem_cons.mp unguarded
      cases pending with
      | call target onward caller => exact ih others
      | scope onward outer => exact ih others
      | handler other outer onward => cases noHandler

/-- A handler is gone once it has caught a value. Its clause may have been entered. -/
theorem continuation_of_caught
    (delivered : caught clause scope resume value store rest session = .ok state after) :
    state.continuation = rest ∨ state.continuation = .scope resume scope :: rest := by
  have ends : Ends (caught clause scope resume value store rest) session
      (fun state _ => state.continuation = rest ∨ state.continuation = .scope resume scope :: rest)
      fun _ _ => True := by
    unfold caught
    split
    · trivial
    · apply Ends.intro
      · intro later final resumed
        exact .inl (State.standsAt_of_resume resumed).1.continuation
      · intros
        trivial
    · split
      · refine ends_then fun inner _ => ends_then fun address _ => ends_then fun bound _ => ?_
        split
        · exact .inr rfl
        · trivial
      · trivial
  exact ends.of_ok delivered

/-- A delivery to a handler keeps the rest below. -/
theorem suffix_of_caught (delivered : caught clause scope resume value store rest session = .ok state after) :
    rest <:+ state.continuation := by
  rcases continuation_of_caught delivered with same | entered
  · exact same ▸ List.suffix_rfl
  · exact entered ▸ List.suffix_cons _ _

end Continuation

namespace Machine

variable (machine : Machine)

/-- Where a statement wants the value of the call that it makes: nowhere, at the address that it has
resolved before, or in the slot of the name that it declares. -/
inductive Requests (scope : Scope) (store : Store) (session : Session) : Node → Target → Prop where
  | alone {place inner : Place} {callee : Node} {arguments : List Node} :
      Requests scope store session (.expressionStatement place (.call inner callee arguments)) .discard
  | assigned {place inner called : Place} {left callee : Node} {arguments : List Node}
      {operand : Operand} {resolved : Scratch} {address : Address}
      (evaluated : left.evaluate machine.invertedTruth scope ⟨session, store⟩ = .ok operand resolved)
      (found : operand.address? = some address) :
      Requests scope store session (.expressionStatement place
        (.assignment inner .assign left (.call called callee arguments))) (.location address)
  | declared {place inner called : Place} {ident : Ident} {callee : Node} {arguments : List Node}
      {keyword : Tree} :
      Requests scope store session
        (.declaration place [.declarator inner ident (.call called callee arguments)] keyword)
        (.choose ident.name none)

/-- The value that a statement gives to the innermost call, with the store and the session that it
arrives at. Control that falls off the body of a function stands directly above the call. -/
inductive Gives (scope : Scope) (store : Store) (session : Session) :
    Node → Continuation → Value → Store → Session → Prop where
  | nothing {place : Place} {continuation : Continuation} :
      Gives scope store session (.returnStatement place .absent) continuation .undefined store session
  | argument {place : Place} {argument : Node} {continuation : Continuation} {value : Value}
      {arrived : Store} {after : Session} (present : argument.isAbsent = false)
      (evaluated : (argument.value machine.invertedTruth scope).run store session =
        .ok (value, arrived) after) :
      Gives scope store session (.returnStatement place argument) continuation value arrived after
  | fallenOff {id : Nat} {outer caller : Scope} {target : Target} {resume : Control}
      {rest : Continuation} :
      Gives scope store session (.scopeExit id)
        (.scope .nowhere outer :: .call target resume caller :: rest) .undefined store session

/-- A step that takes from the work that is pending: a scope or a protected block is left, a value is
returned to the innermost call, or a value is thrown. -/
inductive Pops (session : Session) : State → State → Session → Prop where
  | leaves {id : Nat} {next resume : Control} {scope outer : Scope} {store : Store} {rest : Continuation}
      {later : State} {after : Session} (stands : later.StandsAt resume outer store rest) :
      Pops session (.active (.scopeExit id) next scope store (.scope resume outer :: rest)) later after
  | completes {id : Nat} {next resume : Control} {scope outer : Scope} {store : Store} {clause : Node}
      {rest : Continuation} {later : State} {after : Session}
      (stands : later.StandsAt resume outer store rest) :
      Pops session (.active (.handlerExit id) next scope store (.handler clause outer resume :: rest))
        later after
  | returns {node : Node} {next resume : Control} {scope caller : Scope} {store arrived bound : Store}
      {above rest : Continuation} {value : Value} {target : Target} {middle after : Session} {later : State}
      (gives : machine.Gives scope store session node (above ++ .call target resume caller :: rest) value
        arrived middle)
      (uncalled : ∀ pending ∈ above, pending.isCall = false)
      (binds : Continuation.bindResult target caller value arrived middle = .ok bound after)
      (stands : later.StandsAt resume caller bound rest) :
      Pops session (.active node next scope store (above ++ .call target resume caller :: rest)) later
        after
  | catches {place : Place} {argument clause : Node} {next resume : Control} {scope outer : Scope}
      {store arrived : Store} {above rest : Continuation} {value : Value} {middle after : Session}
      {later : State}
      (evaluated : (argument.value machine.invertedTruth scope).run store session =
        .ok (value, arrived) middle)
      (unguarded : ∀ pending ∈ above, pending.isHandler = false)
      (caught : Continuation.caught clause outer resume value arrived rest middle = .ok later after) :
      Pops session (.active (.throwStatement place argument) next scope store
        (above ++ .handler clause outer resume :: rest)) later after
  | escapes {place : Place} {argument : Node} {next : Control} {scope : Scope} {store arrived : Store}
      {continuation : Continuation} {value : Value} {middle after : Session}
      (evaluated : (argument.value machine.invertedTruth scope).run store session =
        .ok (value, arrived) middle)
      (unguarded : ∀ pending ∈ continuation, pending.isHandler = false) :
      Pops session (.active (.throwStatement place argument) next scope store continuation)
        (.uncaught value arrived) after

/-- What a step does to the work that is pending. -/
inductive Moves (session : Session) : State → State → Session → Prop where
  | keeps {node : Node} {next : Control} {scope : Scope} {store : Store} {continuation : Continuation}
      {later : State} {after : Session} (same : later.continuation = continuation) :
      Moves session (.active node next scope store continuation) later after
  | opens {node : Node} {next : Control} {scope : Scope} {store : Store} {continuation : Continuation}
      {later : State} {after : Session} (pushed : later.continuation = .scope next scope :: continuation) :
      Moves session (.active node next scope store continuation) later after
  | protects {place : Place} {guarded clause : Node} {others : List Node} {exit : Nat} {next : Control}
      {scope : Scope} {store : Store} {continuation : Continuation} {later : State} {after : Session}
      (pushed : later.continuation = .scope (.visit (.handlerExit exit) next) scope ::
        .handler clause scope next :: continuation) :
      Moves session (.active (.tryStatement place guarded clause others exit) next scope store
        continuation) later after
  | calls {node body : Node} {next : Control} {scope inner : Scope} {store bound : Store}
      {continuation : Continuation} {target : Target} {after : Session}
      (requests : machine.Requests scope store session node target)
      (filled : body.emptyBody? = some false) :
      Moves session (.active node next scope store continuation)
        (.active body .nowhere inner bound (.call target next scope :: continuation)) after
  | pops {state later : State} {after : Session} (pops : machine.Pops session state later after) :
      Moves session state later after

variable {machine} {node : Node} {next : Control} {scope : Scope} {store arrived : Store}
  {continuation : Continuation} {session middle : Session}

/-- Going on with the same work pending. -/
theorem moves_resume {control : Control} {inner : Scope} :
    Ends (State.resume control inner arrived continuation) middle
      (machine.Moves session (.active node next scope store continuation)) fun _ _ => True := by
  apply Ends.intro
  · intro later after resumed
    exact .keeps (State.standsAt_of_resume resumed).1.continuation
  · intros
    trivial

/-- What evaluation in the place of a statement does to the work that is pending: a call that is not
over yet waits for its value. -/
def Waits (machine : Machine) (session : Session) (node : Node) (next : Control) (scope : Scope)
    (store : Store) (continuation : Continuation) : Effect → Prop
  | .operand _ => True
  | .entered state => state.continuation = continuation ∨
      ∃ target body inner bound, machine.Requests scope store session node target ∧
        body.emptyBody? = some false ∧
        state = .active body .nowhere inner bound (.call target next scope :: continuation)

section

variable {inverted : Bool} {site : CallSite} {scratch : Scratch}

/-- A call that answers at once has come and gone. -/
theorem ends_returned_pending (value : Value) (arrived : Store) :
    Ends (Continuation.returned value arrived site.pending) session
      (fun state _ => state.control = site.resume ∧ state.continuation = site.continuation)
      fun _ _ => True := by
  apply ends_then
  intro bound middle
  apply Ends.intro
  · intro state after resumed
    have stands := (State.standsAt_of_resume resumed).1
    exact ⟨stands.control, stands.continuation⟩
  · intros
    trivial

/-- A call is over at once, or it runs the body of a function while its site waits. -/
theorem ends_callFrom (callee : Node) (arguments : List Node) :
    Ends (callFrom inverted site callee arguments) scratch
      (fun state _ => state.continuation = site.continuation ∨
        ∃ body inner bound, body.emptyBody? = some false ∧
          state = .active body .nowhere inner bound site.pending) fun _ _ => True := by
  rw [callFrom_eq]
  apply ends_then
  intro value evaluated
  cases value with
  | builtin identity arity name routine =>
      refine ends_then fun values _ => ends_then fun answer _ => ends_then fun arrived _ => ?_
      rw [ends_liftAction]
      exact (ends_returned_pending answer arrived).weaken (fun _ _ same => .inl same.2)
        fun _ _ _ => trivial
  | function closure =>
      refine ends_then fun _ _ => ends_then fun values _ => ?_
      refine ends_then fun inner _ => ends_then fun _ bound => ?_
      split
      · trivial
      · refine ends_then fun arrived _ => ?_
        rw [ends_liftAction]
        exact (ends_returned_pending .undefined arrived).weaken (fun _ _ same => .inl same.2)
          fun _ _ _ => trivial
      · rename_i filled
        exact .inr ⟨closure.code.body, inner, bound.store, filled, rfl⟩
  | _ => exact ends_then fun _ _ => trivial

/-- A call waits for the target it requests. -/
theorem waits_callFrom {target : Target} (requests : machine.Requests scope store session node target)
    (callee : Node) (arguments : List Node) :
    Ends (callFrom machine.invertedTruth ⟨target, next, scope, continuation⟩ callee arguments >>=
        fun state => pure (Effect.entered state)) scratch
      (fun effect _ => machine.Waits session node next scope store continuation effect)
      fun _ _ => True := by
  rw [ends_bind]
  refine (ends_callFrom callee arguments).weaken ?_ fun _ _ _ => trivial
  rintro state after (same | ⟨body, inner, bound, filled, entered⟩)
  · exact .inl same
  · exact .inr ⟨target, body, inner, bound, requests, filled, entered⟩

end

/-- An expression statement waits for its own call. -/
theorem waits_evaluateStatement (place : Place) (expression : Node) :
    Ends (expression.evaluateStatement machine.invertedTruth scope continuation next) ⟨session, store⟩
      (fun effect _ => machine.Waits session (.expressionStatement place expression) next scope store
        continuation effect) fun _ _ => True := by
  unfold Node.evaluateStatement
  split
  · exact waits_callFrom .alone _ _
  · rw [ends_bind]
    apply Ends.intro
    · intro operand resolved evaluated
      cases found : operand.address? with
      | none => trivial
      | some address => exact waits_callFrom (.assigned evaluated found) _ _
    · intros
      trivial
  · exact ends_then fun _ _ => trivial

/-- A declaration waits for its own call. -/
theorem waits_declaration (place : Place) (declarators : List Node) (keyword : Tree) :
    Ends (machine.declaration declarators keyword next scope continuation) ⟨session, store⟩
      (fun effect _ => machine.Waits session (.declaration place declarators keyword) next scope store
        continuation effect) fun _ _ => True := by
  unfold declaration
  split
  · exact waits_callFrom .declared _ _
  · trivial
  · trivial
  · exact ends_then fun _ _ => trivial

/-- What waits moves on. -/
theorem moves_proceed {draft : Draft Effect}
    (waits : Ends draft ⟨session, store⟩
      (fun effect _ => machine.Waits session node next scope store continuation effect)
      fun _ _ => True) :
    Ends (proceed draft next scope store continuation) session
      (machine.Moves session (.active node next scope store continuation)) fun _ _ => True := by
  unfold proceed
  rw [ends_bind, ends_run]
  refine waits.weaken ?_ fun _ _ _ => trivial
  intro effect arrived waits
  cases effect with
  | operand operand => exact moves_resume
  | entered state =>
      rcases waits with same | ⟨target, body, inner, bound, requests, filled, rfl⟩
      · exact .keeps same
      · exact .calls requests filled

variable {program : Node} {plain inFunction : Bool} {layers : List Layer} {id : Nat} {value : Value}

/-- Control that falls off a body leaves the scope that was opened for it, and falling off the body of a
function returns from the function. -/
theorem moves_leftScope (formed : program.isWellFormed plain = true)
    (position : Position program inFunction (.scopeExit id) next layers)
    (stacked : Stacked program inFunction layers continuation) :
    Ends (Continuation.leftScope store continuation) session
      (machine.Moves session (.active (.scopeExit id) next scope store continuation))
      fun _ _ => True := by
  obtain ⟨around, rfl⟩ := position.layers_of_scopeExit formed
  cases stacked with
  | @scope _ _ _ outer rest follows below =>
      cases next with
      | nowhere =>
          cases follows
          cases below with
          | call position calls below =>
              refine Ends.intro (fun later after returned => ?_) fun _ _ _ => trivial
              obtain ⟨bound, middle, binds, resumed⟩ := exists_of_bind returned
              obtain ⟨stands, rfl⟩ := State.standsAt_of_resume resumed
              exact .pops (@Pops.returns _ _ _ _ _ _ _ _ _ _ [.scope .nowhere outer] _ _ _ _ _ _ .fallenOff
                  (by simp [Pending.isCall]) binds stands)
      | done =>
          exact Ends.intro (fun later after resumed => .pops (.leaves (State.standsAt_of_resume resumed).1))
            fun _ _ _ => trivial
      | visit node following =>
          exact Ends.intro (fun later after resumed => .pops (.leaves (State.standsAt_of_resume resumed).1))
            fun _ _ _ => trivial

/-- Leaving a handler is a move. -/
theorem moves_leftHandler (formed : program.isWellFormed plain = true)
    (position : Position program inFunction (.handlerExit id) next layers)
    (stacked : Stacked program inFunction layers continuation) :
    Ends (Continuation.leftHandler store continuation) session
      (machine.Moves session (.active (.handlerExit id) next scope store continuation))
      fun _ _ => True := by
  obtain ⟨clause, around, rfl⟩ := position.layers_of_handlerExit formed
  cases stacked with
  | handler position below =>
      exact Ends.intro (fun later after resumed => .pops (.completes (State.standsAt_of_resume resumed).1))
        fun _ _ _ => trivial

/-- A return is a move. -/
theorem moves_returned (gives : machine.Gives scope store session node continuation value arrived middle) :
    Ends (Continuation.returned value arrived continuation) middle
      (machine.Moves session (.active node next scope store continuation)) fun _ _ => True := by
  refine Ends.intro (fun later after returned => ?_) fun _ _ _ => trivial
  obtain ⟨above, target, resume, caller, rest, bound, rfl, uncalled, binds, stands⟩ :=
    Continuation.exists_of_returned returned
  exact .pops (.returns gives uncalled binds stands)

/-- A throw is a move. -/
theorem moves_thrown {place : Place} {argument : Node}
    (evaluated : (argument.value machine.invertedTruth scope).run store session =
        .ok (value, arrived) middle) :
    Ends (Continuation.thrown value arrived continuation) middle
      (machine.Moves session (.active (.throwStatement place argument) next scope store continuation))
      fun _ _ => True := by
  refine Ends.intro (fun later after thrown => ?_) fun _ _ _ => trivial
  rcases Continuation.cases_of_thrown thrown with
    ⟨above, clause, outer, resume, rest, rfl, unguarded, caught⟩ | ⟨unguarded, rfl⟩
  · exact .pops (.catches evaluated unguarded caught)
  · exact .pops (.escapes evaluated unguarded)

/-- What a step does from a position that its continuation fits. -/
theorem moves_stepActive (formed : program.isWellFormed plain = true)
    (position : Position program inFunction node next layers)
    (stacked : Stacked program inFunction layers continuation) :
    Ends (machine.stepActive node next scope store continuation) session
      (machine.Moves session (.active node next scope store continuation)) fun _ _ => True := by
  cases node with
  | program place body => exact moves_resume
  | emptyStatement place => exact moves_resume
  | block place body exit =>
      unfold stepActive
      dsimp only
      split
      · exact moves_resume
      · refine ends_then fun inner middle => ?_
        exact Ends.intro (fun later after resumed => .opens (State.standsAt_of_resume resumed).1.continuation)
          fun _ _ _ => trivial
  | scopeExit id => exact moves_leftScope formed position stacked
  | handlerExit id => exact moves_leftHandler formed position stacked
  | functionDeclaration place name params body =>
      unfold stepActive
      dsimp only
      split
      · trivial
      · exact ends_then fun _ _ => ends_then fun _ _ => ends_then fun _ _ => moves_resume
  | declaration place declarators keyword => exact moves_proceed (waits_declaration place declarators keyword)
  | expressionStatement place expression => exact moves_proceed (waits_evaluateStatement place expression)
  | ifStatement | whileStatement =>
      rw [machine.stepActive_of_test _ _ _ _ rfl]
      exact ends_then fun _ _ => moves_resume
  | returnStatement place argument =>
      have evaluated : argument.isAbsent = false →
          Ends ((argument.value machine.invertedTruth scope).run store >>= fun result =>
            Continuation.returned result.1 result.2 continuation) session
            (machine.Moves session (.active (.returnStatement place argument) next scope store continuation))
            fun _ _ => True := by
        intro present
        rw [ends_bind]
        exact Ends.intro (fun result middle evaluated => moves_returned (.argument present evaluated))
          fun _ _ _ => trivial
      cases argument with
      | absent => exact moves_returned .nothing
      | _ => exact evaluated rfl
  | throwStatement place argument =>
      unfold stepActive
      rw [ends_bind]
      exact Ends.intro (fun result middle evaluated => moves_thrown evaluated) fun _ _ _ => trivial
  | tryStatement place guarded clause others exit =>
      unfold stepActive
      dsimp only
      split
      · trivial
      · exact moves_resume
      · refine ends_then fun inner middle => ?_
        exact Ends.intro
          (fun later after resumed => .protects (State.standsAt_of_resume resumed).1.continuation)
          fun _ _ _ => trivial
  | _ => trivial

/-- A step is announced, and then moves. -/
theorem exists_moves {state later : State} {after : Session} (formed : program.isWellFormed plain = true)
    (fits : state.Fits program) (stepped : machine.step state session = .ok later after) :
    ∃ announced, machine.announce state session = .ok () announced ∧
      machine.Moves announced state later after := by
  obtain ⟨⟨⟩, announced, said, moved⟩ := exists_of_bind stepped
  refine ⟨announced, said, ?_⟩
  cases state with
  | active node next scope store continuation =>
      obtain ⟨inFunction, layers, position, -, -, stacked⟩ := fits
      exact (moves_stepActive formed position stacked).of_ok moved
  | halted scope store continuation => cases moved
  | uncaught value store => cases moved

section

variable {state later : State} {after : Session} {pending : Pending} {bottom rest : Continuation}

/-- A step that takes work away leaves the lower part of it, and may open the scope of a clause. -/
theorem Pops.suffix (pops : machine.Pops session state later after) :
    ∃ below, below <:+ state.continuation ∧
      (later.continuation = below ∨ ∃ resume outer, later.continuation = .scope resume outer :: below) := by
  cases pops with
  | leaves stands => exact ⟨_, List.suffix_cons _ _, .inl stands.continuation⟩
  | completes stands => exact ⟨_, List.suffix_cons _ _, .inl stands.continuation⟩
  | returns gives uncalled binds stands =>
      exact ⟨_, (List.suffix_cons _ _).trans (List.suffix_append _ _), .inl stands.continuation⟩
  | catches evaluated unguarded caught =>
      refine ⟨_, (List.suffix_cons _ _).trans (List.suffix_append _ _), ?_⟩
      exact (Continuation.continuation_of_caught caught).imp_right fun entered => ⟨_, _, entered⟩
  | escapes evaluated unguarded => exact ⟨[], List.nil_suffix, .inl rfl⟩

/-- Work that a step has taken away was popped. -/
theorem Moves.pops_of_dropped (moves : machine.Moves session state later after)
    (holds : bottom <:+ state.continuation) (dropped : ¬ bottom <:+ later.continuation) :
    machine.Pops session state later after := by
  cases moves with
  | keeps same =>
      rw [same] at dropped
      exact absurd holds dropped
  | opens pushed =>
      rw [pushed] at dropped
      exact absurd (holds.trans (List.suffix_cons _ _)) dropped
  | protects pushed =>
      rw [pushed] at dropped
      exact absurd (holds.trans ((List.suffix_cons _ _).trans (List.suffix_cons _ _))) dropped
  | calls requests filled => exact absurd (holds.trans (List.suffix_cons _ _)) dropped
  | pops pops => exact pops

/-- Work that a step has put on top is a scope, a call that waits, or the handler of a try statement. -/
theorem Moves.gained (moves : machine.Moves session state later after)
    (holds : pending :: rest <:+ later.continuation) (missing : ¬ pending :: rest <:+ state.continuation) :
    (∃ resume outer, pending = .scope resume outer) ∨
    (∃ node body next scope inner store bound target, pending = .call target next scope ∧
      state = .active node next scope store rest ∧ machine.Requests scope store session node target ∧
      body.emptyBody? = some false ∧
      later = .active body .nowhere inner bound (.call target next scope :: rest)) ∨
    ∃ place guarded clause others exit next scope store, pending = .handler clause scope next ∧
      state = .active (.tryStatement place guarded clause others exit) next scope store rest := by
  have isScope : ∀ {resume outer below}, below <:+ state.continuation →
      later.continuation = .scope resume outer :: below →
      ∃ resume outer, pending = .scope resume outer := by
    intro resume outer below lower opened
    rw [opened, List.suffix_cons_iff] at holds
    rcases holds with same | deeper
    · exact ⟨resume, outer, (List.cons.inj same).1⟩
    · exact absurd (deeper.trans lower) missing
  cases moves with
  | keeps same =>
      rw [same] at holds
      exact absurd holds missing
  | opens pushed => exact .inl (isScope List.suffix_rfl pushed)
  | protects pushed =>
      rw [pushed, List.suffix_cons_iff, List.suffix_cons_iff] at holds
      rcases holds with same | same | deeper
      · exact .inl ⟨_, _, (List.cons.inj same).1⟩
      · obtain ⟨rfl, rfl⟩ := List.cons.inj same
        exact .inr (.inr ⟨_, _, _, _, _, _, _, _, rfl, rfl⟩)
      · exact absurd deeper missing
  | calls requests filled =>
      rcases List.suffix_cons_iff.mp holds with same | deeper
      · obtain ⟨rfl, rfl⟩ := List.cons.inj same
        exact .inr (.inl ⟨_, _, _, _, _, _, _, _, rfl, rfl, requests, filled, rfl⟩)
      · exact absurd deeper missing
  | pops pops =>
      obtain ⟨below, lower, same | ⟨resume, outer, opened⟩⟩ := pops.suffix
      · rw [same] at holds
        exact absurd (holds.trans lower) missing
      · exact .inl (isScope lower opened)

end

end Machine

end ScriptMachine
