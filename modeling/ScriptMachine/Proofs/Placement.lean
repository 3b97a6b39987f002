/-
This file shows that the links between statements and the continuations of a run match. Main
statement: at every state of a well-formed program, the work that is pending is what the position of
the statement calls for.
-/

import ScriptMachine.Proofs.Beginning
import ScriptMachine.Proofs.Preservation

namespace ScriptMachine

variable {program : Node} {session loaded : Session} {tree : Tree}

/-- What is the case for plain values, the prototype of objects and the first built-in functions is the
case for every value that a program starts with. -/
theorem Globals.forall_get_store {good : Value → Prop} (base : Session)
    (plain : ∀ {value}, value.isPlain = true → good value)
    (object : good (.object (Globals.prototype base)))
    (own : ∀ {offset arity name routine}, offset < 3 → routine.isOwn = true →
      good (.builtin (base.identities + offset) arity name routine)) (address : Address) :
    good ((Globals.store base).get address) := by
  have inserted : ∀ {store : Store} {found : Address} {value : Value}, found ≠ 0 →
      (∀ address, good (store.get address)) → good value →
      ∀ address, good ((store.insert found value).get address) := by
    intro store found value notNull before held address
    have extended := @Store.extend_of_ne store found value notNull
    rw [Store.get_extend extended]
    split
    · exact held
    · exact before address
  have empty : ∀ address, good (Store.empty.get address) := by
    intro address
    unfold Store.get
    split <;> exact plain rfl
  unfold Globals.store
  refine inserted (by decide) ?_ (own (by decide) rfl) address
  refine inserted (by decide) ?_ (own (by decide) rfl)
  refine inserted (by decide) ?_ object
  refine inserted (by decide) ?_ (plain rfl)
  exact inserted (by decide) empty (own (by decide) rfl)

/-- The globals that every program starts with are proper. -/
theorem Globals.proper_store (program : Node) (base : Session) :
    (Globals.store base).Proper program :=
  Globals.forall_get_store base Value.proper_of_isPlain trivial fun _ isOwn => isOwn

/-- The states that steps lead to from the initial state of a program. A state may be held and stepped
again later, so a step may find any session. -/
inductive Machine.Reachable (machine : Machine) (program : Node) : State → Prop where
  | initial {before after : Session} {state : State}
      (starts : Machine.initialState program before = .ok state after) :
      Reachable machine program state
  | step {before after : Session} {state next : State} (reached : Reachable machine program state)
      (steps : machine.step state before = .ok next after) : Reachable machine program next

variable {machine : Machine}

/-- Advancing a run reaches no states but those that steps lead to. -/
theorem Machine.Reachable.ends_advance {progress : Progress}
    (reached : machine.Reachable program progress.state) (steps : Nat) (session : Session) :
    Ends (machine.advance steps progress) session
      (fun last _ => machine.Reachable program last.state) fun _ _ => True := by
  induction steps generalizing progress session with
  | zero => exact reached
  | succ steps ih =>
      rw [Machine.advance]
      split
      · exact reached
      · rw [ends_bind]
        cases stepped : machine.step progress.state session with
        | error fault after => simp only [Ends, stepped]
        | ok next after =>
            have onward : machine.Reachable program next := reached.step stepped
            have ends := @ih ⟨progress.count + 1, next⟩ onward after
            simpa only [Ends, stepped] using ends

/-- A program that is loaded is what was read. -/
theorem Machine.ends_load (machine : Machine) {counted : Nat} (reads : tree.read 0 = .ok program counted)
    (session : Session) :
    Ends (machine.load tree) session (fun loaded _ => loaded = program) fun _ _ => True := by
  have finishes : ∀ links session, Ends (if machine.config.outline = true then (do
      Machine.outline machine.source 0 program links
      pure program) else pure program) session (fun loaded _ => loaded = program)
      fun _ _ => True := by
    intro links session
    split
    · rw [ends_bind]
      exact (ends_any _ _).weaken (fun _ _ _ => rfl) fun _ _ _ => trivial
    · rfl
  unfold Machine.load Machine.readTree
  rw [reads, ends_bind, ends_pure]
  dsimp only
  split
  · trivial
  · rw [ends_bind]
    exact (ends_any _ _).weaken (fun links after _ => finishes links after) fun _ _ _ => trivial

/-- A run of a program that is loaded and started goes on from its first state. -/
theorem Machine.run_of_load (loads : machine.load tree session = .ok program loaded)
    (allocates : Session.machineAllocator < loaded.allocators.size) (steps : Nat) :
    machine.run steps tree session =
      machine.advance steps ⟨1, firstState program loaded⟩ (begun loaded) := by
  have starts := @initialState_of_allocates program loaded allocates
  have begins : machine.begin tree session = .ok ⟨1, firstState program loaded⟩ (begun loaded) := by
    unfold begin
    rw [bind_of_ok loads]
    exact bind_of_ok starts
  exact bind_of_ok begins

/-- A program that is not loaded is not run. -/
theorem Machine.run_of_load_error {fault : Fault} (fails : machine.load tree session = .error fault loaded)
    (steps : Nat) : machine.run steps tree session = .error fault loaded := by
  have begins : machine.begin tree session = .error fault loaded := bind_of_error fails
  exact bind_of_error begins

/-- A program that is not started is not run. -/
theorem Machine.run_of_initialState_error {fault : Fault} {after : Session}
    (loads : machine.load tree session = .ok program loaded)
    (fails : initialState program loaded = .error fault after) (steps : Nat) :
    machine.run steps tree session = .error fault after := by
  have begins : machine.begin tree session = .error fault after := by
    unfold begin
    rw [bind_of_ok loads]
    exact bind_of_error fails
  exact bind_of_error begins

/-- The states of a run are reachable. -/
theorem Machine.reachable_of_run (machine : Machine) {counted : Nat}
    (reads : tree.read 0 = .ok program counted) (steps : Nat) (session : Session) :
    Ends (machine.run steps tree) session
      (fun last _ => machine.Reachable program last.state) fun _ _ => True := by
  unfold Machine.run Machine.begin
  simp only [ends_bind, ends_pure]
  refine (machine.ends_load reads session).weaken ?_ fun _ _ _ => trivial
  intro loaded after same
  subst same
  cases started : Machine.initialState loaded after with
  | error fault last => simp only [Ends, started]
  | ok state last =>
      have reached : machine.Reachable loaded state := .initial started
      have ends := @Machine.Reachable.ends_advance loaded machine ⟨1, state⟩ reached steps last
      simpa only [Ends, started] using ends

section

variable {machine : Machine} {program : Node} {plain : Bool} {state : State}

/-- A run that has ended takes no step. -/
theorem Machine.isDone_of_step {before after : Session} {next : State}
    (steps : machine.step state before = .ok next after) : state.isDone = false := by
  cases ended : state.isDone with
  | false => rfl
  | true =>
      have never : Ends (machine.step state) before (fun _ _ => False) fun _ _ => True := by
        unfold Machine.step
        rw [ends_bind]
        refine (ends_any (machine.announce state) before).weaken ?_ fun _ _ _ => trivial
        intro _ middle _
        cases state with
        | active node next scope store continuation => cases ended
        | halted scope store continuation => trivial
        | uncaught value store => trivial
      exact absurd (never.of_ok steps) id

/-- Every state of a well-formed program is in order. -/
theorem Machine.Reachable.sound (formed : program.isWellFormed plain = true) (owns : program.OwnsExits)
    (quiet : plain = true → machine.config.debug = false) (reachable : machine.Reachable program state) :
    state.Sound program plain := by
  induction reachable with
  | initial starts =>
      obtain ⟨-, rfl, -⟩ := Machine.initialState_eq starts
      exact ⟨⟨false, [], .root, .halt⟩, Globals.proper_store program _, by simp [Continuation.Fits]⟩
  | step reached steps ih =>
      exact (machine.leads_step formed owns quiet (Machine.isDone_of_step steps) ih).of_ok steps

end

/-- The pending work of a state is what its position calls for: the innermost call, or the program
itself, has entered the layers around the statement and no others, and below a call lies what the
statement that made it calls for. Once the program has ended nothing is pending. -/
def State.Fits (program : Node) : State → Prop
  | .active node next _ _ continuation =>
      ∃ inFunction layers, Position program inFunction node next layers ∧
        continuation.innermost = layers ∧ continuation.inCall = inFunction ∧
        Stacked program inFunction layers continuation
  | .halted _ _ continuation => continuation = []
  | .uncaught .. => True

/-- What is pending in a sound state fits its statement. -/
theorem State.Sound.fits {program : Node} {plain : Bool} {state : State} (sound : state.Sound program plain) :
    state.Fits program := by
  cases state with
  | active node next scope store continuation =>
      obtain ⟨⟨inFunction, layers, position, stacked⟩, -⟩ := sound
      exact ⟨inFunction, layers, position, stacked.innermost, stacked.inCall, stacked⟩
  | halted scope store continuation => exact sound.1
  | uncaught value store => trivial

/-- Links and continuations match at every state that a well-formed program reaches. -/
theorem Machine.Reachable.fits_position {machine : Machine} {tree : Tree} {program : Node}
    {count counted : Nat} {state : State} (reads : tree.read count = .ok program counted)
    (formed : program.isWellFormed false = true) (reachable : machine.Reachable program state) :
    state.Fits program := by
  have owns := Tree.ownsExits_of_read reads
  exact (reachable.sound formed owns (by simp)).fits

/-- A function that catches what it throws, and a call of it. -/
def Machine.handledTree : Tree :=
  let node := fun (kind : String) (fields : List (String × Tree)) =>
    Tree.record .dictionary (("type", .text kind) :: fields)
  let name := fun (text : String) => node "Identifier" [("name", .text text)]
  let block := fun (body : List Tree) => node "BlockStatement" [("body", .list body)]
  let thrown := node "ThrowStatement" [("argument", node "Literal" [("value", .text "no")])]
  let clause := node "CatchClause" [("param", name "e"), ("body", block [])]
  let guarded := node "TryStatement" [("block", block [thrown]), ("handler", clause)]
  let function := node "FunctionDeclaration"
    [("id", name "f"), ("params", .list []), ("body", block [guarded])]
  let call := node "CallExpression" [("callee", name "f"), ("arguments", .list [])]
  node "Program" [("body", .list [function, node "ExpressionStatement" [("expression", call)]])]

/-- While a function throws inside a protected block, its call waits below the layers of the block. -/
theorem Machine.Reachable.fits_position_in_handler :
    ∃ program counted state, Machine.handledTree.read 0 = .ok program counted ∧
      program.isWellFormed false = true ∧ Machine.Reachable ⟨.default, none⟩ program state ∧
      state.pendingLabels =
        ["LeaveScopeKont", "HandlerKont", "LeaveScopeKont", "AssignKont", "HaltKont"] ∧
      state.Fits program := by
  obtain ⟨program, counted, reads, formed⟩ : ∃ program counted,
      Machine.handledTree.read 0 = .ok program counted ∧ program.isWellFormed false = true :=
    Ends.exists_ok (by decide +kernel)
  obtain ⟨progress, after, ran, labels⟩ : ∃ progress after,
      Machine.run ⟨.default, none⟩ 5 Machine.handledTree (Session.start false) =
        .ok progress after ∧ progress.state.pendingLabels =
        ["LeaveScopeKont", "HandlerKont", "LeaveScopeKont", "AssignKont", "HaltKont"] :=
    Ends.exists_ok (by decide +kernel)
  have reached := (Machine.reachable_of_run _ reads _ _).of_ok ran
  exact ⟨program, counted, progress.state, reads, formed, reached, labels,
    fits_position reads formed reached⟩

end ScriptMachine
