/-
This file uses one machine for several runs. Main statement: a run does not depend on what its machine
was used for before. It counts as many states and ends with the same store and the same globals as on a
new machine, prints the same text, and leaves the same value uncaught or fails in the same way.
-/

import ScriptMachine.Proofs.Loading
import ScriptMachine.Proofs.Sequel
import ScriptMachine.Proofs.Tracing
import ScriptMachine.Proofs.Vetting

namespace ScriptMachine

/-- The range of a node can be read. -/
def Node.hasRange (node : Node) : Bool := node.place.range.isRange

theorem Node.hasRange_of_isExit (node : Node) (exit : node.isExit = true) : node.hasRange = true := by
  cases node with
  | scopeExit | handlerExit => rfl
  | _ => cases exit

/-- What a state stands at can be shown, whatever the source is. -/
theorem State.Vetted.shown {state : State} (vetted : state.Vetted Node.hasRange)
    (source : Option String) : ∃ text, state.excerpt source = .ok text := by
  cases state with
  | active node next scope store continuation => exact Node.excerpt_of_isRange vetted.check source
  | halted | uncaught => exact ⟨_, rfl⟩

/-- The globals of a run that follows others are set up like those of a run on its own. -/
theorem Scratch.follows_begun {before session other : Session} {verbose : Bool}
    (single : before.allocators.size = 1) (new : session.bare = (Session.start verbose).bare)
    (used : other.bare = before.bare) :
    Scratch.Follows before ⟨Machine.begun session, Globals.store session⟩
      ⟨Machine.begun other, Globals.store other⟩ := by
  simp only [Session.bare, Session.start, Session.mk.injEq] at new used
  obtain ⟨frames, allocators, identities, -, output, -⟩ := new
  obtain ⟨usedFrames, sameAllocators, usedIdentities, -, usedOutput, -⟩ := used
  obtain ⟨count, usedAllocators⟩ := Array.size_eq_one_iff.mp (sameAllocators ▸ single)
  have builtin : ∀ (offset : Nat) (name : String) {routine : Routine}, routine.isOwn = true →
      (Value.builtin (session.identities + offset) 1 (.text name) routine).Like (.behind before)
        (.builtin (other.identities + offset) 1 (.text name) routine) := by
    intro offset name routine own
    rw [identities, usedIdentities, Nat.zero_add]
    exact .builtin offset 1 (.text name) own
  have prototype : (Value.object (Globals.prototype session)).Like (.behind before)
      (.object (Globals.prototype other)) := by
    unfold Globals.prototype
    rw [frames, usedFrames]
    exact .object 0 ⟨1, []⟩
  have appended : ∀ first second : Frame,
      (before.frames.push first).push second = before.frames ++ #[first, second] :=
    fun first second => Array.ext' (by simp)
  refine ⟨?_, ?_⟩
  · simp [Machine.begun, Globals.underway, Session.bare, Session.behind, Machine.globalScope,
      Pairing.scope, Pairing.behind, appended, frames, allocators, identities, output, usedFrames,
      usedAllocators, usedIdentities, usedOutput, Session.machineAllocator]
  · refine Store.Alike.insert ?_ (by decide) (builtin 2 _ rfl)
    refine Store.Alike.insert ?_ (by decide) (builtin 1 _ rfl)
    refine Store.Alike.insert ?_ (by decide) prototype
    refine Store.Alike.insert ?_ (by decide) (.plain rfl)
    exact Store.alike_empty.insert (by decide) (builtin 0 _ rfl)

namespace Machine

/-- Results of a run that follows others, and of the run on its own. A failure has printed the same. -/
def Continues (before : Session) :
    EStateM.Result Fault Session Progress → EStateM.Result Fault Session Progress → Prop
  | .ok progress session, .ok again other => again.count = progress.count ∧
      (Correspondence.sequel before).Abreast () session other progress.state again.state
  | .error fault session, .error again other =>
      again = fault ∧ other.output = before.output ++ session.output
  | _, _ => False

/-- Loading reads the tree. -/
theorem exists_read_of_load {machine : Machine} {tree : Tree} {program : Node} {session after : Session}
    (loads : machine.load tree session = .ok program after) :
    ∃ counted, tree.read 0 = .ok program counted := by
  cases reads : tree.read 0 with
  | error fault counted =>
      unfold load readTree at loads
      rw [reads] at loads
      cases loads
  | ok found counted => exact ⟨counted, by rw [(machine.ends_load reads session).of_ok loads]⟩

/-- A run that follows others begins like a run on its own. -/
theorem abreast_firstState {before session other : Session} {verbose : Bool} (program : Node)
    (single : before.allocators.size = 1) (new : session.bare = (Session.start verbose).bare)
    (used : other.bare = before.bare) :
    (Correspondence.sequel before).Abreast () (begun session) (begun other)
      (firstState program session) (firstState program other) := by
  have frames : session.frames.size = 0 := congrArg (fun held => held.frames.size) new
  have usedFrames : other.frames.size = before.frames.size := by
    have sizes : other.bare.frames.size = before.bare.frames.size := by rw [used]
    exact sizes
  have scope : globalScope other = (Pairing.behind before).scope (globalScope session) := by
    simp [globalScope, Pairing.scope, Pairing.behind, frames, usedFrames]
  unfold firstState
  rw [scope]
  exact .active program .done (Scratch.follows_begun single new used) trivial .halt

section

variable {machine second : Machine} {before session other : Session}
  (config : second.config = machine.config)
include config

/-- What was done before makes no difference for a step. -/
theorem coincides_step {state again : State} (vetted : state.Vetted Node.hasRange)
    (abreast : (Correspondence.sequel before).Abreast () session other state again) :
    (Correspondence.sequel before).Coincides () (machine.step state session)
      (second.step again other) := by
  have truth : second.invertedTruth = machine.invertedTruth := by
    unfold Machine.invertedTruth
    rw [config]
  have shownAgain : ∀ source, again.excerpt source = state.excerpt source := by
    intro source
    cases abreast <;> rfl
  have announces : ∀ store copy, Scratch.Follows before ⟨session, store⟩ ⟨other, copy⟩ →
      (Correspondence.sequel before).Makes () (machine.announce state) (second.announce again) session
        other fun _ _ final _ last => Scratch.Follows before ⟨final, store⟩ ⟨last, copy⟩ := by
    intro store copy follows
    have reads : machine.Reads state := fun _ => vetted.shown machine.source
    have readsAgain : second.Reads again := fun _ => by
      rw [shownAgain]
      exact vetted.shown second.source
    refine (ends_announce reads session).weaken ?_ fun _ _ never => never.elim
    intro _ final kept _
    refine (ends_announce readsAgain other).weaken ?_ fun _ _ never => never
    intro _ last keptAgain
    refine ⟨(), trivial, follows.change ?_⟩
    rw [keptAgain, follows.session]
    exact congrArg (fun held => before.behind held) kept.symm
  exact (Correspondence.sequel before).coincides_of_leads trivial (fun _ => trivial)
    ((Correspondence.sequel before).leads_step truth abreast
      (fun _ _ _ _ _ _ => ⟨trivial, Correspondence.sequel_grants _ _⟩) (fun _ => .inl rfl) announces)

/-- What was done before makes no difference for the steps of a run. -/
theorem follows_advance {steps : Nat} {progress again : Progress}
    (vetted : progress.state.Vetted Node.hasRange) (count : again.count = progress.count)
    (abreast : (Correspondence.sequel before).Abreast () session other progress.state again.state) :
    Continues before (machine.advance steps progress session) (second.advance steps again other) := by
  have together := @Correspondence.accompanies_advance (.sequel before) machine second
    (fun _ state _ => state.Vetted Node.hasRange)
    (fun vetted _ stepped => vetted_step Node.hasRange_of_isExit vetted stepped)
    (fun vetted _ abreast => coincides_step config vetted abreast) steps () progress again session other
    vetted count abreast
  revert together
  cases machine.advance steps progress session with
  | ok last after =>
      cases second.advance steps again other with
      | ok copy final => exact fun ⟨counts, _, _, onward⟩ => ⟨counts, onward⟩
      | error fault final => exact id
  | error fault after =>
      cases second.advance steps again other with
      | ok copy final => exact id
      | error repeated final =>
          exact fun ⟨same, _, _, _, follows⟩ => ⟨same, congrArg Session.output follows.session⟩

/-- What was done before makes no difference for a run. -/
theorem follows_run {tree : Tree} {verbose : Bool}
    (readable : ∀ program counted, tree.read 0 = .ok program counted → program.IsReadable)
    (single : before.allocators.size = 1) (begins : session = Session.start verbose) (steps : Nat) :
    Continues before (machine.run steps tree session) (second.run steps tree before) := by
  subst begins
  have loading := @loads_alike machine second tree (Session.start verbose) before readable
  rcases loading with ⟨program, loaded, last, loads, loadsAgain, kept, keptAgain⟩ |
    ⟨fault, loaded, last, fails, failsAgain, kept, keptAgain⟩
  · have allocators : ∀ {first second : Session}, second.bare = first.bare →
        first.allocators.size = 1 → Session.machineAllocator < second.allocators.size := by
      intro first second same size
      have sizes : second.bare.allocators.size = first.bare.allocators.size := by rw [same]
      exact Nat.lt_of_lt_of_eq Nat.zero_lt_one (sizes.trans size).symm
    obtain ⟨counted, reads⟩ := exists_read_of_load loads
    have vetted : (firstState program loaded).Vetted Node.hasRange :=
      vetted_initialState (readable program counted reads)
        (initialState_of_allocates (allocators kept rfl))
    rw [run_of_load loads (allocators kept rfl), run_of_load loadsAgain (allocators keptAgain single)]
    exact follows_advance config vetted rfl (abreast_firstState program single kept keptAgain)
  · rw [run_of_load_error fails, run_of_load_error failsAgain]
    have printed : loaded.output = "" := congrArg Session.output kept
    have printedBefore : last.output = before.output := by
      have outputs : last.bare.output = before.bare.output := by rw [keptAgain]
      exact outputs
    refine ⟨rfl, ?_⟩
    rw [printed, printedBefore, String.append_empty]

end

/-- A program is given as a tree, or as a text that is parsed. -/
inductive Input where
  | tree (tree : Tree)
  | text (text : String)

def Input.tree? (parse : String → Except Fault Tree) : Input → Except Fault Tree
  | .tree given => .ok given
  | .text given => parse given

/-- Ranges point into the text that a machine was given last. -/
def take (machine : Machine) : Input → Machine
  | .tree _ => machine
  | .text text => { machine with source := some text }

def loadInput (parse : String → Except Fault Tree) (machine : Machine) (input : Input) : Action Node := do
  (machine.take input).load (← Action.fromExcept (input.tree? parse))

def runInput (parse : String → Except Fault Tree) (machine : Machine) (steps : Nat) (input : Input) :
    Action Progress := do
  (machine.take input).run steps (← Action.fromExcept (input.tree? parse))

end Machine

/-- The session that an action leaves behind, whether it fails or not. -/
def Action.leaves {A : Type} (action : Action A) (session : Session) : Session :=
  match action session with
  | .ok _ after | .error _ after => after

theorem Ends.leaves {A : Type} {action : Action A} {session : Session} {good : Session → Prop}
    (ends : Ends action session (fun _ after => good after) fun _ after => good after) :
    good (action.leaves session) := by
  unfold Ends at ends
  unfold Action.leaves
  split at ends
  · rename_i ended
    rw [ended]
    exact ends
  · rename_i ended
    rw [ended]
    exact ends

namespace Machine

/-- What a machine has become, and the session it has left behind, after some uses: programs were
loaded, initial states made, and states stepped, in any order and whether or not they failed. -/
inductive Used (parse : String → Except Fault Tree) (config : Config) : Machine → Session → Prop where
  | new (verbose : Bool) : Used parse config ⟨config, none⟩ (Session.start verbose)
  | load {machine : Machine} {session : Session} (input : Input)
      (used : Used parse config machine session) :
      Used parse config (machine.take input) ((machine.loadInput parse input).leaves session)
  | initialState {machine : Machine} {session : Session} (program : Node)
      (used : Used parse config machine session) :
      Used parse config machine ((initialState program).leaves session)
  | step {machine : Machine} {session : Session} (state : State)
      (used : Used parse config machine session) :
      Used parse config machine ((machine.step state).leaves session)

section

variable {parse : String → Except Fault Tree} {config : Config} {machine : Machine} {session : Session}

/-- Advancing is a use of the machine. -/
theorem Used.advance (used : Used parse config machine session) (steps : Nat) (progress : Progress) :
    Used parse config machine ((machine.advance steps progress).leaves session) := by
  induction steps generalizing progress session with
  | zero => exact used
  | succ steps ih =>
      have next := used.step progress.state
      unfold Action.leaves at next ⊢
      cases done : progress.state.isDone with
      | true =>
          rw [advance_of_isDone machine _ done]
          exact used
      | false =>
          rw [advance_succ done]
          cases stepped : machine.step progress.state session with
          | error fault after =>
              rw [stepped] at next
              exact next
          | ok state after =>
              rw [stepped] at next
              exact ih next ⟨progress.count + 1, state⟩

/-- Uses in sequence are a use. -/
theorem Used.bind {A B : Type} {first : Action B} {second : B → Action A}
    (begins : Used parse config machine (first.leaves session))
    (goesOn : ∀ value after, Used parse config machine after →
      Used parse config machine ((second value).leaves after)) :
    Used parse config machine ((first >>= second).leaves session) := by
  unfold Action.leaves at begins ⊢
  cases ended : first session with
  | ok value after =>
      rw [ended] at begins
      rw [bind_of_ok ended]
      exact goesOn value after begins
  | error fault after =>
      rw [ended] at begins
      rw [bind_of_error ended]
      exact begins

/-- Whole runs are among the uses of a machine. -/
theorem Used.run (used : Used parse config machine session) (steps : Nat) (input : Input) :
    Used parse config (machine.take input) ((machine.runInput parse steps input).leaves session) := by
  have whole : machine.runInput parse steps input = machine.loadInput parse input >>= fun program =>
      Machine.initialState program >>= fun state => (machine.take input).advance steps ⟨1, state⟩ := by
    simp [runInput, loadInput, Machine.run, begin]
  rw [whole]
  refine (used.load input).bind fun program after used => ?_
  exact (used.initialState program).bind fun state last used => used.advance steps ⟨1, state⟩

/-- No use changes the configuration. -/
theorem Used.config_eq (used : Used parse config machine session) : machine.config = config := by
  induction used with
  | new verbose => rfl
  | load input used ih => cases input <;> exact ih
  | initialState program used ih => exact ih
  | step state used ih => exact ih

instance (outline : Outline) : Expands id (noteOutline outline) := by
  induction outline <;> unfold noteOutline <;> infer_instance

instance (machine : Machine) (tree : Tree) : Expands id (machine.load tree) := by
  have outlined : ∀ source node links, Expands id (outline source 0 node links) := by
    intro source node links
    refine ⟨fun session => ?_⟩
    unfold outline
    rw [ends_bind, ends_get]
    split
    · exact Expands.ends session
    · exact .refl session
  have reads : Expands id (readTree tree) := by
    unfold readTree
    split <;> infer_instance
  unfold load
  infer_instance

/-- A machine never gets a second allocator. -/
theorem Used.single (used : Used parse config machine session) : session.allocators.size = 1 := by
  induction used with
  | new verbose => rfl
  | @load machine session input used ih =>
      have grows : Expands id (machine.loadInput parse input) := expands_bind fun _ => inferInstance
      exact (grows.ends session).leaves.allocators.trans ih
  | @initialState machine session program used ih =>
      have allocates : Session.machineAllocator < session.allocators.size := by
        rw [ih]
        exact Nat.zero_lt_one
      unfold Action.leaves
      rw [initialState_of_allocates allocates]
      simp [begun, Globals.underway, ih]
  | @step machine session state used ih =>
      exact (machine.grows_step state session).leaves.allocators.trans ih

/-- Two runs have come equally far. Frames, identities and printed text of the second one come behind
those of a session, and apart from that they are the same. -/
structure Resembles (before : Session) (progress : Progress) (after : Session) (again : Progress)
    (last : Session) : Prop where
  count : again.count = progress.count
  label : again.state.label = progress.state.label
  done : again.state.isDone = progress.state.isDone
  store : progress.state.store.Alike (.behind before) again.state.store
  uncaught : Option.Rel (Value.Like (.behind before)) progress.state.uncaught? again.state.uncaught?
  globals : last.globals = after.globals.map (Pairing.behind before).scope
  slots : ∀ frame, last.slots ((Pairing.behind before).frame frame) = after.slots frame
  allocated : last.allocated Session.machineAllocator = after.allocated Session.machineAllocator
  printed : last.output = before.output ++ after.output

/-- Two runs come to the same result, or fail in the same way after printing the same text. -/
inductive Likewise (before : Session) :
    EStateM.Result Fault Session Progress → EStateM.Result Fault Session Progress → Prop where
  | ok {progress again : Progress} {after last : Session}
      (resembles : Resembles before progress after again last) :
      Likewise before (.ok progress after) (.ok again last)
  | error (fault : Fault) {after last : Session}
      (printed : last.output = before.output ++ after.output) :
      Likewise before (.error fault after) (.error fault last)

/-- A run that goes on reports likewise. -/
theorem Continues.likewise {before : Session} {result again : EStateM.Result Fault Session Progress}
    (continues : Continues before result again) : Likewise before result again := by
  cases result with
  | error fault after =>
      cases again with
      | error repeated last =>
          obtain ⟨rfl, printed⟩ := continues
          exact .error repeated printed
      | ok later last => exact absurd continues id
  | ok progress after =>
      cases again with
      | error repeated last => exact absurd continues id
      | ok later last =>
          obtain ⟨count, abreast⟩ := continues
          obtain ⟨first, state⟩ := progress
          obtain ⟨second, copy⟩ := later
          have follows : Scratch.Follows before ⟨after, state.store⟩ ⟨last, copy.store⟩ := by
            cases abreast <;> assumption
          exact .ok {
            count
            label := by cases abreast <;> rfl
            done := abreast.isDone
            store := follows.store
            uncaught := by
              cases abreast with
              | active | halted => exact .none
              | uncaught agrees same => exact .some same
            globals := congrArg Session.globals follows.session
            slots := fun frame => by
              rw [← before.slots_behind after]
              unfold Session.slots
              rw [follows.frames]
              rfl
            allocated := congrArg (fun held => held.allocated Session.machineAllocator) follows.session
            printed := congrArg Session.output follows.session }

/-- A run on a machine that was used before comes to the same result as on a new machine with the same
configuration, whether its program is given as a tree or as a text. -/
theorem Used.run_likewise (used : Used parse config machine session) (input : Input)
    (readable : ∀ tree program counted, input.tree? parse = .ok tree →
      tree.read 0 = .ok program counted → program.IsReadable) (steps : Nat) :
    Likewise session (runInput parse ⟨config, none⟩ steps input (Session.start session.verbose))
      (machine.runInput parse steps input session) := by
  have same : (machine.take input).config = (Machine.take ⟨config, none⟩ input).config := by
    cases input <;> exact used.config_eq
  unfold runInput
  cases parsed : input.tree? parse with
  | error fault => exact .error fault String.append_empty.symm
  | ok tree =>
      exact (follows_run same (fun program counted => readable tree program counted parsed) used.single
        rfl steps).likewise

/-- A run is left inside a function, and the machine is used for the program once more. -/
theorem Used.run_likewise_after_run :
    ∃ (parse : String → Except Fault Tree) (config : Config) (machine : Machine) (session : Session),
      Used parse config machine session ∧ machine.source = some "source" ∧ session.frames.size = 3 ∧
      Likewise session
        (runInput parse ⟨config, none⟩ 20 (.tree Sample.activations) (Session.start session.verbose))
        (machine.runInput parse 20 (.tree Sample.activations) session) := by
  obtain ⟨program, counted, reads, ranged⟩ : ∃ program counted,
      Sample.activations.read 0 = .ok program counted ∧ program.all Node.hasRange = true :=
    Ends.exists_ok (by decide +kernel)
  obtain ⟨progress, after, ran, size⟩ : ∃ progress after,
      runInput (fun _ => .ok Sample.activations) ⟨⟨false, false, false⟩, none⟩ 3 (.text "source")
        (Session.start false) = .ok progress after ∧ after.frames.size = 3 :=
    Ends.exists_ok (by decide +kernel)
  have used := @Used.run (fun _ => .ok Sample.activations) ⟨false, false, false⟩ _ _ (.new false) 3
    (.text "source")
  unfold Action.leaves at used
  rw [ran] at used
  dsimp only at used
  refine ⟨_, _, _, _, used, rfl, size, used.run_likewise (.tree Sample.activations) ?_ 20⟩
  intro tree found again given readsAgain
  cases given
  rw [reads] at readsAgain
  cases readsAgain
  exact Node.every_of_all ranged

end

end Machine

end ScriptMachine
