/-
This file runs a program beside the same program with other names for its variables. Main statement: the
runs stand at the same statements, hand out the same addresses and end in the same way, and they print the
same as long as no function is handed to print.
-/

import ScriptMachine.Proofs.Exploration
import ScriptMachine.Proofs.Renamed
import ScriptMachine.Proofs.Respelling

namespace ScriptMachine

namespace Renaming

variable (names : Renaming)

def target : Target → Target
  | .slot name => .slot (names.name name)
  | target => target

def pending : Pending → Pending
  | .call target resume scope => .call (names.target target) (names.control resume) scope
  | .scope resume outer => .scope (names.control resume) outer
  | .handler clause scope resume => .handler (names.node clause) scope (names.control resume)

/-- A state whose variables are renamed, with the store that belongs to it. -/
def state (copy : Store) : State → State
  | .active node next scope _ continuation =>
      .active (names.node node) (names.control next) scope copy (continuation.map names.pending)
  | .halted scope _ continuation => .halted scope copy (continuation.map names.pending)
  | .uncaught value _ => .uncaught (names.value value) copy

variable (copy : Store) (state : State)

theorem label_state : (names.state copy state).label = state.label := by
  cases state with
  | active node next scope store continuation => exact names.label_node node
  | _ => rfl

theorem isDone_state : (names.state copy state).isDone = state.isDone := by
  cases state <;> rfl

theorem uncaught?_state : (names.state copy state).uncaught? = state.uncaught?.map names.value := by
  cases state <;> rfl

theorem pendingLabels_state : (names.state copy state).pendingLabels = state.pendingLabels := by
  have labels : ∀ continuation : Continuation,
      Continuation.labels (continuation.map names.pending) = continuation.labels := by
    intro continuation
    have label : Pending.label ∘ names.pending = Pending.label := by
      funext pending
      cases pending <;> rfl
    rw [Continuation.labels, List.map_map, label]
    rfl
  cases state with
  | active node next scope store continuation => exact labels continuation
  | halted scope store continuation => exact labels continuation
  | uncaught value store => rfl

end Renaming

/-- The scope in which pending work goes on. -/
def Pending.home : Pending → Scope
  | .call _ _ home | .scope _ home | .handler _ home _ => home

/-- The scopes that a state goes on in, now or later. -/
def State.scopes (state : State) : List Scope :=
  state.scope?.toList ++ state.continuation.map Pending.home

theorem Fault.Renames.code {names : Renaming} {fault again : Fault} (renames : fault.Renames names again) :
    again.report.map Prod.fst = fault.report.map Prod.fst := by
  rcases renames with rfl | ⟨name, rfl, rfl⟩ <;> rfl

/-- States that differ in the names of variables. The scopes that a state goes on in are made of frames
that bind names. -/
structure State.Renames (names : Renaming) (shows : Prop) (uses : List Bool) (session other : Session)
    (state again : State) : Prop where
  same : again = names.state again.store state
  scratch : Scratch.Renames names shows uses ⟨session, state.store⟩ ⟨other, again.store⟩
  scopes : ∀ scope ∈ state.scopes, ∀ frame ∈ scope.chain, uses[frame]? = some true
  uncaught : ∀ value, state.uncaught? = some value → value.Fits uses

namespace Correspondence

variable {names : Renaming} {shows : Prop} {uses : List Bool} {session other : Session}

theorem renamed_scope (scope : Scope) : (Correspondence.renamed names shows).toPairing.scope scope = scope :=
  Pairing.scope_same scope

theorem renamed_grants (scope : Scope) (needs : List Need) :
    (Correspondence.renamed names shows).Grants uses scope needs := by
  intro need _
  cases need with
  | name name => exact fun _ _ => trivial
  | create => trivial
  | select => trivial

theorem renamed_of_aims {target again : Target}
    (aims : (Correspondence.renamed names shows).Aims uses target again) : again = names.target target := by
  cases aims with
  | slot | discard => rfl
  | location located => exact congrArg Target.location located

/-- A renamed continuation is the other run's. -/
theorem renamed_of_awaits {continuation others : Continuation}
    (awaits : (Correspondence.renamed names shows).Awaits uses continuation others) :
    others = continuation.map names.pending ∧
      ∀ scope ∈ continuation.map Pending.home, ∀ frame ∈ scope.chain, uses[frame]? = some true := by
  induction awaits with
  | halt => exact ⟨rfl, fun scope member => absurd member List.not_mem_nil⟩
  | call resume aims seen awaits ih =>
      rw [ih.1, renamed_of_aims aims, renamed_scope]
      exact ⟨rfl, List.forall_mem_cons.mpr ⟨seen, ih.2⟩⟩
  | scope resume seen awaits ih =>
      rw [ih.1, renamed_scope]
      exact ⟨rfl, List.forall_mem_cons.mpr ⟨seen, ih.2⟩⟩
  | handler clause resume seen awaits ih =>
      rw [ih.1, renamed_scope]
      exact ⟨rfl, List.forall_mem_cons.mpr ⟨seen, ih.2⟩⟩

/-- Runs abreast under a renaming rename each other. -/
theorem renames_of_abreast {state again : State}
    (abreast : (Correspondence.renamed names shows).Abreast uses session other state again) :
    state.Renames names shows uses session other again := by
  cases abreast with
  | active node next agrees seen awaits =>
      obtain ⟨rfl, homes⟩ := renamed_of_awaits awaits
      rw [renamed_scope]
      exact ⟨rfl, agrees, List.forall_mem_cons.mpr ⟨seen, homes⟩, fun value thrown => nomatch thrown⟩
  | halted agrees seen awaits =>
      obtain ⟨rfl, homes⟩ := renamed_of_awaits awaits
      rw [renamed_scope]
      exact ⟨rfl, agrees, List.forall_mem_cons.mpr ⟨seen, homes⟩, fun value thrown => nomatch thrown⟩
  | uncaught agrees same =>
      obtain ⟨rfl, fits⟩ := same
      refine ⟨rfl, agrees, fun scope member => absurd member List.not_mem_nil, ?_⟩
      intro value thrown
      cases thrown
      exact fits

end Correspondence

/-- The frames that a run begins with: the ones that were there, the one of the globals, and the one of
the prototype of objects. -/
def Machine.usesBegun (base : Session) : List Bool := List.replicate base.frames.size false ++ [true, false]

/-- The only frame in use at first is the global one. -/
theorem Machine.eq_of_usesBegun {base : Session} {frame : Nat}
    (binds : (Machine.usesBegun base)[frame]? = some true) : frame = base.frames.size := by
  rcases Machine.noted_begun binds with impossible | ⟨same, -⟩ | ⟨-, impossible⟩
  · cases impossible
  · exact same
  · cases impossible

theorem Globals.map_slot_ownSlots (names : Renaming) : ownSlots.map names.slot = ownSlots := by
  have kept : ∀ {name : String}, name ∈ ["print", "undefined", "%ObjectPrototype%"] → ∀ address,
      names.slot ⟨.text name, .text name, address⟩ = ⟨.text name, .text name, address⟩ := by
    intro name member address
    simp only [Renaming.slot, Renaming.key, Renaming.written, names.spelled_fixed member]
  simp only [ownSlots, List.map_cons, List.map_nil]
  rw [kept (by simp), kept (by simp), kept (by simp)]

/-- The first session is its own renaming. -/
theorem Session.renames_begun (names : Renaming) (base : Session) :
    (Machine.begun base).Renames names (Machine.usesBegun base) (Machine.begun base) where
  size := by simp [Machine.usesBegun, Machine.begun, Globals.underway]
  frames := rfl
  allocatorOf _ := rfl
  slots frame binds found := by
    cases binds with
    | false =>
        have kept : (names.within false).slot = id := rfl
        rw [kept, List.map_id]
    | true =>
        obtain rfl := Machine.eq_of_usesBegun found
        have own : (Machine.begun base).slots base.frames.size = Globals.ownSlots :=
          @Globals.slots_underway base Globals.ownSlots (some Globals.methodSlots) 5 3
        rw [own]
        exact (Globals.map_slot_ownSlots names).symm
  allocators := rfl
  identities := rfl

theorem Scratch.renames_begun (names : Renaming) (shows : Prop) (base : Session) :
    Scratch.Renames names shows (Machine.usesBegun base) ⟨Machine.begun base, Globals.store base⟩
      ⟨Machine.begun base, Globals.store base⟩ := by
  -- no function is among the globals yet, so that renaming leaves the first store as it is
  have stored := @Globals.forall_get_store
    (fun value => names.value value = value ∧ value.Fits (Machine.usesBegun base)) base
    (fun isPlain => ⟨names.value_of_isPlain isPlain, Value.fits_of_isPlain isPlain⟩) ⟨rfl, ?_⟩
    fun _ own => ⟨rfl, own⟩
  · exact ⟨Session.renames_begun names base, fun _ => rfl, fun _ => rfl,
      fun address => (stored address).1.symm, fun address => (stored address).2⟩
  · intro frame member
    obtain rfl : frame = base.frames.size + 1 := by
      simpa [Globals.prototype, Scope.chain] using member
    simp [Machine.usesBegun]

namespace Machine

variable {machine : Machine} {names : Renaming} {shows : Prop} {uses : List Bool} {session other : Session}

/-- States that differ in the names of variables step to such states, or fail together. -/
theorem coincides_step_renamed {state again : State} (withheld : shows → machine.Withholds state session)
    (abreast : (Correspondence.renamed names shows).Abreast uses session other state again) :
    (Correspondence.renamed names shows).Coincides uses (machine.step state session)
      (machine.step again other) := by
  refine (Correspondence.renamed names shows).coincides_of_leads trivial (fun _ => trivial) ?_
  refine (Correspondence.renamed names shows).leads_step rfl abreast ?_
    (fun shown => .inr (withheld shown)) fun store copy agrees =>
      (Correspondence.renamed names shows).makes_announce machine abreast agrees
  rintro node next scope store continuation rfl
  cases abreast with
  | active _ _ agrees seen awaits => exact ⟨seen, Correspondence.renamed_grants _ _⟩

/-- No function is handed to print in the given number of steps. -/
def WithholdsFor (machine : Machine) (steps : Nat) (progress : Progress) (session : Session) : Prop :=
  ∀ taken < steps, ∀ last after, machine.advance taken progress session = .ok last after →
    machine.Withholds last.state after

variable {steps : Nat} {progress : Progress}

theorem WithholdsFor.now (withheld : machine.WithholdsFor (steps + 1) progress session) :
    machine.Withholds progress.state session :=
  withheld 0 steps.succ_pos progress session rfl

/-- Withholding goes on past a step. -/
theorem WithholdsFor.goesOn {next : State} {after : Session}
    (withheld : machine.WithholdsFor (steps + 1) progress session) (active : progress.state.isDone = false)
    (stepped : machine.step progress.state session = .ok next after) :
    machine.WithholdsFor steps ⟨progress.count + 1, next⟩ after := by
  intro taken within last final advanced
  refine withheld (taken + 1) (Nat.succ_lt_succ within) last final ?_
  rw [advance_succ active, stepped]
  exact advanced

/-- Runs that differ in the names of variables go on side by side. -/
theorem accompanies_renamed {again : Progress}
    (withheld : shows → machine.WithholdsFor steps progress session) (count : again.count = progress.count)
    (abreast : (Correspondence.renamed names shows).Abreast uses session other progress.state again.state) :
    (Correspondence.renamed names shows).Accompanies uses (machine.advance steps progress session)
      (machine.advance steps again other) := by
  -- a state does not know how many states came before it, so that some number stands for them
  refine @Correspondence.accompanies_advance (.renamed names shows) machine machine
    (fun left state session => shows → ∃ seen, machine.WithholdsFor left ⟨seen, state⟩ session)
    ?_ ?_ steps uses progress again session other (fun shown => ⟨progress.count, withheld shown⟩) count
    abreast
  · intro left state session next after known active stepped shown
    obtain ⟨seen, withheld⟩ := known shown
    exact ⟨seen + 1, withheld.goesOn active stepped⟩
  · intro left world state again session other known _ abreast
    refine coincides_step_renamed (fun shown => ?_) abreast
    obtain ⟨seen, withheld⟩ := known shown
    exact withheld.now

/-- A program and its renaming start abreast. -/
theorem abreast_firstState_renamed (program : Node) (base : Session) :
    (Correspondence.renamed names shows).Abreast (usesBegun base) (begun base) (begun base)
      (firstState program base) (firstState (names.node program) base) := by
  have abreast := @Ties.Abreast.active (.renamed names shows) (usesBegun base) (begun base) (begun base)
    program .done (globalScope base) (Globals.store base) (Globals.store base) [] []
    (Scratch.renames_begun names shows base) ?_ .halt
  · rw [Ties.scope_renamed] at abreast
    exact abreast
  · intro frame member
    obtain rfl : frame = base.frames.size := by
      simpa [globalScope, Scope.chain] using member
    simp [usesBegun]

/-- Two runs that differ in the names of variables: what they have come to, or how they failed. -/
inductive Echoes (names : Renaming) (shows : Prop) :
    EStateM.Result Fault Session Progress → EStateM.Result Fault Session Progress → Prop where
  | ok {progress again : Progress} {session other : Session} {uses : List Bool}
      (count : again.count = progress.count) (label : again.state.label = progress.state.label)
      (pendingLabels : again.state.pendingLabels = progress.state.pendingLabels)
      (isDone : again.state.isDone = progress.state.isDone)
      (uncaught? : again.state.uncaught? = progress.state.uncaught?.map names.value)
      (allocators : other.allocators = session.allocators)
      (state : progress.state.Renames names shows uses session other again.state) :
      Echoes names shows (.ok progress session) (.ok again other)
  | error {fault again : Fault} {session other : Session} (renames : fault.Renames names again)
      (code : again.report.map Prod.fst = fault.report.map Prod.fst)
      (output : shows → other.output = session.output) :
      Echoes names shows (.error fault session) (.error again other)

/-- Runs that keep company echo each other. -/
theorem echoes_of_accompanies {result again : EStateM.Result Fault Session Progress}
    (together : (Correspondence.renamed names shows).Accompanies uses result again) :
    Echoes names shows result again := by
  cases result with
  | ok progress session =>
      cases again with
      | error fault other => exact absurd together id
      | ok repeated other =>
          obtain ⟨count, later, -, abreast⟩ := together
          have state := Correspondence.renames_of_abreast abreast
          have same := state.same
          exact .ok count ((congrArg State.label same).trans (names.label_state _ _))
            ((congrArg State.pendingLabels same).trans (names.pendingLabels_state _ _))
            ((congrArg State.isDone same).trans (names.isDone_state _ _))
            ((congrArg State.uncaught? same).trans (names.uncaught?_state _ _))
            state.scratch.session.allocators state
  | error fault session =>
      cases again with
      | ok repeated other => exact absurd together id
      | error repeated other =>
          obtain ⟨renames, _, _, _, agrees⟩ := together
          exact .error renames renames.code agrees.output

/-- No function is handed to print in the given number of steps of a run. -/
def RunWithholds (machine : Machine) (steps : Nat) (tree : Tree) (session : Session) : Prop :=
  ∀ taken < steps, ∀ last after, machine.run taken tree session = .ok last after →
    machine.Withholds last.state after

/-- What the variables of a program are called makes no difference for its run. -/
theorem run_renamed (machine : Machine) (names : Renaming) (tree : Tree) (steps : Nat) (session : Session) :
    Echoes names (machine.RunWithholds steps tree session) (machine.run steps tree session)
      (machine.run steps (names.tree tree) session) := by
  have load := machine.load_tree names tree
  rw [map_eq_pure_bind] at load
  cases loads : machine.load tree session with
  | error fault loaded =>
      have fails : machine.load (names.tree tree) session = .error fault loaded := by
        rw [load]
        exact bind_of_error loads
      rw [run_of_load_error loads, run_of_load_error fails]
      exact .error (.inl rfl) rfl fun _ => rfl
  | ok program loaded =>
      have loadsAgain : machine.load (names.tree tree) session = .ok (names.node program) loaded := by
        rw [load]
        exact bind_of_ok loads
      cases starts : initialState program loaded with
      | error fault after =>
          have fails := initialState_of_error starts (names.node program)
          rw [run_of_initialState_error loads starts, run_of_initialState_error loadsAgain fails]
          exact .error (.inl rfl) rfl fun _ => rfl
      | ok state after =>
          have allocates := (initialState_eq starts).1
          have runs := run_of_load loads allocates
          have withheld : machine.RunWithholds steps tree session →
              machine.WithholdsFor steps ⟨1, firstState program loaded⟩ (begun loaded) :=
            fun withheld taken within last final advanced =>
              withheld taken within last final ((runs taken).trans advanced)
          rw [runs, run_of_load loadsAgain allocates]
          exact echoes_of_accompanies
            (accompanies_renamed withheld rfl (abreast_firstState_renamed program loaded))

end Machine

/-- Two names that change places. -/
def Renaming.swap (first second : String)
    (plain : ∀ name ∈ ["", "print", "undefined", "%ObjectPrototype%"], name ≠ first ∧ name ≠ second) :
    Renaming where
  text name := if name = first then second else if name = second then first else name
  injective := by
    intro name other same
    grind
  nonempty := by
    intro name present
    grind
  fixed := by
    intro name member
    grind

/-- A variable and a property of the same name, and a function whose parameter has it too. -/
def Sample.namesakes : Tree := program
  [declare "k" (object [("k", literal "one")]),
    function "f" ["k"] [node "ReturnStatement" [("argument",
      node "MemberExpression" [("object", name "k"), ("property", name "k")])]],
    declare "x" (call "f" [name "k"]),
    node "ExpressionStatement" [("expression", call "print" [name "x"])]]

/-- A variable changes its name, and the property of that name keeps it. -/
theorem Machine.run_renamed_of_namesakes :
    ∃ (names : Renaming) (progress again : Progress) (after last : Session),
      names.text "k" = "x" ∧
      Machine.run ⟨⟨false, false, false⟩, none⟩ 9 Sample.namesakes (Session.start false) =
        .ok progress after ∧
      Machine.run ⟨⟨false, false, false⟩, none⟩ 9 (names.tree Sample.namesakes) (Session.start false) =
        .ok again last ∧
      progress.state.isDone = true ∧ again.state.isDone = true ∧ after.output = "one\n" ∧
      last.output = "one\n" := by
  let names := Renaming.swap "k" "x" (by decide)
  have echoes := Machine.run_renamed ⟨⟨false, false, false⟩, none⟩ names Sample.namesakes 9
    (Session.start false)
  obtain ⟨progress, after, ran, done, printed⟩ : ∃ progress after,
      Machine.run ⟨⟨false, false, false⟩, none⟩ 9 Sample.namesakes (Session.start false) =
        .ok progress after ∧ progress.state.isDone = true ∧ after.output = "one\n" :=
    Ends.exists_ok (by decide +kernel)
  have withheld : Machine.RunWithholds ⟨⟨false, false, false⟩, none⟩ 9 Sample.namesakes
      (Session.start false) := by
    have handed : ∀ taken < 9, Ends (Machine.run ⟨⟨false, false, false⟩, none⟩ taken Sample.namesakes)
        (Session.start false)
        (fun last after => Ends (Machine.handed ⟨⟨false, false, false⟩, none⟩ last.state) after
          (fun values _ => ∀ value ∈ values, value.isFunction = false) fun _ _ => True)
        fun _ _ => True := by
      decide +kernel
    exact fun taken within last after reached => (handed taken within).of_ok reached
  rw [ran] at echoes
  cases ranAgain : Machine.run ⟨⟨false, false, false⟩, none⟩ 9 (names.tree Sample.namesakes)
      (Session.start false) with
  | error fault last =>
      rw [ranAgain] at echoes
      cases echoes
  | ok again last =>
      rw [ranAgain] at echoes
      cases echoes with
      | ok count label pendingLabels isDone uncaught? allocators state =>
          exact ⟨names, progress, again, after, last, rfl, ran, ranAgain, done, isDone.trans done, printed,
            (state.scratch.output withheld).trans printed⟩

end ScriptMachine
