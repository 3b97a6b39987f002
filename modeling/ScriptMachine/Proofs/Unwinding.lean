/-
This file follows pending work through the runs of a program. Main statements: work that is pending stays
so until one step takes it away, what is pending was put there by one step and has stayed since, and a
clause is entered with a fresh slot for the value that was thrown.
-/

import ScriptMachine.Proofs.Address
import ScriptMachine.Proofs.Move

namespace ScriptMachine

namespace Outcome

/-- What lies at the bottom of the pending work. Nothing is asked of a run that has failed. -/
def Holds (bottom : Continuation) : Outcome → Prop
  | .ok state _ => bottom <:+ state.continuation
  | .error .. => True

end Outcome

namespace Machine

variable {machine : Machine} {program : Node} {base session : Session} {state : State}
  {first later : Outcome}

/-- Where the run of a program stands that began with a given session. -/
def Runs (machine : Machine) (program : Node) (base : Session) (outcome : Outcome) : Prop :=
  ∃ state after, initialState program base = .ok state after ∧ machine.Onward (.ok state after) outcome

/-- What follows a run is a run. -/
theorem Runs.onward (runs : machine.Runs program base first) (onward : machine.Onward first later) :
    machine.Runs program base later := by
  obtain ⟨state, after, started, reached⟩ := runs
  exact ⟨state, after, started, reached.trans onward⟩

variable {tree : Tree} {counted : Nat} {after announced middle : Session} {node : Node} {scope : Scope}
  {store arrived : Store} {value : Value}

/-- A run that took a number of steps stands where it was left. -/
theorem runs_of_run (quiet : machine.config.outline = false) {steps : Nat} {last : Progress}
    (reads : tree.read 0 = .ok program counted) (ran : machine.run steps tree session = .ok last after) :
    machine.Runs program session (.ok last.state after) := by
  obtain ⟨progress, begun, starts, advanced⟩ := exists_of_bind ran
  obtain ⟨loaded, prepared, loads, begins⟩ := exists_of_bind starts
  obtain ⟨rfl, rfl⟩ := (ends_load_quiet quiet reads session).of_ok loads
  obtain ⟨state, fresh, started, counts⟩ := exists_of_bind begins
  cases counts
  have onward := machine.onward_advance steps ⟨1, state⟩ begun
  rw [advanced] at onward
  exact ⟨state, begun, started, onward⟩

/-- What a run comes to has been explored. -/
theorem Onward.explored (onward : machine.Onward first later) {states : List State}
    (starts : first = .ok state session) (member : state ∈ states)
    (explored : machine.Explored program base ⟨states, session⟩) {last : State}
    (ends : later = .ok last after) :
    ∃ states, last ∈ states ∧ machine.Explored program base ⟨states, after⟩ := by
  induction onward generalizing state session states with
  | refl =>
      cases starts.symm.trans ends
      exact ⟨states, member, explored⟩
  | @step current present outcome active onward ih =>
      cases starts
      obtain ⟨initial, begun, started, explores⟩ := explored
      cases stepped : machine.step current present with
      | ok next middle =>
          exact ih stepped List.mem_cons_self
            ⟨initial, begun, started, explores.step member stepped⟩ ends
      | error fault middle =>
          rw [stepped] at onward
          cases onward
          cases ends

/-- Every state of a run is explored. -/
theorem Runs.explored (runs : machine.Runs program base (.ok state session)) :
    ∃ states, state ∈ states ∧ machine.Explored program base ⟨states, session⟩ := by
  obtain ⟨initial, begun, started, onward⟩ := runs
  exact onward.explored rfl List.mem_cons_self ⟨initial, begun, started, .refl⟩ rfl

/-- What has been explored is reachable. -/
theorem Explored.reachable {held : Exploration} (explored : machine.Explored program base held) :
    ∀ state ∈ held.states, machine.Reachable program state := by
  obtain ⟨initial, begun, started, explores⟩ := explored
  induction explores with
  | refl =>
      intro state member
      obtain rfl := List.mem_singleton.mp member
      exact .initial started
  | step _ member stepped ih =>
      exact List.forall_mem_cons.mpr ⟨(ih _ member).step stepped, ih⟩
  | fail _ _ _ ih => exact ih

/-- What is pending in a run fits the statement where control stands. -/
theorem Runs.fits (runs : machine.Runs program base (.ok state session))
    (reads : tree.read 0 = .ok program counted) (formed : program.isWellFormed false = true) :
    state.Fits program := by
  obtain ⟨states, member, explored⟩ := runs.explored
  have owns := Tree.ownsExits_of_read reads
  exact ((explored.reachable state member).sound formed owns (by simp)).fits

/-- A run goes from one outcome to another, and at all of them the same work is pending at the bottom. -/
inductive Keeps (machine : Machine) (bottom : Continuation) : Outcome → Outcome → Prop where
  | refl {outcome : Outcome} (holds : outcome.Holds bottom) : Keeps machine bottom outcome outcome
  | step {state : State} {session : Session} {outcome : Outcome}
      (holds : bottom <:+ state.continuation) (active : state.isDone = false)
      (keeps : Keeps machine bottom (machine.step state session) outcome) :
      Keeps machine bottom (.ok state session) outcome

variable {bottom : Continuation}

theorem Keeps.onward (keeps : machine.Keeps bottom first later) : machine.Onward first later := by
  induction keeps with
  | refl => exact .refl
  | step _ active _ ih => exact .step active ih

/-- The bottom is held at the end. -/
theorem Keeps.holds (keeps : machine.Keeps bottom first later) : later.Holds bottom := by
  induction keeps with
  | refl holds => exact holds
  | step _ _ _ ih => exact ih

/-- The bottom is held at the start. -/
theorem Keeps.begins (keeps : machine.Keeps bottom first later) : first.Holds bottom := by
  cases keeps with
  | refl holds => exact holds
  | step holds _ _ => exact holds

/-- What is pending stays pending, or a step takes it away. -/
theorem Onward.keeps_or_drops (onward : machine.Onward first later) (holds : first.Holds bottom) :
    machine.Keeps bottom first later ∨
      ∃ last before next after, machine.Keeps bottom first (.ok last before) ∧
        machine.step last before = .ok next after ∧ ¬ bottom <:+ next.continuation ∧
        machine.Onward (.ok next after) later := by
  induction onward with
  | refl => exact .inl (.refl holds)
  | @step state session outcome active onward ih =>
      by_cases kept : Outcome.Holds bottom (machine.step state session)
      · rcases ih kept with keeps | ⟨last, before, next, after, keeps, dropped⟩
        · exact .inl (.step holds active keeps)
        · exact .inr ⟨last, before, next, after, .step holds active keeps, dropped⟩
      · cases stepped : machine.step state session with
        | error fault after =>
            rw [stepped] at kept
            exact absurd trivial kept
        | ok next after =>
            rw [stepped] at kept onward
            exact .inr ⟨state, session, next, after, .refl holds, stepped, kept, onward⟩

/-- What is pending has been so from the start, or a step put it there. -/
theorem Onward.keeps_or_gains (onward : machine.Onward first later) (holds : later.Holds bottom) :
    machine.Keeps bottom first later ∨
      ∃ last before, machine.Onward first (.ok last before) ∧ last.isDone = false ∧
        ¬ bottom <:+ last.continuation ∧ machine.Keeps bottom (machine.step last before) later := by
  induction onward with
  | refl => exact .inl (.refl holds)
  | @step state session outcome active onward ih =>
      rcases ih holds with keeps | ⟨last, before, reached, gained⟩
      · by_cases held : bottom <:+ state.continuation
        · exact .inl (.step held active keeps)
        · exact .inr ⟨state, session, .refl, active, held, keeps⟩
      · exact .inr ⟨last, before, .step active reached, gained⟩

/-- While a statement of a run is announced, the layout stays in order. -/
theorem Runs.laid_announced (runs : machine.Runs program base (.ok state session))
    (said : machine.announce state session = .ok () announced) :
    ∃ layout, (Layout.initial base).Later layout ∧ Layout.Frames (begun base) layout announced ∧
      (Account.layout (begun base) .empty).Sound layout state := by
  let regime := Regime.layout (begun base) .empty
  obtain ⟨states, member, explored⟩ := runs.explored
  obtain ⟨layout, passed, laid, sound⟩ := explored.layout
  obtain ⟨later, further, kept, -⟩ := (regime.makes_announce machine state laid).of_ok said
  exact ⟨later, passed.trans further, kept, regime.sound_later further (sound state member)⟩

/-- Evaluating a part of a statement keeps the layout in order. -/
theorem Runs.laid_evaluated {argument : Node} {next : Control} {continuation : Continuation}
    (runs : machine.Runs program base (.ok (.active node next scope store continuation) session))
    (said : machine.announce (.active node next scope store continuation) session = .ok () announced)
    (evaluated : (argument.value machine.invertedTruth scope).run store announced =
      .ok (value, arrived) middle) :
    ∃ layout, (Layout.initial base).Later layout ∧ Layout.Frames (begun base) layout middle ∧
      Layout.Stores .empty layout arrived ∧
      (Account.layout (begun base) .empty).Pends layout continuation := by
  let regime := Regime.layout (begun base) .empty
  obtain ⟨layout, passed, laid, stored, visible, pends⟩ := runs.laid_announced said
  have holds : regime.Holds layout ⟨announced, store⟩ := ⟨laid, stored⟩
  have sees : regime.Sees layout scope argument := visible
  have keeps := regime.keeps_value machine.invertedTruth holds sees
  obtain ⟨later, further, kept, stays, -⟩ := (regime.makes_run keeps).of_ok evaluated
  exact ⟨later, passed.trans further, kept, stays, regime.pends_later further pends⟩

/-- The scope of a caller is there when a value is returned to it. -/
theorem Runs.inside_of_gives {onward resume : Control} {inner : Scope} {above rest : Continuation}
    {target : Target}
    (runs : machine.Runs program base (.ok (.active node onward inner store
      (above ++ .call target resume scope :: rest)) session))
    (said : machine.announce (.active node onward inner store
      (above ++ .call target resume scope :: rest)) session = .ok () announced)
    (gives : machine.Gives inner store announced node (above ++ .call target resume scope :: rest) value
      arrived middle) : scope.inner < middle.frames.size := by
  have known : ∀ {layout}, Layout.Frames (begun base) layout middle →
      (Account.layout (begun base) .empty).Pends layout (above ++ .call target resume scope :: rest) →
      scope.inner < middle.frames.size := by
    intro layout laid pends
    have visible : layout.Visible scope := (pends (.call target resume scope) (by simp)).2
    rw [← laid.size]
    exact (Layout.native_of_scope (visible scope.inner List.mem_cons_self)).lt
  obtain ⟨layout, -, laid, -, -, pends⟩ := runs.laid_announced said
  generalize waiting : above ++ .call target resume scope :: rest = continuation at *
  cases gives with
  | nothing => exact known laid pends
  | argument present evaluated =>
      obtain ⟨layout, -, laid, -, pends⟩ := runs.laid_evaluated said evaluated
      exact known laid pends
  | fallenOff => exact known laid pends

end Machine

/-- What a call does with its value: the slot of a name in the caller's frame takes it, or an address
does, or nothing does. -/
def Target.Takes (target : Target) (scope : Scope) (value : Value) (arrived : Store) (after : Session)
    (bound : Store) : Prop :=
  match target with
  | .slot name => ∃ key address, name.key = .ok key ∧
      (after.slots scope.inner).address? key = some address ∧ arrived.extend address value = .ok bound
  | .location address => arrived.extend address value = .ok bound
  | .discard => bound = arrived

/-- Binding the result takes the target. -/
theorem Target.takes_of_bindResult {target : Target} {scope : Scope} {value : Value}
    {arrived bound : Store} {middle after : Session} (inside : scope.inner < middle.frames.size)
    (binds : Continuation.bindResult target scope value arrived middle = .ok bound after) :
    target.Takes scope value arrived after bound := by
  have ends : Ends (Continuation.bindResult target scope value arrived) middle
      (fun bound after => target.Takes scope value arrived after bound) fun _ _ => True := by
    unfold Continuation.bindResult
    cases target with
    | slot name =>
        simp only [ends_bind, ends_declare, ends_fromExcept]
        cases named : name.key with
        | error fault => trivial
        | ok key =>
            dsimp only
            split
            · rename_i bound extended
              exact ⟨key, _, named, Session.address?_declare_self _ _ inside, extended⟩
            · trivial
    | location address =>
        rw [ends_fromExcept]
        split
        · assumption
        · trivial
    | discard => rfl
  exact ends.of_ok binds

/-- An address that no slot has and no store binds, as far as a run goes that began with a given
session. -/
structure Session.Unused (base session : Session) (store : Store) (address : Address) : Prop where
  notNull : address ≠ 0
  stored : store.contains address = false
  slotted : ∀ frame key, base.frames.size ≤ frame → (session.slots frame).address? key ≠ some address

/-- How a handler deals with a value that is thrown to it. An empty clause is passed over. Any other is
entered at its first statement, in a new frame inside that of its try statement, where the parameter has a
fresh slot that holds the value. -/
inductive Handles (base : Session) (clause : Node) (scope : Scope) (resume : Control)
    (rest : Continuation) (value : Value) (arrived : Store) (middle : Session) : State → Session → Prop where
  | passed {later : State} (empty : clause.ownBody?.bind Node.emptyBody? = some true)
      (stands : later.StandsAt resume scope arrived rest) :
      Handles base clause scope resume rest value arrived middle later middle
  | entered {place : Place} {param : Ident} {body first : Node} {following : List Node}
      {exit : Option Nat} {key : Key} {address : Address} {later : State} {after : Session}
      (shape : clause = .catchClause place param body)
      (listed : body.sequence? = some (first :: following, exit))
      (named : param.name.key = .ok key)
      (fresh : Session.Unused base middle arrived address)
      (slot : (after.slots middle.frames.size).address? key = some address)
      (stands : later.StandsAt (.visit first (.through following (.exiting exit resume)))
        ⟨middle.frames.size, scope.chain⟩ (arrived.insert address value) (.scope resume scope :: rest)) :
      Handles base clause scope resume rest value arrived middle later after

/-- A clause with a block for a body and a name that can be bound, behind which control goes on. -/
def Node.CanCatch (clause : Node) (resume : Control) : Prop :=
  resume ≠ .nowhere ∧ ∃ place param inner body exit key,
    clause = .catchClause place param (.block inner body exit) ∧ param.name.key = .ok key

namespace Layout

variable {base since session middle : Session} {layout : Layout} {kept arrived : Store} {scope : Scope}

/-- What is higher than all that has been handed out is not in use. -/
theorem unused_of_lt (passed : (initial base).Later layout) (laid : Frames since layout middle)
    (stored : Stores kept layout arrived) {address : Int} (high : (layout.allocated : Int) < address) :
    Session.Unused base middle arrived address := by
  refine ⟨?_, ?_, ?_⟩
  · intro null
    rw [null] at high
    exact absurd high (Int.not_lt.mpr (Int.natCast_nonneg _))
  · cases contained : arrived.contains address with
    | false => rfl
    | true => exact absurd high (Int.not_lt.mpr (stored.bound _ contained).2.2)
  · intro frame found created bound
    have inside := lt_of_address? bound
    rw [← laid.size] at inside
    have handed := laid.slots frame (passed.native_of_created created inside) found _ bound
    exact absurd high (Int.not_lt.mpr handed.2)

/-- The slot that a new frame gives to a name has an address that is not in use. -/
theorem unused_declare (passed : (initial base).Later layout) (laid : Frames since layout middle)
    (stored : Stores kept layout arrived) (visible : layout.Visible scope) (key : Key) (written : Tree) :
    Session.Unused base middle arrived
      ((middle.addFrame (middle.allocatorOf scope.inner)).declare middle.frames.size key written).1 := by
  have native := native_of_scope (visible scope.inner List.mem_cons_self)
  rw [laid.own scope.inner native]
  have newest : { layout with roles := layout.roles ++ [Role.scope] }.Native middle.frames.size := by
    apply native_of_scope
    rw [← laid.size]
    simp
  have missing : ((middle.addFrame Session.machineAllocator).slots middle.frames.size).address? key =
      none := by
    rw [middle.slots_addFrame_self]
    rfl
  exact unused_of_lt passed laid stored (laid.addFrame.lt_declare written newest missing)

/-- A value that is caught is dealt with by the handler, and nothing but its clause can keep a handler
from doing so. -/
theorem ends_caught {clause : Node} {resume : Control} {value : Value} {rest : Continuation}
    (passed : (initial base).Later layout) (laid : Frames since layout middle)
    (stored : Stores kept layout arrived) (visible : layout.Visible scope) :
    Ends (Continuation.caught clause scope resume value arrived rest) middle
      (Handles base clause scope resume rest value arrived middle)
      fun _ _ => ¬ clause.CanCatch resume := by
  unfold Continuation.caught
  cases empty : clause.ownBody?.bind Node.emptyBody? with
  | none =>
      rintro ⟨-, place, param, inner, body, exit, key, rfl, -⟩
      cases empty
  | some isEmpty =>
      cases isEmpty with
      | true =>
          dsimp only
          apply Ends.intro
          · intro later after resumed
            -- A clause without statements is passed over, and its parameter is not bound.
            obtain ⟨stands, rfl⟩ := State.standsAt_of_resume resumed
            exact .passed empty stands
          · rintro fault after failed ⟨somewhere, -⟩
            obtain ⟨state, resumed⟩ := State.exists_resume somewhere scope arrived rest middle
            rw [resumed] at failed
            cases failed
      | false =>
          dsimp only
          split
          · rename_i place param body
            unfold Continuation.enterClause
            simp only [ends_bind, ends_push, ends_declare, ends_fromExcept]
            cases named : param.name.key with
            | error fault =>
                rintro ⟨-, place, other, inner, body, exit, key, same, keyed⟩
                cases same
                rw [named] at keyed
                cases keyed
            | ok key =>
                have fresh := unused_declare passed laid stored visible key param.name.written
                dsimp only
                rw [Store.extend_of_ne fresh.notNull]
                dsimp only
                split
                · rename_i first following exit listed
                  exact .entered rfl listed named fresh (Session.address?_declare_self _ _ (by simp))
                    ⟨rfl, rfl, rfl, rfl⟩
                · rename_i unlisted
                  rintro ⟨-, place, other, inner, statements, exit, key, same, -⟩
                  cases same
                  cases statements with
                  | nil => cases empty
                  | cons first following => exact unlisted first following exit rfl
          · rename_i other
            rintro ⟨-, place, param, inner, body, exit, key, rfl, -⟩
            exact other place param _ rfl

end Layout

end ScriptMachine
