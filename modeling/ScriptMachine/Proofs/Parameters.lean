/-
This file says what entering a function does. Main statement: a call of a function binds its parameters in
a new frame, each name to the argument at its last position, and changes nothing else before the body runs.
-/

import ScriptMachine.Proofs.Request
import ScriptMachine.Proofs.Unwinding

namespace ScriptMachine

/-- A row of names is bound in a frame, each to the value at its last position, or to undefined where
the values are used up. Names that the frame has not bound yet come behind the others, in the order in
which they occur first. -/
structure Scratch.Binds (frame : Nat) (keys : List Key) (values : List Value) (start final : Scratch) :
    Prop where
  names : (final.session.slots frame).map Slot.key = (start.session.slots frame).map Slot.key ++
    (keys.filter (· ∉ (start.session.slots frame).map Slot.key)).eraseDups
  holds : ∀ index key, keys[index]? = some key → (∀ later, index < later → keys[later]? ≠ some key) →
    ∃ address, (final.session.slots frame).address? key = some address ∧
      final.store.get address = values.getD index .undefined
  frames : ∀ other, other ≠ frame → final.session.slots other = start.session.slots other
  store : ∀ address, (∀ key ∈ keys, (final.session.slots frame).address? key ≠ some address) →
    final.store.get address = start.store.get address ∧
      final.store.contains address = start.store.contains address
  rest : final.session = { start.session with
    frames := final.session.frames, allocators := final.session.allocators }
  size : final.session.frames.size = start.session.frames.size

/-- The first of some names is known from then on. -/
theorem eraseDups_filter_cons {known keys : List Key} {key : Key} (unknown : key ∉ known) :
    ((key :: keys).filter (· ∉ known)).eraseDups =
      key :: (keys.filter (· ∉ known ++ [key])).eraseDups := by
  rw [List.filter_cons_of_pos (by simpa using unknown), List.eraseDups_cons, List.filter_filter]
  congr 2
  apply List.filter_congr
  intro other _
  by_cases same : other = key <;> simp [same]

/-- Declaring a name leaves all but the frames and the allocators alone. -/
theorem Session.rest_declare (session : Session) (frame : Nat) (key : Key) (written : Tree) :
    (session.declare frame key written).2 = { session with
      frames := (session.declare frame key written).2.frames
      allocators := (session.declare frame key written).2.allocators } := by
  unfold declare
  split <;> rfl

namespace Layout

variable {since : Session} {layout : Layout} {frame : Nat} {key : Key} {keys : List Key}
  {values : List Value} {start final : Scratch}

/-- A name is bound in front of the others. Where it comes again, its value does not last. -/
theorem binds_cons (laid : Frames since layout final.session)
    (role : layout.roles[frame]? = some .scope) (inside : frame < start.session.frames.size)
    {written : Tree} (notNull : (start.session.declare frame key written).1 ≠ 0)
    (grows : (start.session.declare frame key written).2.Grows final.session)
    (binds : Scratch.Binds frame keys values.tail ⟨(start.session.declare frame key written).2,
      start.store.insert (start.session.declare frame key written).1 (values.headD .undefined)⟩ final) :
    Scratch.Binds frame (key :: keys) values start final := by
  have taken : (final.session.slots frame).address? key =
      some (start.session.declare frame key written).1 :=
    grows.kept _ _ _ (Session.address?_declare_self _ _ inside)
  have extended := @Store.extend_of_ne start.store _ (values.headD .undefined) notNull
  exact {
    names := by
      rw [binds.names]
      cases bound : (start.session.slots frame).address? key with
      | some address =>
          obtain ⟨slot, member, named, -⟩ := Slots.exists_of_address? bound
          have known : key ∈ (start.session.slots frame).map Slot.key :=
            named ▸ List.mem_map_of_mem member
          -- A name that is bound already keeps its slot and its place among the names.
          rw [Session.declare_of_bound bound, List.filter_cons_of_neg (by simpa using known)]
      | none =>
          rw [Session.slots_declare_of_missing _ inside bound, List.map_append,
            eraseDups_filter_cons (Slots.address?_eq_none_iff.mp bound)]
          simp
    holds := by
      intro index found there last
      cases index with
      | zero =>
          cases there
          refine ⟨_, taken, ?_⟩
          rw [(binds.store _ ?_).1, Store.get_extend_self extended]
          · cases values <;> rfl
          · -- no other name of the frame has this address, and this one does not come again
            intro other member boundAgain
            obtain ⟨-, rfl⟩ := laid.apart frame _ frame other _ (.inl role) (.inl role) taken boundAgain
            obtain ⟨later, there⟩ := List.mem_iff_getElem?.mp member
            exact last (later + 1) (Nat.succ_pos _) there
      | succ index =>
          obtain ⟨address, bound, holds⟩ := binds.holds index found there fun later after =>
            last (later + 1) (Nat.succ_lt_succ after)
          refine ⟨address, bound, holds.trans ?_⟩
          cases values <;> rfl
    frames := by
      intro other different
      rw [binds.frames other different, Session.slots_declare_of_ne _ _ _ different]
    store := by
      intro address elsewhere
      obtain ⟨first, others⟩ := List.forall_mem_cons.mp elsewhere
      have different : address ≠ (start.session.declare frame key written).1 := by
        rintro rfl
        exact first taken
      obtain ⟨same, contained⟩ := binds.store address others
      exact ⟨same.trans (Store.get_extend_of_ne extended different),
        contained.trans (Store.contains_extend_of_ne extended different)⟩
    rest := by
      rw [binds.rest]
      dsimp only
      rw [Session.rest_declare]
    size := by
      rw [binds.size]
      exact Session.size_declare .. }

end Layout

/-- A parameter is bound before the others. -/
theorem bindParams_cons {scope : Scope} {param : Ident} {key : Key} {start : Scratch}
    (keyed : param.name.key = .ok key)
    (notNull : (start.session.declare scope.inner key param.name.written).1 ≠ 0) (params : List Ident)
    (values : List Value) :
    bindParams scope (param :: params) values start = bindParams scope params values.tail
      ⟨(start.session.declare scope.inner key param.name.written).2, start.store.insert
        (start.session.declare scope.inner key param.name.written).1 (values.headD .undefined)⟩ := by
  generalize declared : start.session.declare scope.inner key param.name.written = result at notNull ⊢
  have declares : (liftM (scope.declare param.name) : Draft Address) start =
      .ok result.1 ⟨result.2, start.store⟩ := by
    apply Ends.eq_ok
    simp only [ends_liftAction, ends_declare, keyed, declared, and_self]
  have extended : Draft.extend result.1 (values.headD .undefined) ⟨result.2, start.store⟩ =
      .ok () ⟨result.2, start.store.insert result.1 (values.headD .undefined)⟩ := by
    apply Ends.eq_ok
    rw [ends_extend, Store.extend_of_ne notNull]
    exact ⟨rfl, rfl⟩
  rw [bindParams, bind_of_ok declares, bind_of_ok extended]

/-- What is there when the body of a function is about to run. A new frame stands inside the scope that
the function has captured. It binds the parameters at addresses that were not in use, and all else is as
it was when the arguments had been evaluated, in the frames of the caller and of the function, too. -/
structure Scratch.Activates (base : Session) (caller captured : Scope) (keys : List Key)
    (values : List Value) (evaluated bound : Scratch) : Prop where
  size : bound.session.frames.size = evaluated.session.frames.size + 1
  around : ∀ frame ∈ captured.chain ++ caller.chain, frame ≠ evaluated.session.frames.size
  names : (bound.session.slots evaluated.session.frames.size).map Slot.key = keys.eraseDups
  fresh : ∀ key (address : Int),
    (bound.session.slots evaluated.session.frames.size).address? key = some address →
    evaluated.session.allocated Session.machineAllocator < address ∧
      Session.Unused base evaluated.session evaluated.store address
  apart : ∀ key other address,
    (bound.session.slots evaluated.session.frames.size).address? key = some address →
    (bound.session.slots evaluated.session.frames.size).address? other = some address → key = other
  holds : ∀ index key, keys[index]? = some key → (∀ later, index < later → keys[later]? ≠ some key) →
    ∃ address, (bound.session.slots evaluated.session.frames.size).address? key = some address ∧
      bound.store.get address = values.getD index .undefined
  frames : ∀ frame, frame ≠ evaluated.session.frames.size →
    bound.session.slots frame = evaluated.session.slots frame
  store : ∀ address : Int, address ≤ evaluated.session.allocated Session.machineAllocator ∨
      (∀ key, (bound.session.slots evaluated.session.frames.size).address? key ≠ some address) →
    bound.store.get address = evaluated.store.get address ∧
      bound.store.contains address = evaluated.store.contains address
  rest : bound.session = { evaluated.session with
    frames := bound.session.frames, allocators := bound.session.allocators }

namespace Layout

variable {base since : Session} {layout : Layout} {kept : Store} {scope captured : Scope}
  {params : List Ident} {keys : List Key} {values : List Value}

/-- One parameter after the other is bound. -/
theorem exists_bindParams {start : Scratch} (laid : Frames since layout start.session)
    (visible : layout.Visible scope)
    (named : params.mapM (fun param => param.name.key) = .ok keys) :
    ∃ final later, bindParams scope params values start = .ok () final ∧ layout.Later later ∧
      Frames since later final.session ∧ Scratch.Binds scope.inner keys values start final := by
  induction params generalizing start layout keys values with
  | nil =>
      cases named
      refine ⟨start, layout, rfl, .refl layout, laid, ?_⟩
      exact ⟨by simp, fun _ _ there => (nomatch there), fun _ _ => rfl, fun _ _ => ⟨rfl, rfl⟩, rfl, rfl⟩
  | cons param params ih =>
      obtain ⟨key, rest, keyed, others, rfl⟩ : ∃ key rest, param.name.key = .ok key ∧
          params.mapM (fun param => param.name.key) = .ok rest ∧ keys = key :: rest := by
        rw [List.mapM_cons] at named
        cases keyed : param.name.key with
        | error fault => rw [keyed] at named; cases named
        | ok key =>
            cases others : params.mapM (fun param => param.name.key) with
            | error fault => rw [keyed, others] at named; cases named
            | ok rest =>
                rw [keyed, others] at named
                cases named
                exact ⟨key, rest, rfl, rfl, rfl⟩
      have inside : scope.inner < start.session.frames.size := by
        rw [← laid.size]
        exact (native_of_scope (visible scope.inner List.mem_cons_self)).lt
      obtain ⟨middle, passed, keeps, -⟩ :=
        @reaches_bind since start.session .empty layout scope key param.name.written laid visible
      have role := (visible.later passed) scope.inner List.mem_cons_self
      have notNull := keeps.present _ _ _ (.inl role) (Session.address?_declare_self _ _ inside)
      obtain ⟨final, later, bound, further, stays, binds⟩ :=
        @ih middle rest values.tail ⟨_, start.store.insert _ (values.headD .undefined)⟩
          keeps (visible.later passed) others
      refine ⟨final, later, (bindParams_cons keyed notNull params values).trans bound,
        passed.trans further, stays, ?_⟩
      exact binds_cons stays (further.role role) inside notNull (Draft.grows_of_ok bound) binds

/-- Binding the parameters in a new frame makes all that a function needs to run. -/
theorem exists_activates {evaluated : Scratch} (passed : (initial base).Later layout)
    (laid : Frames since layout evaluated.session) (stored : Stores kept layout evaluated.store)
    (visible : layout.Visible scope) (seen : layout.Visible captured)
    (named : params.mapM (fun param => param.name.key) = .ok keys) :
    ∃ bound later, bindParams ⟨evaluated.session.frames.size, captured.chain⟩ params values
        ⟨evaluated.session.addFrame Session.machineAllocator, evaluated.store⟩ = .ok () bound ∧
      layout.Later later ∧ Frames since later bound.session ∧
      Scratch.Activates base scope captured keys values evaluated bound := by
  obtain ⟨entered, onward, added, -, inner⟩ :=
    @reaches_addFrame since evaluated.session .empty layout _ captured.chain laid rfl seen
  obtain ⟨bound, later, binding, further, keeps, binds⟩ :=
    @exists_bindParams since entered ⟨evaluated.session.frames.size, captured.chain⟩ params keys values
      ⟨evaluated.session.addFrame Session.machineAllocator, evaluated.store⟩ added inner named
  have empty : (evaluated.session.addFrame Session.machineAllocator).slots
      evaluated.session.frames.size = [] := evaluated.session.slots_addFrame_self _
  have grows := Draft.grows_of_ok binding
  have role := further.role (inner evaluated.session.frames.size List.mem_cons_self)
  have fresh : ∀ key (address : Int),
      (bound.session.slots evaluated.session.frames.size).address? key = some address →
      evaluated.session.allocated Session.machineAllocator < address := by
    intro key address held
    have missing : ((evaluated.session.addFrame Session.machineAllocator).slots
        evaluated.session.frames.size).address? key = none := by rw [empty]; rfl
    exact (grows.fresh laid.available _ (by simp) (Session.allocatorOf_addFrame_self ..) key address
      missing held).1
  refine ⟨bound, later, binding, Later.trans onward further, keeps, ?_⟩
  exact {
    size := binds.size.trans (Session.size_addFrame ..)
    around := by
      intro frame member
      rw [← laid.size]
      rcases List.mem_append.mp member with inside | inside
      · exact Nat.ne_of_lt (native_of_scope (seen frame inside)).lt
      · exact Nat.ne_of_lt (native_of_scope (visible frame inside)).lt
    names := by
      rw [binds.names, empty, List.filter_eq_self.mpr (by simp)]
      rfl
    fresh := fun key address held =>
      ⟨fresh key address held, unused_of_lt passed laid stored (laid.allocated ▸ fresh key address held)⟩
    apart := fun key other address held heldAgain =>
      (keeps.apart _ key _ other address (.inl role) (.inl role) held heldAgain).2
    holds := binds.holds
    frames := by
      intro frame different
      rw [binds.frames frame different, Session.slots_addFrame_of_ne _ _ different]
    store := by
      intro address other
      refine binds.store address fun key _ held => ?_
      -- The parameters took addresses that no one had before the call.
      rcases other with old | elsewhere
      · exact absurd (fresh key address held) (Int.not_lt.mpr old)
      · exact elsewhere key held
    rest := binds.rest }

end Layout

/-- A call is entered once its parameters are bound. A function without statements returns at once. -/
theorem Closure.enter_eq {closure : Closure} {values : List Value} {evaluated bound : Scratch}
    (binding : bindParams ⟨evaluated.session.frames.size, closure.scope.chain⟩ closure.code.params values
      ⟨evaluated.session.addFrame Session.machineAllocator, evaluated.store⟩ = .ok () bound)
    (site : CallSite) :
    Draft.outcome (closure.enter values site) evaluated =
      match closure.code.body.emptyBody? with
      | none => .error .malformed bound.session
      | some true => Continuation.returned .undefined bound.store site.pending bound.session
      | some false => .ok (.active closure.code.body .nowhere
          ⟨evaluated.session.frames.size, closure.scope.chain⟩ bound.store site.pending) bound.session := by
  have entered : (liftM (Scope.enter Session.machineAllocator closure.scope.chain) : Draft Scope) evaluated =
      .ok ⟨evaluated.session.frames.size, closure.scope.chain⟩
        ⟨evaluated.session.addFrame Session.machineAllocator, evaluated.store⟩ := rfl
  unfold Closure.enter
  rw [Draft.outcome_of_ok entered, Draft.outcome_of_ok binding]
  cases closure.code.body.emptyBody? with
  | none => rfl
  | some empty =>
      cases empty with
      | true => exact Draft.outcome_store _ _
      | false => exact Draft.outcome_store _ _

/-- Why a place cannot take a value: the address of null is never written to, and data that is no name
has no slot. -/
def Target.refusal? : Target → Option Fault
  | .slot name =>
      match name.key with
      | .ok _ => none
      | .error fault => some fault
  | .location address => if address = 0 then some (.badWrite .nullAddress) else none
  | .discard => none

/-- Names under which a call binds its value in the frame of the caller. -/
def Target.Names (target : Target) (key : Key) : Prop :=
  ∃ name, target = .slot name ∧ name.key = .ok key

/-- A call is completed. The caller's place has taken the value, and nothing else is new but the slot of
the name that is declared. -/
structure Target.Completes (target : Target) (scope : Scope) (value : Value) (before after : Scratch) :
    Prop where
  takes : target.Takes scope value before.store after.session after.store
  grows : before.session.Grows after.session
  slots : ∀ frame key, frame ≠ scope.inner ∨ ¬ target.Names key →
    (after.session.slots frame).address? key = (before.session.slots frame).address? key

namespace Layout

variable {since session : Session} {layout : Layout} {scope : Scope} {target : Target} {value : Value}
  {store : Store}

/-- A place takes a value unless it refuses. -/
theorem ends_bindResult (laid : Frames since layout session) (visible : layout.Visible scope) :
    Ends (Continuation.bindResult target scope value store) session
      (fun bound after => target.refusal? = none ∧
        target.Completes scope value ⟨session, store⟩ ⟨after, bound⟩)
      fun fault after => target.refusal? = some fault ∧ after = session := by
  have inside : scope.inner < session.frames.size := by
    rw [← laid.size]
    exact (native_of_scope (visible scope.inner List.mem_cons_self)).lt
  have binds : Ends (Continuation.bindResult target scope value store) session
      (fun _ after => target.refusal? = none ∧ ∀ frame key, frame ≠ scope.inner ∨ ¬ target.Names key →
        (after.slots frame).address? key = (session.slots frame).address? key)
      fun fault after => target.refusal? = some fault ∧ after = session := by
    unfold Continuation.bindResult
    cases target with
    | discard => exact ⟨rfl, fun _ _ _ => rfl⟩
    | location address =>
        rw [ends_fromExcept]
        by_cases null : address = 0
        · subst null
          exact ⟨rfl, rfl⟩
        · rw [Store.extend_of_ne null]
          exact ⟨if_neg null, fun _ _ _ => rfl⟩
    | slot name =>
        simp only [ends_bind, ends_declare, ends_fromExcept]
        cases named : name.key with
        | error fault => exact ⟨by simp only [Target.refusal?, named], trivial⟩
        | ok key =>
            obtain ⟨later, passed, kept, -⟩ :=
              @reaches_bind since session .empty layout scope key name.written laid visible
            have role := (visible.later passed) scope.inner List.mem_cons_self
            have notNull := kept.present _ _ _ (.inl role) (Session.address?_declare_self _ _ inside)
            dsimp only
            rw [Store.extend_of_ne notNull]
            refine ⟨by simp only [Target.refusal?, named],
              fun frame found other => Session.address?_declare_of_ne _ _ (other.imp_right ?_)⟩
            rintro unnamed rfl
            exact unnamed ⟨name, rfl, named⟩
  refine Ends.intro (fun bound after ended => ?_) fun fault after failed => binds.of_error failed
  obtain ⟨admits, slots⟩ := binds.of_ok ended
  exact ⟨admits, Target.takes_of_bindResult inside ended, Action.grows_of_ok ended, slots⟩

end Layout

namespace Machine

variable {machine : Machine} {program : Node} {base announced : Session} {held : Exploration} {node : Node}
  {next : Control} {scope : Scope} {store : Store} {continuation : Continuation} {calling : Calling}

/-- When a statement has made its request, the layout is in order. -/
theorem Explored.laid_requested (explored : machine.Explored program base held)
    (member : .active node next scope store continuation ∈ held.states)
    (said : machine.announce (.active node next scope store continuation) held.session =
      .ok () announced)
    (calls : node.calling? = some calling) {target : Target} {request : Request} {evaluated : Scratch}
    (requested : calling.request machine.invertedTruth scope ⟨announced, store⟩ =
      .ok (target, request) evaluated) :
    ∃ layout, (Layout.initial base).Later layout ∧ Layout.Frames (begun base) layout evaluated.session ∧
      Layout.Stores .empty layout evaluated.store ∧ layout.Visible scope ∧
      (Account.layout (begun base) .empty).Ready layout request := by
  let regime := Regime.layout (begun base) .empty
  obtain ⟨layout, passed, laid, sound⟩ := explored.layout
  obtain ⟨later, further, kept, -⟩ := (regime.makes_announce machine _ laid).of_ok said
  obtain ⟨stored, visible, -⟩ := regime.sound_later further (sound _ member)
  have holds : regime.Holds later ⟨announced, store⟩ := ⟨kept, stored⟩
  have sees : regime.Sees later scope node := visible
  obtain ⟨last, onward, keeps, stays, ready⟩ :=
    (regime.keeps_request machine.invertedTruth calls holds sees).of_ok requested
  exact ⟨last, (passed.trans further).trans onward, keeps, stays, visible.later onward, ready⟩

/-- Entering a function binds its parameters and nothing else. The body is entered in the new frame, with
the caller waiting below it. A function with an empty body has completed its call at once, unless the
caller's place refuses the value. -/
theorem Explored.entering_binds (explored : machine.Explored program base held)
    (member : .active node next scope store continuation ∈ held.states)
    (said : machine.announce (.active node next scope store continuation) held.session =
      .ok () announced)
    (calls : node.calling? = some calling) {target : Target} {closure : Closure} {values : List Value}
    {evaluated : Scratch}
    (requested : calling.request machine.invertedTruth scope ⟨announced, store⟩ =
      .ok (target, .closure closure values) evaluated)
    {keys : List Key} (named : closure.code.params.mapM (fun param => param.name.key) = .ok keys) :
    ∃ bound, Scratch.Activates base scope closure.scope keys values evaluated bound ∧
      (closure.code.body.emptyBody? = some false →
        machine.step (.active node next scope store continuation) held.session =
          .ok (.active closure.code.body .nowhere ⟨evaluated.session.frames.size, closure.scope.chain⟩
            bound.store (.call target next scope :: continuation)) bound.session) ∧
      (closure.code.body.emptyBody? = some true →
        match target.refusal? with
        | none => ∃ after, target.Completes scope .undefined bound after ∧
            machine.step (.active node next scope store continuation) held.session =
              State.resume next scope after.store continuation after.session
        | some fault => machine.step (.active node next scope store continuation) held.session =
            .error fault bound.session) := by
  obtain ⟨layout, passed, laid, stored, visible, ready⟩ :=
    explored.laid_requested member said calls requested
  obtain ⟨bound, later, binding, further, kept, activates⟩ :=
    Layout.exists_activates passed laid stored visible ready.1.2 named
  have stepped : machine.step (.active node next scope store continuation) held.session =
      Draft.outcome (closure.enter values ⟨target, next, scope, continuation⟩) evaluated := by
    refine (bind_of_ok said).trans ((machine.stepActive_eq_answer calls ..).trans ?_)
    exact Draft.outcome_of_ok requested
  rw [Closure.enter_eq binding] at stepped
  refine ⟨bound, activates, ?_, ?_⟩
  · intro filled
    rw [stepped, filled]
    rfl
  · intro empty
    rw [empty] at stepped
    have binds := @Layout.ends_bindResult _ bound.session later scope target .undefined bound.store kept
      (visible.later further)
    cases taken : Continuation.bindResult target scope .undefined bound.store bound.session with
    | ok arrived after =>
        obtain ⟨admits, completes⟩ := binds.of_ok taken
        rw [admits]
        exact ⟨⟨after, arrived⟩, completes, stepped.trans (bind_of_ok taken)⟩
    | error fault after =>
        obtain ⟨refuses, rfl⟩ := binds.of_error taken
        rw [refuses]
        exact stepped.trans (bind_of_error taken)

end Machine

namespace Sample

/-- Calls of a function without statements and of one with a repeated parameter. -/
def entering : Tree := program
  [function "f" ["a", "b", "a"] [declare "c" (name "b")], function "g" ["a"] [],
    declare "y" (call "g" [literal "one", literal "two"]),
    declare "x" (call "f" [literal "one", literal "two"])]

/-- The prototype of all objects is to have the value of a call for its prototype. -/
def orphaned : Tree :=
  let proto := fun holder => node "MemberExpression" [("object", name holder), ("property", name "__proto__")]
  program [function "f" [] [], declare "o" (object []), declare "p" (proto "o"),
    assign "p" "__proto__" (call "f" [])]

end Sample

/-- Whether a state is about to call a function with the given parameters, with an empty body or not,
and for a place that may refuse the value. -/
def State.isCalling (state : State) (session : Session) (keys : List Key) (empty : Bool)
    (refusal : Option Fault) : Bool :=
  match state with
  | .active node _ scope store _ =>
      match node.calling? with
      | none => false
      | some calling =>
          match calling.request false scope ⟨session, store⟩ with
          | .ok (target, .closure called _) _ =>
              (called.code.params.mapM fun (param : Ident) => param.name.key).toOption == some keys &&
                called.code.body.emptyBody? == some empty && target.refusal? == refusal
          | _ => false
  | _ => false

theorem State.exists_of_isCalling {state : State} {session : Session} {keys : List Key} {empty : Bool}
    {refusal : Option Fault} (isCalling : state.isCalling session keys empty refusal = true) :
    ∃ node next scope store continuation calling target closure values evaluated,
      state = .active node next scope store continuation ∧ node.calling? = some calling ∧
      calling.request false scope ⟨session, store⟩ = .ok (target, .closure closure values) evaluated ∧
      closure.code.params.mapM (fun param => param.name.key) = .ok keys ∧
      closure.code.body.emptyBody? = some empty ∧ target.refusal? = refusal := by
  unfold State.isCalling at isCalling
  split at isCalling
  · rename_i node next scope store continuation
    split at isCalling
    · cases isCalling
    · rename_i calling calls
      split at isCalling
      · rename_i target closure values evaluated requested
        simp only [Bool.and_eq_true, beq_iff_eq] at isCalling
        obtain ⟨⟨named, body⟩, refuses⟩ := isCalling
        refine ⟨node, next, scope, store, continuation, calling, target, closure, values, evaluated, rfl,
          calls, requested, ?_, body, refuses⟩
        cases keyed : closure.code.params.mapM (fun param => param.name.key) with
        | error fault =>
            rw [keyed] at named
            cases named
        | ok found =>
            rw [keyed] at named
            cases named
            rfl
      · cases isCalling
  · cases isCalling

namespace Machine

/-- Of three parameters with two names, the last one has no argument. A call without statements takes
more arguments than its function has parameters. -/
theorem Explored.entering_binds_of_entering :
    ∃ program counted, Sample.entering.read 0 = .ok program counted ∧
      (∃ held node next scope store continuation calling target closure values evaluated bound,
        Explored ⟨.default, none⟩ program (Session.start false) held ∧
        .active node next scope store continuation ∈ held.states ∧ node.calling? = some calling ∧
        calling.request false scope ⟨held.session, store⟩ = .ok (target, .closure closure values) evaluated ∧
        Scratch.Activates (Session.start false) scope closure.scope [.text "a", .text "b", .text "a"] values
          evaluated bound ∧
        Machine.step ⟨.default, none⟩ (.active node next scope store continuation) held.session =
          .ok (.active closure.code.body .nowhere ⟨evaluated.session.frames.size, closure.scope.chain⟩
            bound.store (.call target next scope :: continuation)) bound.session) ∧
      ∃ held node next scope store continuation calling target closure values evaluated bound after,
        Explored ⟨.default, none⟩ program (Session.start false) held ∧
        .active node next scope store continuation ∈ held.states ∧ node.calling? = some calling ∧
        calling.request false scope ⟨held.session, store⟩ = .ok (target, .closure closure values) evaluated ∧
        Scratch.Activates (Session.start false) scope closure.scope [.text "a"] values evaluated bound ∧
        Target.Completes target scope .undefined bound after ∧
        Machine.step ⟨.default, none⟩ (.active node next scope store continuation) held.session =
          State.resume next scope after.store continuation after.session := by
  obtain ⟨program, counted, reads, -⟩ : ∃ program counted,
      Sample.entering.read 0 = .ok program counted ∧ True := Ends.exists_ok (by decide +kernel)
  refine ⟨program, counted, reads, ?_, ?_⟩
  · obtain ⟨progress, session, ran, isCalling⟩ : ∃ progress session,
        Machine.run ⟨.default, none⟩ 4 Sample.entering (Session.start false) = .ok progress session ∧
          progress.state.isCalling session [.text "a", .text "b", .text "a"] false none = true :=
      Ends.exists_ok (by decide +kernel)
    obtain ⟨node, next, scope, store, continuation, calling, target, closure, values, evaluated, active,
      calls, requested, named, filled, -⟩ := State.exists_of_isCalling isCalling
    obtain ⟨states, member, explored⟩ := explored_of_run rfl reads ran
    rw [active] at member
    obtain ⟨bound, activates, entered, -⟩ := explored.entering_binds member rfl calls requested named
    exact ⟨_, node, next, scope, store, continuation, calling, target, closure, values, evaluated, bound,
      explored, member, calls, requested, activates, entered filled⟩
  · obtain ⟨progress, session, ran, isCalling⟩ : ∃ progress session,
        Machine.run ⟨.default, none⟩ 3 Sample.entering (Session.start false) = .ok progress session ∧
          progress.state.isCalling session [.text "a"] true none = true :=
      Ends.exists_ok (by decide +kernel)
    obtain ⟨node, next, scope, store, continuation, calling, target, closure, values, evaluated, active,
      calls, requested, named, empty, admits⟩ := State.exists_of_isCalling isCalling
    obtain ⟨states, member, explored⟩ := explored_of_run rfl reads ran
    rw [active] at member
    obtain ⟨bound, activates, -, completed⟩ := explored.entering_binds member rfl calls requested named
    have completed := completed empty
    rw [admits] at completed
    obtain ⟨after, completes, stepped⟩ := completed
    exact ⟨_, node, next, scope, store, continuation, calling, target, closure, values, evaluated, bound,
      after, explored, member, calls, requested, activates, completes, stepped⟩

/-- The address of null refuses the value of a call that has bound all its parameters. -/
theorem Explored.entering_refused :
    ∃ program counted held node next scope store continuation calling target closure values evaluated fault
      after, Sample.orphaned.read 0 = .ok program counted ∧
      Explored ⟨.default, none⟩ program (Session.start false) held ∧
      .active node next scope store continuation ∈ held.states ∧ node.calling? = some calling ∧
      calling.request false scope ⟨held.session, store⟩ = .ok (target, .closure closure values) evaluated ∧
      closure.code.params.mapM (fun param => param.name.key) = .ok [] ∧
      closure.code.body.emptyBody? = some true ∧
      Machine.step ⟨.default, none⟩ (.active node next scope store continuation) held.session =
        .error fault after := by
  obtain ⟨program, counted, reads, -⟩ : ∃ program counted,
      Sample.orphaned.read 0 = .ok program counted ∧ True := Ends.exists_ok (by decide +kernel)
  obtain ⟨progress, session, ran, isCalling, fails⟩ : ∃ progress session,
      Machine.run ⟨.default, none⟩ 4 Sample.orphaned (Session.start false) = .ok progress session ∧
        progress.state.isCalling session [] true (some (.badWrite .nullAddress)) = true ∧
        Ends (Machine.step ⟨.default, none⟩ progress.state) session (fun _ _ => False) fun _ _ => True :=
    Ends.exists_ok (by decide +kernel)
  obtain ⟨node, next, scope, store, continuation, calling, target, closure, values, evaluated, active,
    calls, requested, named, empty, -⟩ := State.exists_of_isCalling isCalling
  obtain ⟨states, member, explored⟩ := explored_of_run rfl reads ran
  rw [active] at member fails
  cases failed : Machine.step ⟨.default, none⟩ (.active node next scope store continuation) session with
  | ok state after => exact absurd (fails.of_ok failed) id
  | error fault after =>
      exact ⟨program, counted, _, node, next, scope, store, continuation, calling, target, closure, values,
        evaluated, fault, after, reads, explored, member, calls, requested, named, empty, failed⟩

end Machine

end ScriptMachine
