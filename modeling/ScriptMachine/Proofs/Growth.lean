/-
This file shows that sessions grow. Main statement: whatever a step does, and whether or not it fails,
frames keep what they bind, and what they bind in addition has fresh addresses.
-/

import ScriptMachine.Proofs.Equation
import ScriptMachine.Proofs.Session

namespace ScriptMachine

/-- A session that comes later. Frames that were there keep their allocator and what they bind, and
what a frame of the machine has bound since then was not in use. -/
structure Session.Grows (session later : Session) : Prop where
  size : session.frames.size ≤ later.frames.size
  allocators : later.allocators.size = session.allocators.size
  allocated :
    session.allocated Session.machineAllocator ≤ later.allocated Session.machineAllocator
  identities : session.identities ≤ later.identities
  allocatorOf : ∀ frame < session.frames.size, later.allocatorOf frame = session.allocatorOf frame
  kept : ∀ frame key address, (session.slots frame).address? key = some address →
    (later.slots frame).address? key = some address
  fresh : Session.machineAllocator < session.allocators.size → ∀ frame < session.frames.size,
    session.allocatorOf frame = Session.machineAllocator → ∀ key (address : Int),
    (session.slots frame).address? key = none → (later.slots frame).address? key = some address →
    session.allocated Session.machineAllocator < address ∧
      address ≤ later.allocated Session.machineAllocator

namespace Session

variable {session later : Session}

/-- Sessions with the same frames and allocators do not differ in what they bind. -/
theorem Grows.of_eq (frames : later.frames = session.frames)
    (allocators : later.allocators = session.allocators)
    (identities : session.identities ≤ later.identities) : session.Grows later := by
  have slots : ∀ frame, later.slots frame = session.slots frame := by
    intro frame
    unfold Session.slots
    rw [frames]
  exact {
    size := Nat.le_of_eq (by rw [frames])
    allocators := by rw [allocators]
    allocated := Nat.le_of_eq (by unfold Session.allocated; rw [allocators])
    identities
    allocatorOf := fun frame _ => by unfold Session.allocatorOf; rw [frames]
    kept := fun frame key address found => by rw [slots]; exact found
    fresh := fun _ frame _ _ key address missing found => by
      rw [slots, missing] at found
      cases found }

theorem Grows.refl (session : Session) : session.Grows session := .of_eq rfl rfl (Nat.le_refl _)

theorem Grows.trans {last : Session} (first : session.Grows later) (second : later.Grows last) :
    session.Grows last where
  size := Nat.le_trans first.size second.size
  allocators := second.allocators.trans first.allocators
  allocated := Nat.le_trans first.allocated second.allocated
  identities := Nat.le_trans first.identities second.identities
  allocatorOf frame inside := by
    rw [second.allocatorOf frame (Nat.lt_of_lt_of_le inside first.size),
      first.allocatorOf frame inside]
  kept frame key address found := second.kept frame key address (first.kept frame key address found)
  fresh available frame inside own key address missing found := by
    have before := first.allocated
    have after := second.allocated
    cases between : (later.slots frame).address? key with
    | some held =>
        have same := second.kept frame key held between
        rw [found] at same
        cases same
        have bounds := first.fresh available frame inside own key address missing between
        omega
    | none =>
        have bounds := second.fresh (by rw [first.allocators]; exact available) frame
          (Nat.lt_of_lt_of_le inside first.size)
          (by rw [first.allocatorOf frame inside]; exact own) key address between found
        omega

theorem grows_addFrame (session : Session) (allocator : Nat) :
    session.Grows (session.addFrame allocator) where
  size := by simp
  allocators := rfl
  allocated := Nat.le_refl _
  identities := Nat.le_refl _
  allocatorOf frame inside := allocatorOf_addFrame_of_ne _ _ (Nat.ne_of_lt inside)
  kept frame key address found := by
    by_cases same : frame = session.frames.size
    · subst same
      simp [slots, Slots.address?] at found
    · rw [slots_addFrame_of_ne _ _ same]
      exact found
  fresh _ frame inside _ key address missing found := by
    rw [slots_addFrame_of_ne _ _ (Nat.ne_of_lt inside), missing] at found
    cases found

/-- Binding in a frame that is not yet part of the earlier session. -/
theorem grows_addObject (session : Session) (allocator : Nat) (proto : Address) :
    session.Grows (session.addObject allocator proto) := by
  have added := session.grows_addFrame allocator
  unfold addObject
  exact {
    size := by simp
    allocators := rfl
    allocated := Nat.le_refl _
    identities := Nat.le_refl _
    allocatorOf := fun frame inside => by simpa using added.allocatorOf frame inside
    kept := fun frame key address found => by
      by_cases same : frame = session.frames.size
      · subst same
        simp [slots, Slots.address?] at found
      · rw [slots_bind_of_ne _ _ _ _ same]
        exact added.kept frame key address found
    fresh := fun available frame inside own key address missing found => by
      rw [slots_bind_of_ne _ _ _ _ (Nat.ne_of_lt inside)] at found
      exact added.fresh available frame inside own key address missing found }

/-- A frame that binds a further name uses an address that was free. -/
theorem grows_declare (session : Session) (frame : Nat) (key : Key) (written : Tree) :
    session.Grows (session.declare frame key written).2 := by
  unfold declare
  cases bound : (session.slots frame).address? key with
  | some address => exact .refl session
  | none =>
      dsimp only
      exact {
        size := by simp
        allocators := by simp [bind, advance]
        allocated := session.allocated_le_advance _ _
        identities := Nat.le_refl _
        allocatorOf := fun other _ => by simp
        kept := fun other found address present => by
          have different : other ≠ frame ∨ found ≠ key := by
            by_cases same : other = frame
            · right
              rintro rfl
              rw [same, bound] at present
              cases present
            · exact .inl same
          rw [address?_bind_of_ne _ _ _ different]
          exact present
        fresh := fun available other inside own found address missing present => by
          by_cases same : other = frame ∧ found = key
          · obtain ⟨rfl, rfl⟩ := same
            have stays : other < (session.advance (session.allocatorOf other)).frames.size := inside
            rw [address?_bind_self _ _ _ stays] at present
            cases present
            rw [own, allocated_bind, allocated_advance_self available]
            exact ⟨Int.ofNat_lt.mpr (Nat.lt_succ_self _), Int.le_refl _⟩
          · rw [address?_bind_of_ne _ _ _ (Decidable.not_and_iff_or_not.mp same), slots_advance,
              missing] at present
            cases present }

theorem grows_locate (session : Session) (scope : Scope) (key : Key) (written : Tree) :
    session.Grows (session.locate scope key written).2 := by
  unfold locate
  split
  · exact .refl session
  · exact session.grows_declare scope.inner key written

end Session

/-- Work that lets the session grow, however it ends. A view shows the session in the state of the work. -/
class Expands {S A : Type} (view : S → Session) (work : EStateM Fault S A) : Prop where
  ends : ∀ start, Ends work start (fun _ final => (view start).Grows (view final)) fun _ final =>
    (view start).Grows (view final)

theorem Action.grows_of_ok {A : Type} {work : Action A} {session after : Session} {result : A}
    [expands : Expands id work] (ended : work session = .ok result after) : session.Grows after :=
  (expands.ends session).of_ok ended

theorem Draft.grows_of_ok {A : Type} {work : Draft A} {scratch final : Scratch} {result : A}
    [expands : Expands Scratch.session work] (ended : work scratch = .ok result final) :
    scratch.session.Grows final.session :=
  (expands.ends scratch).of_ok ended

section

variable {S A B : Type} {view : S → Session} {first : EStateM Fault S B} {second : B → EStateM Fault S A}

instance (result : A) : Expands view (pure result : EStateM Fault S A) := ⟨fun start => .refl (view start)⟩

instance (fault : Fault) : Expands view (throw fault : EStateM Fault S A) := ⟨fun start => .refl (view start)⟩

/-- Work that goes on from other work lets the session grow further. -/
theorem expands_bind [begins : Expands view first] (goesOn : ∀ value, Expands view (second value)) :
    Expands view (first >>= second) := by
  refine ⟨fun start => ?_⟩
  rw [ends_bind]
  refine (begins.ends start).weaken ?_ fun _ _ grown => grown
  intro value middle grown
  exact ((goesOn value).ends middle).weaken (fun _ _ further => grown.trans further)
    fun _ _ further => grown.trans further

instance [Expands view first] [goesOn : ∀ value, Expands view (second value)] :
    Expands view (first >>= second) := expands_bind goesOn

instance (condition : Prop) [Decidable condition] {yes no : EStateM Fault S A} [Expands view yes]
    [Expands view no] : Expands view (if condition then yes else no) := by
  split <;> infer_instance

end

section

variable {A : Type}

instance (outcome : Except Fault A) : Expands id (Action.fromExcept outcome) := by
  cases outcome <;> unfold Action.fromExcept <;> infer_instance

instance (cause : Unsupported) : Expands id (Action.refuse cause : Action A) :=
  inferInstanceAs (Expands _ (throw _))

instance (topic : Topic) (message : Session → String) : Expands id (Action.note topic message) := by
  refine ⟨fun session => ?_⟩
  rw [ends_note]
  split
  · exact .of_eq rfl rfl (Nat.le_refl _)
  · exact .refl session

instance (topic : Topic) (message : String) : Expands id (Action.warn topic message) :=
  ⟨fun _ => .of_eq rfl rfl (Nat.le_refl _)⟩

instance (text : String) : Expands id (Action.print text) := ⟨fun _ => .of_eq rfl rfl (Nat.le_refl _)⟩

instance (scope : Scope) (name : Name) : Expands id (scope.resolve name) := by
  refine ⟨fun session => ?_⟩
  rw [ends_resolve]
  cases name.key with
  | error fault => exact .refl session
  | ok key =>
      dsimp only
      split <;> exact .refl session

instance (scope : Scope) (name : Name) : Expands id (scope.declare name) := by
  refine ⟨fun session => ?_⟩
  rw [ends_declare]
  cases name.key with
  | error fault => exact .refl session
  | ok key => exact session.grows_declare scope.inner key name.written

instance (allocator : Nat) (outer : List Nat) : Expands id (Scope.enter allocator outer) :=
  ⟨fun session => session.grows_addFrame allocator⟩

instance (scope : Scope) : Expands id scope.push :=
  ⟨fun session => session.grows_addFrame (session.allocatorOf scope.inner)⟩

instance (code : Code) (scope : Scope) : Expands id (code.close scope) :=
  ⟨fun _ => .of_eq rfl rfl (Nat.le_succ _)⟩

instance (proto : Address) (store : Store) (allocator : Nat) :
    Expands id (Object.create proto store allocator) := by
  refine ⟨fun session => ?_⟩
  rw [ends_create]
  exact session.grows_addObject allocator proto

instance (object : Object) (name : Name) : Expands id (object.locate name) := by
  refine ⟨fun session => ?_⟩
  rw [ends_locate]
  cases name.key with
  | error fault => exact .refl session
  | ok key => exact session.grows_locate object.properties key name.written

instance (routine : Routine) (arguments : List Value) : Expands id (routine.call arguments) := by
  cases routine <;> unfold Routine.call <;> infer_instance

instance {action : Action A} [grows : Expands id action] :
    Expands Scratch.session (liftM action : Draft A) := by
  refine ⟨fun scratch => ?_⟩
  rw [ends_liftAction]
  exact grows.ends scratch.session

instance (outcome : Except Fault A) : Expands Scratch.session (liftM outcome : Draft A) := by
  cases outcome with
  | ok result => exact inferInstanceAs (Expands _ (pure result))
  | error fault => exact inferInstanceAs (Expands _ (throw fault))

instance (fault : Fault) : Expands Scratch.session (Draft.fail fault : Draft A) :=
  inferInstanceAs (Expands _ (throw fault))

instance (cause : Unsupported) : Expands Scratch.session (Draft.refuse cause : Draft A) :=
  inferInstanceAs (Expands _ (throw _))

instance : Expands Scratch.session Draft.store := ⟨fun scratch => .refl scratch.session⟩

instance (address : Address) (value : Value) : Expands Scratch.session (Draft.extend address value) := by
  refine ⟨fun scratch => ?_⟩
  rw [ends_extend]
  split <;> exact .refl scratch.session

instance (operand : Operand) : Expands Scratch.session operand.read := ⟨fun scratch => .refl scratch.session⟩

instance (operand : Operand) (value : Value) : Expands Scratch.session (operand.write value) := by
  unfold Operand.write
  split <;> infer_instance

instance (object : Object) (selector : Value) : Expands Scratch.session (object.select selector) := by
  unfold Object.select
  infer_instance

instance (operator : BinaryOperator) (left right : Value) :
    Expands Scratch.session (operator.perform left right) := by
  unfold BinaryOperator.perform
  dsimp only
  split <;> infer_instance

instance {draft : Draft A} [grows : Expands Scratch.session draft] (store : Store) :
    Expands id (draft.run store) := by
  refine ⟨fun session => ?_⟩
  rw [ends_run]
  exact grows.ends ⟨session, store⟩

end

mutual
/-- Evaluating an expression lets the session grow. -/
theorem Node.expands_evaluate (inverted : Bool) (scope : Scope) (node : Node) :
    Expands Scratch.session (node.evaluate inverted scope) := by
  cases node with
  | identifier | literal | functionExpression =>
      rw [Node.evaluate]
      infer_instance
  | object place properties =>
      have := fun object => expands_evaluateProperties inverted scope object properties
      rw [Node.evaluate]
      infer_instance
  | member place holder selector computed =>
      have := expands_evaluate inverted scope holder
      have := expands_evaluate inverted scope selector
      rw [Node.evaluate]
      refine expands_bind fun operand => expands_bind fun held => ?_
      cases held <;> infer_instance
  | unary place operator argument =>
      have := expands_evaluate inverted scope argument
      rw [Node.evaluate]
      infer_instance
  | binary place operator left right | logical place operator left right =>
      have := expands_evaluate inverted scope left
      have := expands_evaluate inverted scope right
      rw [Node.evaluate]
      infer_instance
  | assignment place operator left right =>
      have := expands_evaluate inverted scope left
      have := expands_evaluate inverted scope right
      cases operator with
      | other written =>
          rw [Node.evaluate]
          infer_instance
      | assign =>
          rw [Node.evaluate]
          refine expands_bind fun target => ?_
          split <;> infer_instance
  | _ =>
      rw [Node.evaluate]
      · infer_instance
      all_goals simp

/-- Evaluating properties grows the session. -/
theorem Node.expands_evaluateProperties (inverted : Bool) (scope : Scope) (object : Object)
    (properties : List Node) :
    Expands Scratch.session (Node.evaluateProperties inverted scope object properties) := by
  match properties with
  | [] =>
      rw [Node.evaluateProperties]
      infer_instance
  | other :: rest =>
      by_cases property : ∃ place key value, other = .property place key value
      · obtain ⟨place, key, value, rfl⟩ := property
        have := expands_evaluate inverted scope value
        have := expands_evaluateProperties inverted scope object rest
        rw [Node.evaluateProperties]
        infer_instance
      · obtain ⟨fault, refused⟩ := Node.exists_evaluateProperties_eq_throw inverted
          (fun place key value same => property ⟨place, key, value, same⟩) rest
        rw [refused]
        infer_instance
end

section

variable (inverted : Bool) (scope : Scope) (store : Store) (continuation : Continuation)

instance (node : Node) : Expands Scratch.session (node.evaluate inverted scope) :=
  node.expands_evaluate inverted scope

instance (object : Object) (properties : List Node) :
    Expands Scratch.session (Node.evaluateProperties inverted scope object properties) :=
  Node.expands_evaluateProperties inverted scope object properties

instance (node : Node) : Expands Scratch.session (node.value inverted scope) := by
  unfold Node.value
  infer_instance

instance (node : Node) : Expands Scratch.session (node.truth inverted scope) := by
  unfold Node.truth
  infer_instance

instance (arguments : List Node) : Expands Scratch.session (Node.values inverted scope arguments) := by
  induction arguments <;> unfold Node.values <;> infer_instance

instance (arguments : List Node) : Expands Scratch.session (Node.plainValues inverted scope arguments) := by
  induction arguments with
  | nil =>
      unfold Node.plainValues
      infer_instance
  | cons argument rest ih =>
      unfold Node.plainValues
      refine expands_bind fun value => ?_
      cases value <;> infer_instance

instance (params : List Ident) (arguments : List Value) :
    Expands Scratch.session (bindParams scope params arguments) := by
  induction params generalizing arguments <;> unfold bindParams <;> infer_instance

instance (control : Control) : Expands id (State.resume control scope store continuation) := by
  cases control <;> unfold State.resume <;> infer_instance

instance (target : Target) (value : Value) : Expands id (Continuation.bindResult target scope value store) := by
  cases target <;> unfold Continuation.bindResult <;> infer_instance

instance (value : Value) : Expands id (Continuation.returned value store continuation) := by
  fun_induction Continuation.returned value store continuation <;> infer_instance

instance : Expands id (Continuation.leftScope store continuation) := by
  fun_induction Continuation.leftScope store continuation <;> infer_instance

instance : Expands id (Continuation.leftHandler store continuation) := by
  fun_induction Continuation.leftHandler store continuation <;> infer_instance

instance (clause : Node) (resume : Control) (thrown : Value) :
    Expands id (Continuation.caught clause scope resume thrown store continuation) := by
  have : ∀ param body, Expands id
      (Continuation.enterClause param body scope resume thrown store continuation) := by
    intro param body
    unfold Continuation.enterClause
    refine expands_bind fun inner => expands_bind fun address => expands_bind fun bound => ?_
    split <;> infer_instance
  unfold Continuation.caught
  split
  · infer_instance
  · infer_instance
  · split <;> infer_instance

instance (value : Value) : Expands id (Continuation.thrown value store continuation) := by
  fun_induction Continuation.thrown value store continuation <;> infer_instance

instance (closure : Closure) (arguments : List Value) (site : CallSite) :
    Expands Scratch.session (closure.enter arguments site) := by
  unfold Closure.enter
  refine expands_bind fun scope => expands_bind fun _ => ?_
  split <;> infer_instance

instance (site : CallSite) (arguments : List Node) (value : Value) :
    Expands Scratch.session (site.apply inverted arguments value) := by
  cases value <;> unfold CallSite.apply <;> infer_instance

instance (site : CallSite) (callee : Node) (arguments : List Node) :
    Expands Scratch.session (callFrom inverted site callee arguments) := by
  rw [callFrom_eq]
  infer_instance

instance (resume : Control) (node : Node) :
    Expands Scratch.session (node.evaluateStatement inverted scope continuation resume) := by
  fun_cases Node.evaluateStatement inverted scope continuation resume node with
  | case1 | case3 => infer_instance
  | case2 place left inner callee arguments =>
      refine expands_bind fun operand => ?_
      split <;> infer_instance

end

namespace Machine

variable (machine : Machine) (scope : Scope) (store : Store) (continuation : Continuation)

instance (init : Node) : Expands Scratch.session (machine.initialValue scope init) := by
  unfold initialValue
  split <;> infer_instance

instance (keyword : Tree) (declarators : List Node) :
    Expands Scratch.session (machine.declareAll scope keyword declarators) := by
  induction declarators with
  | nil =>
      unfold declareAll
      infer_instance
  | cons declarator rest ih =>
      cases declarator with
      | declarator place target init =>
          rw [declareAll_cons]
          infer_instance
      | _ =>
          unfold declareAll
          infer_instance

instance (declarators : List Node) (keyword : Tree) (next : Control) :
    Expands Scratch.session (machine.declaration declarators keyword next scope continuation) := by
  unfold declaration
  split <;> infer_instance

instance {draft : Draft Effect} [Expands Scratch.session draft] (next : Control) :
    Expands id (proceed draft next scope store continuation) := by
  unfold proceed
  refine expands_bind ?_
  rintro ⟨effect, arrived⟩
  cases effect <;> infer_instance

instance (node : Node) (next : Control) :
    Expands id (machine.stepActive node next scope store continuation) := by
  cases node with
  | block | functionDeclaration | tryStatement =>
      unfold stepActive
      dsimp only
      split <;> infer_instance
  | ifStatement | whileStatement =>
      rw [machine.stepActive_of_test scope next store continuation rfl]
      infer_instance
  | returnStatement place argument =>
      rw [stepActive_returnStatement]
      infer_instance
  | _ =>
      unfold stepActive
      infer_instance

instance (state : State) : Expands id (machine.announce state) := by
  rw [announce_eq]
  split <;> infer_instance

instance (state : State) : Expands id (machine.step state) := by
  unfold step
  cases state <;> infer_instance

/-- A step lets the session grow. -/
theorem grows_step (state : State) (session : Session) :
    Ends (machine.step state) session (fun _ after => session.Grows after) fun _ after =>
      session.Grows after :=
  (inferInstance : Expands id (machine.step state)).ends session

end Machine

end ScriptMachine
