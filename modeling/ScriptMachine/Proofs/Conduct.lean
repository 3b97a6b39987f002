/-
This file follows a regime through the steps of the machine: calls, values returned and thrown, scopes
and handlers left. Main statement: a step from a state in order leads to a state in order, or fails and
leaves a session in order behind.
-/

import ScriptMachine.Proofs.Regime

namespace ScriptMachine

namespace Account

variable (account : Account)

/-- The value of a call goes to a name that its scope may bind, or to an address that may be written. -/
def Aims (world : account.World) (scope : Scope) : Target → Prop
  | .slot name => ∀ key, name.key = .ok key → account.Binds world scope key
  | .location address => account.Writable world address
  | .discard => True

/-- Pending work stands where it goes on. A handler goes on behind its try statement, or in its
clause. -/
def Awaits (world : account.World) : Pending → Prop
  | .call target resume scope => account.Aims world scope target ∧ account.Stands world resume scope
  | .scope resume outer => account.Stands world resume outer
  | .handler clause scope resume => ∃ place guarded others exit,
      account.Stands world (.visit (.tryStatement place guarded clause others exit) resume) scope

def Pends (world : account.World) (continuation : Continuation) : Prop :=
  ∀ pending ∈ continuation, account.Awaits world pending

/-- A state in order. Nothing is asked of the session, so that a state stays in order while others are
stepped. -/
def Sound (world : account.World) : State → Prop
  | .active node next scope store continuation => account.Stores world store ∧
      account.Stands world (.visit node next) scope ∧ account.Pends world continuation
  | .halted scope store continuation => account.Stores world store ∧
      account.Stands world .done scope ∧ account.Pends world continuation
  | .uncaught value store => account.Stores world store ∧ account.Good world value

/-- An action that leads to a state in order. -/
def Leads (world : account.World) (session : Session) (work : Action State) : Prop :=
  account.Makes world session work account.Sound

/-- A draft that leads to a state in order. -/
def Enters (world : account.World) (scratch : Scratch) (work : Draft State) : Prop :=
  account.Yields world scratch work fun later _ state => account.Sound later state

/-- What evaluation in the place of a statement comes to is in order. -/
def Affects (world : account.World) (scratch : Scratch) (work : Draft Effect) : Prop :=
  account.Yields world scratch work fun later store effect =>
    match effect with
    | .entered state => account.Sound later state
    | .operand _ => account.Stores later store

end Account

namespace Regime

variable (regime : Regime) {world : regime.World} {session : Session} {store : Store} {scope : Scope}
  {continuation : Continuation}

section

variable {later : regime.World} (passed : regime.Later world later)
include passed

theorem aims_later {target : Target} (aims : regime.Aims world scope target) :
    regime.Aims later scope target := by
  cases target with
  | slot name => exact fun key named => regime.binds_later passed (aims key named)
  | location address => exact regime.writable_later passed aims
  | discard => trivial

/-- What a continuation waits for stays in order. -/
theorem pends_later (pends : regime.Pends world continuation) : regime.Pends later continuation := by
  intro pending member
  have awaits := pends pending member
  cases pending with
  | call target resume outer =>
      exact ⟨regime.aims_later passed awaits.1, regime.stands_later passed awaits.2⟩
  | scope resume outer => exact regime.stands_later passed awaits
  | handler clause outer resume =>
      obtain ⟨place, guarded, others, exit, stands⟩ := awaits
      exact ⟨place, guarded, others, exit, regime.stands_later passed stands⟩

/-- A state in order stays in order. -/
theorem sound_later {state : State} (sound : regime.Sound world state) :
    regime.Sound later state := by
  cases state with
  | active node next scope store continuation =>
      obtain ⟨stores, stands, pends⟩ := sound
      exact ⟨regime.stores_later passed stores, regime.stands_later passed stands,
        regime.pends_later passed pends⟩
  | halted scope store continuation =>
      obtain ⟨stores, stands, pends⟩ := sound
      exact ⟨regime.stores_later passed stores, regime.stands_later passed stands,
        regime.pends_later passed pends⟩
  | uncaught value store =>
      exact ⟨regime.stores_later passed sound.1, regime.good_later passed sound.2⟩

end

theorem pends_cons {pending : Pending} (awaits : regime.Awaits world pending)
    (pends : regime.Pends world continuation) : regime.Pends world (pending :: continuation) :=
  List.forall_mem_cons.mpr ⟨awaits, pends⟩

section

variable {A B : Type} {good : regime.World → A → Prop}

theorem makes_pure {result : A} (frames : regime.Frames world session) (inOrder : good world result) :
    regime.Makes world session (pure result) good :=
  regime.reaches_self frames inOrder

theorem makes_throw {fault : Fault} (frames : regime.Frames world session) :
    regime.Makes world session (throw fault : Action A) good :=
  regime.reaches_self frames trivial

/-- Actions in two parts end in a later world if both parts do. -/
theorem makes_bind {first : Action B} {second : B → Action A} {middle : regime.World → B → Prop}
    (begins : regime.Makes world session first middle)
    (continues : ∀ later after result, regime.Later world later → regime.Frames later after →
      middle later result → regime.Makes later after (second result) good) :
    regime.Makes world session (first >>= second) good := by
  unfold Account.Makes
  rw [ends_bind]
  refine begins.weaken ?_ fun fault after failed => failed
  rintro result after ⟨later, passed, frames, inOrder⟩
  refine (continues later after result passed frames inOrder).weaken ?_ ?_
  · intro value final reaches
    exact regime.reaches_trans passed reaches
  · intro fault final reaches
    exact regime.reaches_trans passed reaches

/-- Running a draft that keeps a regime gives its result and a store in order. -/
theorem makes_run {draft : Draft A} (keeps : regime.Keeps world ⟨session, store⟩ draft good) :
    regime.Makes world session (draft.run store) fun later result =>
      regime.Stores later result.2 ∧ good later result.1 := by
  unfold Account.Makes
  rw [ends_run]
  exact regime.yields_of_keeps keeps

end

variable {control resume : Control} {value : Value} {scratch : Scratch} {keyword : Tree}
  {declarators : List Node}

/-- Control goes on where it stands. -/
theorem leads_resume (frames : regime.Frames world session) (stores : regime.Stores world store)
    (stands : regime.Stands world control scope) (pends : regime.Pends world continuation) :
    regime.Leads world session (State.resume control scope store continuation) := by
  unfold Account.Leads Account.Makes
  rw [ends_resume]
  cases control with
  | nowhere => exact regime.reaches_self frames trivial
  | done => exact regime.reaches_self frames ⟨stores, stands, pends⟩
  | visit node next => exact regime.reaches_self frames ⟨stores, stands, pends⟩

/-- Good values are stored where they may be. -/
theorem makes_extend {address : Address} (frames : regime.Frames world session)
    (stores : regime.Stores world store) (writable : regime.Writable world address)
    (good : regime.Good world value) :
    regime.Makes world session (Action.fromExcept (store.extend address value))
      fun later bound => regime.Stores later bound := by
  unfold Account.Makes
  rw [ends_fromExcept]
  cases extended : store.extend address value with
  | error fault => exact regime.reaches_self frames trivial
  | ok bound => exact regime.reaches_self frames (regime.write stores writable good extended)

/-- Binding the value of a call. -/
theorem makes_bindResult {target : Target} (frames : regime.Frames world session)
    (stores : regime.Stores world store) (aims : regime.Aims world scope target)
    (good : regime.Good world value) :
    regime.Makes world session (Continuation.bindResult target scope value store)
      fun later bound => regime.Stores later bound := by
  cases target with
  | slot name =>
      refine regime.makes_bind (regime.makes_declare frames aims) ?_
      intro later after address passed held writable
      exact regime.makes_extend held (regime.stores_later passed stores) writable
        (regime.good_later passed good)
  | location address => exact regime.makes_extend frames stores aims good
  | discard => exact regime.makes_pure frames stores

section

variable {value : Value} (frames : regime.Frames world session) (stores : regime.Stores world store)
include frames stores

/-- A value is returned to the innermost call, which goes on where it stands. -/
theorem leads_returned (good : regime.Good world value) (pends : regime.Pends world continuation) :
    regime.Leads world session (Continuation.returned value store continuation) := by
  induction continuation with
  | nil => exact regime.makes_throw frames
  | cons pending rest ih =>
      obtain ⟨awaits, below⟩ := List.forall_mem_cons.mp pends
      cases pending with
      | call target resume outer =>
          refine regime.makes_bind (regime.makes_bindResult frames stores awaits.1 good) ?_
          intro later after bound passed held kept
          exact regime.leads_resume held kept (regime.stands_later passed awaits.2)
            (regime.pends_later passed below)
      | scope resume outer => exact ih below
      | handler clause outer resume => exact ih below

/-- Leaving a scope goes on behind it, and leaving the body of a function returns undefined. -/
theorem leads_leftScope (pends : regime.Pends world continuation) :
    regime.Leads world session (Continuation.leftScope store continuation) := by
  induction continuation with
  | nil => exact regime.makes_throw frames
  | cons pending rest ih =>
      obtain ⟨awaits, below⟩ := List.forall_mem_cons.mp pends
      cases pending with
      | call target resume outer => exact ih below
      | scope resume outer =>
          cases resume with
          | nowhere => exact regime.leads_returned frames stores (regime.plain rfl) below
          | done => exact regime.leads_resume frames stores awaits below
          | visit node next => exact regime.leads_resume frames stores awaits below
      | handler clause outer resume => exact ih below

/-- Leaving a protected block goes on behind its try statement. -/
theorem leads_leftHandler (pends : regime.Pends world continuation) :
    regime.Leads world session (Continuation.leftHandler store continuation) := by
  induction continuation with
  | nil => exact regime.makes_throw frames
  | cons pending rest ih =>
      obtain ⟨awaits, below⟩ := List.forall_mem_cons.mp pends
      cases pending with
      | call target resume outer => exact ih below
      | scope resume outer => exact ih below
      | handler clause outer resume =>
          obtain ⟨place, guarded, others, exit, stands⟩ := awaits
          exact regime.leads_resume frames stores (regime.flow stands (.next resume rfl)) below

/-- A clause is entered in a scope that knows the thrown value. -/
theorem leads_caught {clause : Node} {resume : Control}
    (awaits : regime.Awaits world (.handler clause scope resume)) (good : regime.Good world value)
    (pends : regime.Pends world continuation) :
    regime.Leads world session (Continuation.caught clause scope resume value store continuation) := by
  obtain ⟨place, guarded, others, exit, stands⟩ := awaits
  have behind := regime.flow stands (.next resume rfl)
  unfold Continuation.caught
  split
  · exact regime.makes_throw frames
  · exact regime.leads_resume frames stores behind pends
  · rename_i filled
    split
    · rename_i clausePlace param body
      have pushed : regime.Makes world session scope.push fun later inner =>
          regime.Stands later (body.enterBody resume) inner ∧ regime.Expects later inner [param] := by
        unfold Account.Makes
        rw [ends_push]
        exact regime.opens frames stands (.clause place clausePlace guarded param others exit resume filled)
      refine regime.makes_bind pushed ?_
      rintro later after inner passed held ⟨entered, expects⟩
      refine regime.makes_bind
        (regime.makes_declare held (expects param List.mem_cons_self)) ?_
      intro middle between address onward kept writable
      have since := regime.later_trans passed onward
      refine regime.makes_bind (regime.makes_extend kept (regime.stores_later since stores) writable
        (regime.good_later since good)) ?_
      intro last final bound further keeps stays
      have since := regime.later_trans since further
      split
      · rename_i first following innerExit sequence
        have entered := regime.stands_later (regime.later_trans onward further) entered
        unfold Node.enterBody at entered
        rw [sequence] at entered
        exact regime.leads_resume keeps stays entered
          (regime.pends_cons (regime.stands_later since behind) (regime.pends_later since pends))
      · exact regime.makes_throw keeps
    · exact regime.makes_throw frames

/-- A value is thrown to the innermost handler, or ends the run. -/
theorem leads_thrown (good : regime.Good world value) (pends : regime.Pends world continuation) :
    regime.Leads world session (Continuation.thrown value store continuation) := by
  induction continuation with
  | nil =>
      unfold Continuation.thrown Account.Leads Account.Makes
      simp only [ends_bind, ends_warn, ends_pure]
      exact regime.reaches_self (regime.report _ _ frames) ⟨stores, good⟩
  | cons pending rest ih =>
      obtain ⟨awaits, below⟩ := List.forall_mem_cons.mp pends
      cases pending with
      | call target resume outer => exact ih below
      | scope resume outer => exact ih below
      | handler clause outer resume => exact regime.leads_caught frames stores awaits good below

end

section

variable {scratch : Scratch} (inverted : Bool) {node : Node} {arguments : List Node} {site : CallSite}

section

variable (holds : regime.Holds world scratch)
include holds

theorem keeps_value (sees : regime.Sees world scope node) :
    regime.Keeps world scratch (node.value inverted scope) fun later value =>
      regime.Good later value :=
  regime.keeps_reading (regime.evaluate inverted node holds sees)

theorem keeps_truth (sees : regime.Sees world scope node) :
    regime.Keeps world scratch (node.truth inverted scope) fun _ _ => True :=
  regime.keeps_testing (regime.evaluate inverted node holds sees)

/-- The values of arguments are good. -/
theorem keeps_values (sees : ∀ argument ∈ arguments, regime.Sees world scope argument) :
    regime.Keeps world scratch (Node.values inverted scope arguments)
      fun later values => ∀ value ∈ values, regime.Good later value := by
  induction arguments generalizing world scratch with
  | nil => exact regime.keeps_pure holds fun value member => absurd member List.not_mem_nil
  | cons argument rest ih =>
      obtain ⟨first, others⟩ := List.forall_mem_cons.mp sees
      refine regime.keeps_bind (regime.keeps_value inverted holds first) ?_
      intro later next value passed held good
      refine regime.keeps_bind (ih held
        fun other member => regime.sees_later passed (others other member)) ?_
      intro last final values further kept goods
      exact regime.keeps_pure kept
        (List.forall_mem_cons.mpr ⟨regime.good_later further good, goods⟩)

/-- Arguments of built-in functions leave everything in order. -/
theorem keeps_plainValues (sees : ∀ argument ∈ arguments, regime.Sees world scope argument) :
    regime.Keeps world scratch (Node.plainValues inverted scope arguments) fun _ _ => True := by
  induction arguments generalizing world scratch with
  | nil => exact regime.keeps_pure holds trivial
  | cons argument rest ih =>
      obtain ⟨first, others⟩ := List.forall_mem_cons.mp sees
      refine regime.keeps_bind (regime.keeps_value inverted holds first) ?_
      intro later next value passed held good
      have onward : regime.Keeps later next
          (do return value :: (← Node.plainValues inverted scope rest)) fun _ _ => True := by
        refine regime.keeps_bind (ih held
          fun other member => regime.sees_later passed (others other member)) ?_
        intro last final values _ kept _
        exact regime.keeps_pure kept trivial
      cases value with
      | reference identity address => exact absurd good regime.direct
      | _ => exact onward

omit inverted in
/-- Parameters are bound to good values. -/
theorem keeps_bindParams {params : List Ident} {arguments : List Value}
    (expects : regime.Expects world scope params) (goods : ∀ value ∈ arguments, regime.Good world value) :
    regime.Keeps world scratch (bindParams scope params arguments) fun _ _ => True := by
  induction params generalizing world scratch arguments with
  | nil => exact regime.keeps_pure holds trivial
  | cons param params ih =>
      refine regime.keeps_bind (regime.keeps_action holds
        (regime.makes_declare holds.frames (expects param List.mem_cons_self))) ?_
      intro later next address passed held writable
      have head : regime.Good later (arguments.headD .undefined) := by
        cases arguments with
        | nil => exact regime.plain rfl
        | cons first rest => exact regime.good_later passed (goods first List.mem_cons_self)
      refine regime.keeps_bind (regime.keeps_extend held writable head) ?_
      intro last final _ further kept _
      have since := regime.later_trans passed further
      refine ih kept ?_ ?_
      · intro other member
        exact regime.expects_later since expects other (List.mem_cons_of_mem _ member)
      · intro value member
        exact regime.good_later since (goods value (List.mem_of_mem_tail member))

end

omit inverted in
/-- Built-in functions answer with good values. -/
theorem makes_routine {routine : Routine} {arguments : List Value} (own : routine.isOwn = true)
    (frames : regime.Frames world session) :
    regime.Makes world session (routine.call arguments) fun later value => regime.Good later value := by
  cases routine with
  | print | describe =>
      unfold Account.Makes
      simp only [Routine.call, ends_bind, ends_print, ends_pure]
      exact regime.reaches_self (regime.report _ _ frames) (regime.plain rfl)
  | ownPropertyTest => exact regime.makes_throw frames
  | answer value => cases own
  | answerData data => cases own

omit inverted in
theorem enters_lift {work : Action State} (leads : regime.Leads world scratch.session work) :
    regime.Enters world scratch (liftM work) := by
  unfold Account.Enters Account.Yields
  rw [ends_liftAction]
  exact leads

omit inverted in
/-- Entering a function binds its parameters in a scope of its own, at the beginning of its body. -/
theorem enters_closure {closure : Closure} {arguments : List Value} (holds : regime.Holds world scratch)
    (good : regime.Good world (.function closure)) (goods : ∀ value ∈ arguments, regime.Good world value)
    (pends : regime.Pends world site.pending) :
    regime.Enters world scratch (closure.enter arguments site) := by
  have entered : regime.Makes world scratch.session
      (Scope.enter Session.machineAllocator closure.scope.chain) fun later inner =>
        regime.Stands later (.visit closure.code.body .nowhere) inner ∧
          regime.Expects later inner closure.code.params := by
    unfold Account.Makes
    rw [ends_enter]
    exact regime.enter holds.frames good
  refine regime.yields_bind (regime.keeps_action holds entered) ?_
  rintro later next inner passed held ⟨stands, expects⟩
  have given := fun value member => regime.good_later passed (goods value member)
  refine regime.yields_bind (regime.keeps_bindParams held expects given) ?_
  intro last final _ further kept _
  have waiting := regime.pends_later (regime.later_trans passed further) pends
  split
  · exact regime.yields_fail kept
  · exact regime.enters_lift (regime.leads_returned kept.frames kept.stores (regime.plain rfl) waiting)
  · exact regime.enters_lift (regime.leads_resume kept.frames kept.stores
      (regime.stands_later further stands) waiting)

/-- A call is answered at once, or its function is entered, or the callee is not callable. -/
theorem enters_callFrom {callee : Node} (holds : regime.Holds world scratch)
    (sees : regime.Sees world site.scope callee)
    (given : ∀ argument ∈ arguments, regime.Sees world site.scope argument)
    (pends : regime.Pends world site.pending) :
    regime.Enters world scratch (callFrom inverted site callee arguments) := by
  refine regime.yields_bind (regime.keeps_value inverted holds sees) ?_
  intro later next value passed held good
  have seen := fun argument member => regime.sees_later passed (given argument member)
  cases value with
  | builtin identity arity name routine =>
      refine regime.yields_bind (regime.keeps_plainValues inverted held seen) ?_
      intro middle between values onward kept _
      refine regime.yields_bind
        (regime.keeps_action kept (regime.makes_routine (regime.own good) kept.frames)) ?_
      intro last final answer further keeps answered
      have since := regime.later_trans passed (regime.later_trans onward further)
      exact regime.enters_lift (regime.leads_returned keeps.frames keeps.stores answered
        (regime.pends_later since pends))
  | function closure =>
      refine regime.yields_bind (regime.keeps_action held (regime.makes_note held.frames _ _)) ?_
      intro noted after _ onward kept _
      refine regime.yields_bind (regime.keeps_values inverted kept
        fun argument member => regime.sees_later onward (seen argument member)) ?_
      intro last final values further keeps goods
      have since := regime.later_trans onward further
      exact regime.enters_closure keeps (regime.good_later since good) goods
        (regime.pends_later (regime.later_trans passed since) pends)
  | _ =>
      refine regime.yields_bind (regime.keeps_action held (regime.makes_note held.frames _ _)) ?_
      intro noted after _ _ kept _
      exact regime.yields_fail kept

omit inverted in
theorem affects_entered {work : Draft State} (enters : regime.Enters world scratch work) :
    regime.Affects world scratch (do return .entered (← work)) := by
  unfold Account.Affects Account.Yields
  rw [ends_bind]
  exact enters

omit inverted in
/-- A statement may come to an operand. -/
theorem affects_operand {A : Type} {work : Draft A} {operand : A → Operand}
    {good : regime.World → A → Prop} (keeps : regime.Keeps world scratch work good) :
    regime.Affects world scratch (do return .operand (operand (← work))) := by
  refine regime.yields_bind keeps ?_
  intro later next result _ held _
  exact regime.reaches_self held.frames held.stores

/-- An expression statement is a call, assigns the value of a call, or is evaluated in place. -/
theorem affects_evaluateStatement {expression : Node} {resume : Control}
    (holds : regime.Holds world scratch) (sees : regime.Sees world scope expression)
    (behind : regime.Stands world resume scope) (pends : regime.Pends world continuation) :
    regime.Affects world scratch
      (expression.evaluateStatement inverted scope continuation resume) := by
  unfold Node.evaluateStatement
  split
  · rename_i place callee arguments
    exact regime.affects_entered (regime.enters_callFrom inverted holds
      (regime.sees_operand sees List.mem_cons_self)
      (fun argument member => regime.sees_operand sees (List.mem_cons_of_mem _ member))
      (regime.pends_cons ⟨trivial, behind⟩ pends))
  · rename_i place left callPlace callee arguments
    have assignable := regime.assigned sees
    have call : regime.Sees world scope (.call callPlace callee arguments) :=
      regime.sees_operand sees (by simp [Node.operands])
    refine regime.yields_bind (regime.evaluate inverted left holds
      (regime.sees_operand sees (by simp [Node.operands]))) ?_
    intro later next operand passed held denotes
    cases operand with
    | location address =>
        have seen := regime.sees_later passed call
        exact regime.affects_entered (regime.enters_callFrom inverted held
          (regime.sees_operand seen List.mem_cons_self)
          (fun argument member => regime.sees_operand seen (List.mem_cons_of_mem _ member))
          (regime.pends_cons ⟨denotes.2 assignable, regime.stands_later passed behind⟩
            (regime.pends_later passed pends)))
    | value found =>
        cases found with
        | reference identity address => exact absurd denotes regime.direct
        | _ => exact regime.yields_fail held
  · exact regime.affects_operand (regime.evaluate inverted expression holds sees)

end

/-- An initial value is good. -/
theorem keeps_initialValue (machine : Machine) {init : Node} (holds : regime.Holds world scratch)
    (sees : regime.Sees world scope init) :
    regime.Keeps world scratch (machine.initialValue scope init) fun later value =>
      regime.Good later value := by
  unfold Machine.initialValue
  split
  · exact regime.keeps_pure holds (regime.plain rfl)
  · exact regime.keeps_value _ holds sees

/-- Declarators are bound in turn, each to a good value. -/
theorem keeps_declareAll (machine : Machine) (holds : regime.Holds world scratch)
    (sees : ∀ declarator ∈ declarators, regime.Sees world scope declarator)
    (binds : ∀ name ∈ declarators.filterMap Node.declaredName?, ∀ key, name.key = .ok key →
      regime.Binds world scope key) :
    regime.Keeps world scratch (machine.declareAll scope keyword declarators) fun _ _ => True := by
  induction declarators generalizing world scratch with
  | nil => exact regime.keeps_pure holds trivial
  | cons declarator rest ih =>
      obtain ⟨first, others⟩ := List.forall_mem_cons.mp sees
      cases declarator with
      | declarator place target init =>
          rw [Machine.declareAll_cons]
          refine regime.keeps_bind (regime.keeps_initialValue machine holds
            (regime.sees_operand first List.mem_cons_self)) ?_
          intro later next value passed held good
          refine regime.keeps_bind
            (regime.keeps_action held (regime.makes_note held.frames _ _)) ?_
          intro noted middle _ onward kept _
          have since := regime.later_trans passed onward
          refine regime.keeps_bind (regime.keeps_action kept (regime.makes_declare kept.frames ?_)) ?_
          · intro key named
            exact regime.binds_later since (binds target.name List.mem_cons_self key named)
          intro named after address declared keeps writable
          refine regime.keeps_bind (regime.keeps_extend keeps writable
            (regime.good_later (regime.later_trans onward declared) good)) ?_
          intro last final _ further stays _
          have since := regime.later_trans since (regime.later_trans declared further)
          refine ih stays ?_ ?_
          · intro other member
            exact regime.sees_later since (others other member)
          · intro name member key named
            exact regime.binds_later since (binds name (List.mem_cons_of_mem _ member) key named)
      | _ => exact regime.keeps_fail holds

/-- A declaration calls for the value of its only declarator, or binds its declarators in turn. -/
theorem affects_declaration (machine : Machine) (holds : regime.Holds world scratch)
    (sees : ∀ declarator ∈ declarators, regime.Sees world scope declarator)
    (binds : ∀ name ∈ declarators.filterMap Node.declaredName?, ∀ key, name.key = .ok key →
      regime.Binds world scope key) (behind : regime.Stands world resume scope)
    (pends : regime.Pends world continuation) :
    regime.Affects world scratch
      (machine.declaration declarators keyword resume scope continuation) := by
  unfold Machine.declaration
  split
  · rename_i place target callPlace callee arguments
    have call : regime.Sees world scope (.call callPlace callee arguments) :=
      regime.sees_operand (sees _ List.mem_cons_self) List.mem_cons_self
    have aims : regime.Aims world scope (.choose target.name none) := by
      unfold Target.choose
      split
      · exact binds target.name List.mem_cons_self
      · trivial
    exact regime.affects_entered (regime.enters_callFrom machine.invertedTruth holds
      (regime.sees_operand call List.mem_cons_self)
      (fun argument member => regime.sees_operand call (List.mem_cons_of_mem _ member))
      (regime.pends_cons ⟨aims, behind⟩ pends))
  · exact regime.yields_fail holds
  · exact regime.yields_fail holds
  · refine regime.yields_bind (regime.keeps_declareAll machine holds sees binds) ?_
    intro later next _ _ held _
    exact regime.reaches_self held.frames held.stores

/-- A statement goes on where evaluation in its place leaves it. -/
theorem leads_proceed {draft : Draft Effect} (affects : regime.Affects world ⟨session, store⟩ draft)
    (behind : regime.Stands world resume scope) (pends : regime.Pends world continuation) :
    regime.Leads world session (Machine.proceed draft resume scope store continuation) := by
  have ran : regime.Makes world session (draft.run store) fun later result =>
      match result.1 with
      | .entered state => regime.Sound later state
      | .operand _ => regime.Stores later result.2 := by
    unfold Account.Makes
    rw [ends_run]
    exact affects
  refine regime.makes_bind ran ?_
  rintro later after ⟨effect, arrived⟩ passed frames inOrder
  cases effect with
  | entered state => exact regime.makes_pure frames inOrder
  | operand operand =>
      exact regime.leads_resume frames inOrder (regime.stands_later passed behind)
        (regime.pends_later passed pends)

/-- Announcing a step changes the journal at most. -/
theorem makes_announce (machine : Machine) (state : State) (frames : regime.Frames world session) :
    regime.Makes world session (machine.announce state) fun _ _ => True := by
  rw [Machine.announce_eq]
  split
  · unfold Account.Makes
    rw [ends_bind, ends_fromExcept]
    cases state.excerpt machine.source with
    | error fault => exact regime.reaches_self frames trivial
    | ok shown => exact regime.makes_note frames _ _
  · exact regime.makes_pure frames trivial

/-- Entering a scope that is opened for a row of statements. -/
theorem leads_open {entered : Control} {opened : Continuation} (frames : regime.Frames world session)
    (stores : regime.Stores world store) (stands : regime.Stands world control scope)
    (opens : control.Opens [] entered) (pends : regime.Pends world opened) :
    regime.Leads world session (do State.resume entered (← scope.push) store opened) := by
  have pushed : regime.Makes world session scope.push fun later inner =>
      regime.Stands later entered inner := by
    unfold Account.Makes
    rw [ends_push]
    obtain ⟨later, passed, held, inside, -⟩ := regime.opens frames stands opens
    exact ⟨later, passed, held, inside⟩
  refine regime.makes_bind pushed ?_
  intro later after inner passed held inside
  exact regime.leads_resume held (regime.stores_later passed stores) inside
    (regime.pends_later passed pends)

section

variable (machine : Machine) {node : Node} {next : Control}
  (frames : regime.Frames world session) (stores : regime.Stores world store)
  (stands : regime.Stands world (.visit node next) scope) (pends : regime.Pends world continuation)
include frames stores stands pends

/-- Control goes on from a statement to where it may flow. -/
theorem leads_flow (flows : Control.Flows (.visit node next) control) :
    regime.Leads world session (State.resume control scope store continuation) :=
  regime.leads_resume frames stores (regime.flow stands flows) pends

/-- A choice or a loop stands where it stood before its test. -/
theorem leads_tested {test : Node} (tests : node.test? = some test) :
    regime.Leads world session (machine.stepActive node next scope store continuation) := by
  rw [machine.stepActive_of_test _ _ _ _ tests]
  refine regime.makes_bind (regime.makes_run (regime.keeps_truth machine.invertedTruth ⟨frames, stores⟩
    (regime.sees_operand (regime.sees_of_stands stands) (Node.mem_operands_of_test tests)))) ?_
  rintro later after ⟨truth, arrived⟩ passed held ⟨kept, -⟩
  exact regime.leads_flow held kept (regime.stands_later passed stands)
    (regime.pends_later passed pends) (Control.flows_selected tests next truth)

/-- A step from where a state stands leads to a state in order. -/
theorem leads_stepActive :
    regime.Leads world session (machine.stepActive node next scope store continuation) := by
  have sees := regime.sees_of_stands stands
  have holds : regime.Holds world ⟨session, store⟩ := ⟨frames, stores⟩
  cases node with
  | program place body => exact regime.leads_flow frames stores stands pends (.program place body next)
  | emptyStatement place => exact regime.leads_flow frames stores stands pends (.next next rfl)
  | block place body exit =>
      unfold Machine.stepActive
      dsimp only
      split
      · exact regime.leads_flow frames stores stands pends (.next next rfl)
      · rename_i filled
        exact regime.leads_open frames stores stands (.block place exit next (by simpa using filled))
          (regime.pends_cons (regime.flow stands (.next next rfl)) pends)
  | scopeExit id => exact regime.leads_leftScope frames stores pends
  | handlerExit id => exact regime.leads_leftHandler frames stores pends
  | functionDeclaration place name params body =>
      unfold Machine.stepActive
      dsimp only
      split
      · exact regime.makes_throw frames
      · rename_i declared named
        have binds : ∀ key, declared.key = .ok key → regime.Binds world scope key := by
          intro key keyed
          refine regime.binds_of_stands stands ?_ keyed
          simpa [Node.declares, Node.declaredName?] using named
        refine regime.makes_bind (regime.makes_declare frames binds) ?_
        intro later after address passed held writable
        refine regime.makes_bind (regime.makes_close held (regime.sees_later passed sees)
          (by simp [Node.codes])) ?_
        intro middle between value onward kept good
        have since := regime.later_trans passed onward
        refine regime.makes_bind (regime.makes_extend kept (regime.stores_later since stores)
          (regime.writable_later onward writable) good) ?_
        intro last final bound further keeps stays
        have since := regime.later_trans since further
        exact regime.leads_flow keeps stays (regime.stands_later since stands)
          (regime.pends_later since pends) (.next next rfl)
  | declaration place declarators keyword =>
      have behind := regime.flow stands (.next next rfl)
      refine regime.leads_proceed (regime.affects_declaration machine holds
        (fun declarator member => regime.sees_operand sees member) ?_ behind pends) behind pends
      intro name member key keyed
      exact regime.binds_of_stands stands member keyed
  | expressionStatement place expression =>
      have behind := regime.flow stands (.next next rfl)
      exact regime.leads_proceed (regime.affects_evaluateStatement machine.invertedTruth holds
        (regime.sees_operand sees List.mem_cons_self) behind pends) behind pends
  | ifStatement | whileStatement =>
      exact regime.leads_tested machine frames stores stands pends rfl
  | returnStatement place argument =>
      rw [Machine.stepActive_returnStatement]
      refine regime.makes_bind (regime.makes_run (regime.keeps_initialValue machine holds
        (regime.sees_operand sees List.mem_cons_self))) ?_
      rintro later after ⟨value, arrived⟩ passed held ⟨kept, good⟩
      exact regime.leads_returned held kept good (regime.pends_later passed pends)
  | throwStatement place argument =>
      refine regime.makes_bind (regime.makes_run (regime.keeps_value machine.invertedTruth holds
        (regime.sees_operand sees List.mem_cons_self))) ?_
      rintro later after ⟨value, arrived⟩ passed held ⟨kept, good⟩
      exact regime.leads_thrown held kept good (regime.pends_later passed pends)
  | tryStatement place guarded handler others exit =>
      unfold Machine.stepActive
      dsimp only
      split
      · exact regime.makes_throw frames
      · exact regime.leads_flow frames stores stands pends (.next next rfl)
      · rename_i filled
        have protectedExit := regime.flow stands (.protectedExit place guarded handler others exit next)
        exact regime.leads_open frames stores stands (.guarded place handler others exit next filled)
          (regime.pends_cons protectedExit
            (regime.pends_cons ⟨place, guarded, others, exit, stands⟩ pends))
  | _ => exact regime.makes_throw frames

end

/-- A step from a state in order leads to a state in order. -/
theorem leads_step (machine : Machine) {state : State} (frames : regime.Frames world session)
    (sound : regime.Sound world state) : regime.Leads world session (machine.step state) := by
  refine regime.makes_bind (regime.makes_announce machine state frames) ?_
  intro later after _ passed held _
  cases state with
  | active node next scope store continuation =>
      obtain ⟨stores, stands, pends⟩ := regime.sound_later passed sound
      exact regime.leads_stepActive machine held stores stands pends
  | halted scope store continuation => exact regime.makes_throw held
  | uncaught value store => exact regime.makes_throw held

end Regime

end ScriptMachine
