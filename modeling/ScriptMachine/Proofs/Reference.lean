/-
This file follows the properties of objects through the steps of a run. Main statement: throughout a run a
key of an object stands for one address, and what is read there is what was written there last.
-/

import ScriptMachine.Proofs.Confinement
import ScriptMachine.Proofs.Stability

namespace ScriptMachine

namespace History

/-- A history in which nothing is looked for. -/
def OnlyWrites (history : History) : Prop :=
  ∀ access ∈ history, ∃ address value, access = .wrote address value

theorem onlyWrites_nil : OnlyWrites [] := fun _ member => absurd member List.not_mem_nil

/-- Writing is told by writes alone. -/
theorem onlyWrites_writing (address : Address) (value : Value) : (writing address value).OnlyWrites := by
  intro access member
  unfold writing at member
  split at member
  · cases member
  · exact ⟨address, value, List.mem_singleton.mp member⟩

/-- What follows some work is told by writes if every way on is. -/
theorem onlyWrites_after {S A : Type} {work : EStateM Fault S A} {start : S} {onward : A → S → History}
    (writes : ∀ result final, (onward result final).OnlyWrites) : (after work start onward).OnlyWrites := by
  unfold after
  split
  · exact writes _ _
  · exact onlyWrites_nil

/-- Writes leave a history consistent. -/
theorem Consistent.append {log : History} (consistent : past.Consistent) (writes : log.OnlyWrites) :
    Consistent (past ++ log) := by
  induction log generalizing past with
  | nil => rwa [List.append_nil]
  | cons access rest ih =>
      obtain ⟨⟨address, value, rfl⟩, others⟩ := List.forall_mem_cons.mp writes
      rw [List.append_cons]
      exact ih (consistent.wrote address value) others

end History

/-- A state that a run comes to at a steady moment. -/
structure State.Steady (since : Session) (past : History) (layout : Layout) (session : Session)
    (state : State) : Prop where
  moment : Scratch.Steady since [] past layout ⟨session, state.store⟩
  sound : (Account.layout since .empty).Sound layout state

/-- An action that does what a history tells, and leads to a state at a steady moment. -/
def Action.Ensues (since : Session) (past : History) (layout : Layout) (session : Session)
    (work : Action State) (log : History) : Prop :=
  Ends work session
    (fun state after => ∃ later, layout.Later later ∧ state.Steady since (past ++ log) later after)
    fun _ _ => History.Consistent (past ++ log)

/-- An action that looks for nothing, and whose state has the store that it was given and what it wrote. -/
structure Action.Writes (session : Session) (store : Store) (work : Action State) (log : History) : Prop where
  only : log.OnlyWrites
  replays : Ends work session (fun state _ => state.store = log.foldl Access.onto store) fun _ _ => True

section

variable {since session : Session} {past log : History} {layout : Layout} {store : Store}

/-- A good value is finished where nothing is unfinished. -/
theorem Layout.Fine.of_good {value : Value} (good : layout.Good value) : layout.Fine [] value :=
  ⟨good, fun _ _ _ _ => List.not_mem_nil⟩

/-- What is kept in order wherever a run is said to begin keeps what was resolved: no object is unfinished
here, so that it may as well begin now. -/
theorem Action.ensues_of_writes {work : Action State}
    (steady : Scratch.Steady since [] past layout ⟨session, store⟩)
    (leads : ∀ origin, Layout.Frames origin layout session →
      (Account.layout origin .empty).Leads layout session work)
    [Expands id work] (writes : Action.Writes session store work log) :
    Action.Ensues since past layout session work log := by
  have consistent := steady.consistent.append writes.only
  refine Ends.intro ?_ fun _ _ _ => consistent
  intro state after ended
  obtain ⟨later, passed, laid, sound⟩ := (leads since steady.laid).of_ok ended
  -- The same work once more, seen as the beginning of a run.
  obtain ⟨other, onward, anew, -⟩ := (leads session steady.laid.restart).of_ok ended
  have grown := Action.grows_of_ok ended
  have stored := Account.stores_of_sound sound
  refine ⟨later, passed, ?_, sound⟩
  exact {
    laid
    stored
    apart := fun address => .of_good (stored.good address)
    opened := fun frame member => absurd member List.not_mem_nil
    resolved := by
      intro object key address held member
      rcases List.mem_append.mp member with earlier | last
      · obtain ⟨fine, found⟩ := steady.resolved object key address held earlier
        have natives := steady.laid.native_of_chained fine.1.chained
        have handed := (steady.laid.handed_of_findSome natives found).2
        rw [← steady.laid.allocated] at handed
        refine ⟨fine.later passed, anew.resolves (.refl session) grown (fine.1.chained.later onward) ?_ handed
          found⟩
        intro frame inside
        rw [← steady.laid.size]
        exact (natives frame inside).lt
      · obtain ⟨written, value, impossible⟩ := writes.only _ last
        cases impossible
    replayed := by
      rw [writes.replays.of_ok ended, show store = past.replay from steady.replayed]
      unfold History.replay
      rw [List.foldl_append]
    consistent }

end

/-- Writing to an address changes the store as it is told. -/
theorem Action.ends_writing (store : Store) (address : Address) (value : Value) (session : Session) :
    Ends (Action.fromExcept (store.extend address value)) session
      (fun bound _ => bound = (History.writing address value).foldl Access.onto store) fun _ _ => True := by
  rw [ends_fromExcept]
  unfold History.writing
  by_cases null : address = 0
  · subst null
    trivial
  · rw [Store.extend_of_ne null, if_neg null]
    rfl

/-- Going on writes nothing. -/
theorem State.writes_resume (control : Control) (scope : Scope) (store : Store) (continuation : Continuation)
    (session : Session) :
    Action.Writes session store (State.resume control scope store continuation) [] := by
  refine ⟨History.onlyWrites_nil, ?_⟩
  cases control with
  | nowhere => trivial
  | done => rfl
  | visit node next => rfl

/-- Failing writes nothing. -/
theorem Action.writes_throw (fault : Fault) (store : Store) (session : Session) :
    Action.Writes session store (throw fault) [] := ⟨History.onlyWrites_nil, trivial⟩

namespace Continuation

variable (value : Value) (store : Store) (session : Session)

/-- The value of a call is bound by writes. -/
theorem onlyWrites_target (target : Target) (scope : Scope) :
    (target.history scope value session).OnlyWrites := by
  cases target with
  | slot name => exact History.onlyWrites_after fun address _ => History.onlyWrites_writing address value
  | location address => exact History.onlyWrites_writing address value
  | discard => exact History.onlyWrites_nil

/-- Binding the value of a call does what its history tells. -/
theorem ends_bindResult (target : Target) (scope : Scope) :
    Ends (bindResult target scope value store) session
      (fun bound _ => bound = (target.history scope value session).foldl Access.onto store)
      fun _ _ => True := by
  cases target with
  | slot name =>
      unfold bindResult Target.history
      rw [ends_bind]
      refine Ends.intro (fun address after declared => ?_) fun _ _ _ => trivial
      dsimp only
      rw [History.after_of_ok declared]
      exact Action.ends_writing store address value after
  | location address => exact Action.ends_writing store address value session
  | discard => rfl

/-- Returning writes the value of the call. -/
theorem writes_returned (continuation : Continuation) :
    Action.Writes session store (returned value store continuation)
      (returnedHistory value session continuation) := by
  induction continuation with
  | nil => exact Action.writes_throw _ store session
  | cons pending rest ih =>
      cases pending with
      | call target resume scope =>
          refine ⟨onlyWrites_target value session target scope, ?_⟩
          unfold returned returnedHistory
          rw [ends_bind]
          refine (ends_bindResult value store session target scope).weaken ?_ fun _ _ _ => trivial
          rintro bound after rfl
          exact (State.writes_resume resume scope _ rest after).replays
      | scope resume outer => exact ih
      | handler clause scope resume => exact ih

/-- Leaving a body writes undefined for its call. -/
theorem writes_leftScope (continuation : Continuation) :
    Action.Writes session store (leftScope store continuation) (leftScopeHistory session continuation) := by
  induction continuation with
  | nil => exact Action.writes_throw _ store session
  | cons pending rest ih =>
      cases pending with
      | call target resume scope => exact ih
      | scope resume outer =>
          cases resume with
          | nowhere => exact writes_returned .undefined store session rest
          | done => exact State.writes_resume .done outer store rest session
          | visit node next => exact State.writes_resume (.visit node next) outer store rest session
      | handler clause scope resume => exact ih

/-- Leaving a protected block writes nothing. -/
theorem writes_leftHandler (continuation : Continuation) :
    Action.Writes session store (leftHandler store continuation) [] := by
  induction continuation with
  | nil => exact Action.writes_throw _ store session
  | cons pending rest ih =>
      cases pending with
      | call target resume scope => exact ih
      | scope resume outer => exact ih
      | handler clause scope resume => exact State.writes_resume resume scope store rest session

/-- Catching writes what was thrown. -/
theorem writes_caught (clause : Node) (scope : Scope) (resume : Control) (rest : Continuation) :
    Action.Writes session store (caught clause scope resume value store rest)
      (caughtHistory clause scope value session) := by
  unfold caught caughtHistory
  cases clause.ownBody?.bind Node.emptyBody? with
  | none => exact Action.writes_throw _ store session
  | some empty =>
      cases empty with
      | true => exact State.writes_resume resume scope store rest session
      | false =>
          cases clause with
          | catchClause place param body =>
              refine ⟨History.onlyWrites_after fun inner _ => History.onlyWrites_after fun address _ =>
                History.onlyWrites_writing address value, ?_⟩
              dsimp only
              unfold enterClause
              rw [ends_bind]
              refine Ends.intro (fun inner pushed opened => ?_) fun _ _ _ => trivial
              rw [History.after_of_ok opened, ends_bind]
              refine Ends.intro (fun address declared declares => ?_) fun _ _ _ => trivial
              rw [History.after_of_ok declares, ends_bind]
              refine (Action.ends_writing store address value declared).weaken ?_ fun _ _ _ => trivial
              rintro bound after rfl
              split
              · exact (State.writes_resume _ inner _ _ after).replays
              · trivial
          | _ => exact Action.writes_throw _ store session

/-- Throwing writes where it is caught. -/
theorem writes_thrown (continuation : Continuation) :
    Action.Writes session store (thrown value store continuation)
      (thrownHistory value session continuation) := by
  induction continuation with
  | nil => exact ⟨History.onlyWrites_nil, rfl⟩
  | cons pending rest ih =>
      cases pending with
      | call target resume scope => exact ih
      | scope resume outer => exact ih
      | handler clause scope resume => exact writes_caught value store session clause scope resume rest

end Continuation

/-- A call that is ready, of a function that the run has come by. -/
def Layout.Ready (layout : Layout) : Request → Prop
  | .builtin routine _ => routine.isOwn = true
  | .closure called values => layout.Good (.function called) ∧ ∀ value ∈ values, layout.Good value

section

variable {since : Session} {scope : Scope} (inverted : Bool)

/-- Arguments tell what each of them tells. -/
theorem Node.tells_values (arguments : List Node) (steady : scratch.Steady since [] past layout)
    (visible : layout.Visible scope) :
    Draft.Tells since [] past layout scratch (Node.values inverted scope arguments)
      (Node.valuesHistory inverted scope arguments scratch)
      fun later values => ∀ value ∈ values, later.Good value := by
  induction arguments generalizing past layout scratch with
  | nil => exact Draft.tells_pure steady fun value member => absurd member List.not_mem_nil
  | cons argument rest ih =>
      refine Draft.Tells.bind (Node.tells_value inverted (argument.tells_evaluate inverted steady visible)) ?_
      intro value next later passed kept fine
      refine Draft.Tells.close (ih kept (visible.later passed)) ?_
      intro values final last further keeps goods
      exact Draft.tells_pure keeps (List.forall_mem_cons.mpr ⟨fine.1.later further, goods⟩)

/-- Arguments of built-in functions tell what each of them tells. -/
theorem Node.tells_plainValues (arguments : List Node) (steady : scratch.Steady since [] past layout)
    (visible : layout.Visible scope) :
    Draft.Tells since [] past layout scratch (Node.plainValues inverted scope arguments)
      (Node.plainHistory inverted scope arguments scratch) fun _ _ => True := by
  induction arguments generalizing past layout scratch with
  | nil => exact Draft.tells_pure steady trivial
  | cons argument rest ih =>
      refine Draft.Tells.bind (Node.tells_value inverted (argument.tells_evaluate inverted steady visible)) ?_
      intro value next later passed kept fine
      have onward : Draft.Tells since [] (past ++ argument.history inverted scope scratch) later next
          (do return value :: (← Node.plainValues inverted scope rest))
          (Node.plainHistory inverted scope rest next) fun _ _ => True := by
        refine Draft.Tells.close (ih kept (visible.later passed)) ?_
        intro values final last _ keeps _
        exact Draft.tells_pure keeps trivial
      cases value with
      | reference identity address => exact nomatch fine.1
      | _ => exact onward

variable {past : History} {layout : Layout} {scratch : Scratch}
  (steady : scratch.Steady since [] past layout) (visible : layout.Visible scope)
include steady visible

/-- The target of a call tells how it was found. -/
theorem Taker.tells_target (taker : Taker) :
    Draft.Tells since [] past layout scratch (taker.target inverted scope)
      (taker.history inverted scope scratch)
      fun later target => (Account.layout since .empty).Aims later scope target := by
  cases taker with
  | nobody => exact Draft.tells_pure steady trivial
  | operand left =>
      refine Draft.Tells.close (left.tells_evaluate inverted steady visible) ?_
      intro operand next later passed kept denotes
      cases operand with
      | location address => exact Draft.tells_pure kept denotes
      | value held =>
          cases held with
          | reference identity address => exact nomatch denotes.1
          | _ => exact Draft.tells_fail _ kept
  | slot name =>
      refine Draft.tells_pure steady ?_
      unfold Target.choose
      split
      · exact fun _ _ => visible
      · trivial

/-- A request tells of the callee and then of the arguments. -/
theorem Calling.tells_prepare (calling : Calling) :
    Draft.Tells since [] past layout scratch (calling.prepare inverted scope)
      (calling.callee.history inverted scope scratch ++
        .after (calling.callee.value inverted scope) scratch fun called middle =>
          match called with
          | .builtin .. => Node.plainHistory inverted scope calling.arguments middle
          | .function closure =>
              .after closure.mention middle fun _ noted =>
                Node.valuesHistory inverted scope calling.arguments noted
          | _ => [])
      Layout.Ready := by
  refine Draft.Tells.bind
    (Node.tells_value inverted (calling.callee.tells_evaluate inverted steady visible)) ?_
  intro called next later passed kept fine
  cases called with
  | builtin identity arity name routine =>
      refine Draft.Tells.close (Node.tells_plainValues inverted _ kept (visible.later passed)) ?_
      intro values final last _ keeps _
      exact Draft.tells_pure keeps fine.1.1
  | function closure =>
      refine Draft.Tells.follow (Draft.tells_note kept _ _) ?_
      intro _ noted after onward stays _
      have since := passed.trans onward
      refine Draft.Tells.close (Node.tells_values inverted _ stays (visible.later since)) ?_
      intro values final last further keeps goods
      exact Draft.tells_pure keeps ⟨fine.1.later (onward.trans further), goods⟩
  | _ =>
      refine Draft.Tells.close (Draft.tells_note kept _ _) ?_
      intro _ noted after _ stays _
      exact Draft.tells_fail _ stays

/-- A request tells of its target before its callee. -/
theorem Calling.tells_request (calling : Calling) :
    Draft.Tells since [] past layout scratch (calling.request inverted scope)
      (calling.history inverted scope scratch)
      fun later result => (Account.layout since .empty).Aims later scope result.1 ∧ later.Ready result.2 := by
  refine Draft.Tells.bind (calling.taker.tells_target inverted steady visible) ?_
  intro target next later passed kept aims
  refine Draft.Tells.close (calling.tells_prepare inverted kept (visible.later passed)) ?_
  intro request final last further keeps ready
  exact Draft.tells_pure keeps ⟨(Regime.layout since .empty).aims_later further aims, ready⟩

end

/-- A draft that does what a history tells, and leads to a state at a steady moment. -/
def Draft.Ensues (since : Session) (past : History) (layout : Layout) (scratch : Scratch)
    (work : Draft State) (log : History) : Prop :=
  Draft.Recounts past layout scratch work log fun told later final state =>
    state.Steady since told later final.session

variable {since : Session} {past : History} {layout : Layout} {scratch : Scratch}

/-- An action inside a draft tells the same. -/
theorem Draft.ensues_lift {log : History} {work : Action State}
    (ensues : Action.Ensues since past layout scratch.session work log) :
    Draft.Ensues since past layout scratch (liftM work) log := by
  unfold Draft.Ensues Draft.Recounts
  rw [ends_liftAction]
  exact ensues

section

variable {since session : Session} {past : History} {layout : Layout} {store : Store}
  {continuation : Continuation} (steady : Scratch.Steady since [] past layout ⟨session, store⟩)
  (pends : (Account.layout since .empty).Pends layout continuation)
include steady pends

/-- Going on has nothing to tell. -/
theorem State.ensues_resume (control : Control) {scope : Scope} (visible : layout.Visible scope) :
    Action.Ensues since past layout session (State.resume control scope store continuation) [] :=
  Action.ensues_of_writes steady
    (fun origin laid => (Regime.layout origin .empty).leads_resume laid steady.stored visible pends)
    (State.writes_resume control scope store continuation session)

namespace Continuation

variable {value : Value}

/-- Returning tells what it writes. -/
theorem ensues_returned (good : layout.Good value) :
    Action.Ensues since past layout session (returned value store continuation)
      (returnedHistory value session continuation) :=
  Action.ensues_of_writes steady
    (fun origin laid => (Regime.layout origin .empty).leads_returned laid steady.stored good pends)
    (writes_returned value store session continuation)

/-- Leaving a scope tells what it writes. -/
theorem ensues_leftScope :
    Action.Ensues since past layout session (leftScope store continuation)
      (leftScopeHistory session continuation) :=
  Action.ensues_of_writes steady
    (fun origin laid => (Regime.layout origin .empty).leads_leftScope laid steady.stored pends)
    (writes_leftScope store session continuation)

/-- Leaving a protected block has nothing to tell. -/
theorem ensues_leftHandler :
    Action.Ensues since past layout session (leftHandler store continuation) [] :=
  Action.ensues_of_writes steady
    (fun origin laid => (Regime.layout origin .empty).leads_leftHandler laid steady.stored pends)
    (writes_leftHandler store session continuation)

/-- Throwing tells what it writes. -/
theorem ensues_thrown (good : layout.Good value) :
    Action.Ensues since past layout session (thrown value store continuation)
      (thrownHistory value session continuation) :=
  Action.ensues_of_writes steady
    (fun origin laid => (Regime.layout origin .empty).leads_thrown laid steady.stored good pends)
    (writes_thrown value store session continuation)

end Continuation

end

variable {scope : Scope}

/-- Binding parameters tells one write for each. -/
theorem tells_bindParams (params : List Ident) {values : List Value}
    (steady : scratch.Steady since [] past layout) (visible : layout.Visible scope)
    (goods : ∀ value ∈ values, layout.Good value) :
    Draft.Tells since [] past layout scratch (bindParams scope params values)
      (paramsHistory scope params values scratch) fun _ _ => True := by
  induction params generalizing values past layout scratch with
  | nil => exact Draft.tells_pure steady trivial
  | cons param params ih =>
      have head : layout.Good (values.headD .undefined) := by
        cases values with
        | nil => exact Layout.good_of_isPlain rfl
        | cons first rest => exact goods first List.mem_cons_self
      have split : bindParams scope (param :: params) values =
          Globals.define scope param.name (values.headD .undefined) >>= fun _ =>
            bindParams scope params values.tail := by
        rw [bindParams]
        exact (bind_assoc ..).symm
      rw [split]
      refine Draft.Tells.bind (Draft.tells_bind steady visible param.name (.of_good head)) ?_
      intro _ next later passed kept _
      refine ih kept (visible.later passed) ?_
      intro value member
      exact (goods value (List.mem_of_mem_tail member)).later passed

/-- Entering a function adds a frame for names, so that what was resolved is resolved. -/
theorem Draft.tells_enter (steady : scratch.Steady since [] past layout) {outer : List Nat}
    (visible : ∀ frame ∈ outer, layout.roles[frame]? = some .scope) :
    Draft.Tells since [] past layout scratch (liftM (Scope.enter Session.machineAllocator outer)) []
      fun later inner => later.Visible inner := by
  refine Draft.tells_action steady ?_
  rw [ends_enter]
  obtain ⟨later, passed, laid, -, inner⟩ := @Layout.reaches_addFrame since scratch.session .empty layout
    Session.machineAllocator outer steady.laid rfl visible
  exact ⟨later, passed, laid, steady.laid.persists_addFrame _, inner⟩

section

variable {since : Session} {past : History} {layout : Layout} {scratch : Scratch} {site : CallSite}
  (steady : scratch.Steady since [] past layout)
  (pends : (Account.layout since .empty).Pends layout site.pending)
include steady pends

/-- Entering a function binds its parameters, and goes on in its body. -/
theorem Closure.ensues_enter {closure : Closure} {values : List Value}
    (good : layout.Good (.function closure)) (goods : ∀ value ∈ values, layout.Good value) :
    Draft.Ensues since past layout scratch (closure.enter values site)
      (closure.history values site scratch) := by
  refine Draft.Tells.recounts_of_silent (Draft.tells_enter steady good.2) ?_
  intro scope entered later passed kept visible
  refine Draft.Tells.recounts (tells_bindParams _ kept visible
    fun value member => (goods value member).later passed) ?_
  intro _ bound last further keeps _
  have waiting := (Regime.layout since .empty).pends_later (passed.trans further) pends
  cases closure.code.body.emptyBody? with
  | none => exact Draft.recounts_fail _ keeps.consistent
  | some empty =>
      cases empty with
      | true =>
          exact Draft.ensues_lift
            (Continuation.ensues_returned keeps waiting (Layout.good_of_isPlain rfl))
      | false =>
          exact Draft.ensues_lift (State.ensues_resume keeps waiting
            (.visit closure.code.body .nowhere) (visible.later further))

/-- A built-in function writes to the outside only, and its answer is returned. -/
theorem Request.ensues_answer {request : Request} (ready : layout.Ready request) :
    Draft.Ensues since past layout scratch (request.answer site) (request.history site scratch) := by
  cases request with
  | closure called values => exact Closure.ensues_enter steady pends ready.1 ready.2
  | builtin routine values =>
      have called : Draft.Tells since [] past layout scratch (liftM (routine.call values)) []
          fun later answer => later.Good answer := by
        refine Draft.tells_action steady ?_
        cases routine with
        | print | describe =>
            simp only [Routine.call, ends_bind, ends_print, ends_pure]
            exact ⟨layout, .refl layout, steady.laid.report _ _, Layout.persists_of_frames rfl,
              Layout.good_of_isPlain rfl⟩
        | ownPropertyTest => trivial
        | answer value => cases ready
        | answerData data => cases ready
      have told : Draft.Ensues since past layout scratch (Request.answer (.builtin routine values) site)
          (.after (liftM (routine.call values) : Draft Value) scratch fun answer answered =>
            Continuation.returnedHistory answer answered.session site.pending) := by
        refine called.recounts_of_silent ?_
        intro answer answered later passed kept good
        exact Draft.ensues_lift (Continuation.ensues_returned kept
          ((Regime.layout since .empty).pends_later passed pends) good)
      rwa [History.after_liftM] at told

end

section

variable {since session : Session} {past log : History} {layout : Layout} {store : Store} {A : Type}
  {middle : Layout → A → Prop} {draft : Draft A} {onward : A × Store → Action State}
  (tells : Draft.Tells since [] past layout ⟨session, store⟩ draft log middle)
include tells

/-- A step that evaluates does what the evaluation does, and then what it goes on with. -/
theorem Action.ensues_run {further : A → Scratch → History}
    (goesOn : ∀ value next later, layout.Later later → next.Steady since [] (past ++ log) later →
      middle later value →
      Action.Ensues since (past ++ log) later next.session (onward (value, next.store))
        (further value next)) :
    Action.Ensues since past layout session (draft.run store >>= onward)
      (log ++ .after draft ⟨session, store⟩ further) := by
  unfold Action.Ensues
  rw [ends_bind, ends_run]
  refine Ends.intro (fun value next ended => ?_) fun fault next ended => ?_
  · obtain ⟨later, passed, kept, holds⟩ := Ends.of_ok tells ended
    rw [History.after_of_ok ended, ← List.append_assoc]
    refine Ends.weaken (goesOn value next later passed kept holds) ?_ fun _ _ consistent => consistent
    rintro state after ⟨last, onwards, steady⟩
    exact ⟨last, passed.trans onwards, steady⟩
  · rw [History.after_of_error ended, List.append_nil]
    exact Ends.of_error tells ended

/-- A step that only evaluates does what the evaluation does. -/
theorem Action.ensues_run_of_silent
    (goesOn : ∀ value (next : Scratch) later, layout.Later later →
      next.Steady since [] (past ++ log) later → middle later value →
      Action.Ensues since (past ++ log) later next.session (onward (value, next.store)) []) :
    Action.Ensues since past layout session (draft.run store >>= onward) log := by
  have both : Action.Ensues since past layout session (draft.run store >>= onward)
      (log ++ .after draft ⟨session, store⟩ fun _ _ => []) := Action.ensues_run tells goesOn
  rwa [History.after_silent, List.append_nil] at both

end

/-- A declaration that reads a member of the object that a variable holds. -/
def Sample.reading (declared holder key : String) : Tree :=
  declare declared (node "MemberExpression" [("object", name holder), ("property", name key)])

/-- A property is read before it is written and afterwards, and another one is read from the prototype. -/
def Sample.refill : Tree := program
  [declare "o" (object []), reading "a" "o" "k", assign "o" "k" (literal "v"), reading "b" "o" "k",
    reading "c" "o" "toString"]

def Access.resolution? : Access → Option (Object × String × Address)
  | .resolved object key address _ => some (object, key, address)
  | .wrote .. => none

/-- The keys that a history resolves, in their order. -/
def History.Resolves (history : History) (resolutions : List (Object × String × Address)) : Prop :=
  history.filterMap Access.resolution? = resolutions

instance (history : History) (resolutions : List (Object × String × Address)) :
    Decidable (history.Resolves resolutions) :=
  inferInstanceAs (Decidable (_ = _))

/-- A member expression asks an object for a key once its parts have been evaluated. -/
def Node.Asks (inverted : Bool) (scope : Scope) (holder selector : Node) (start : Scratch) (object : Object)
    (key : String) : Prop :=
  ∃ middle selected ready, holder.value inverted scope start = .ok (.object object) middle ∧
    selector.value inverted scope middle = .ok selected ready ∧
    selected.toPrimitive.bind Value.toText = .ok key

/-- Selecting a property goes by the text of the selector. -/
theorem Object.ends_select (object : Object) (selector : Value) (start : Scratch) :
    Ends (object.select selector) start
      (fun operand final => ∃ key, selector.toPrimitive.bind Value.toText = .ok key ∧
        operand = .location (start.session.located object key).1 ∧ final.store = start.store)
      fun _ _ => True := by
  unfold Object.select
  simp only [ends_bind, ends_liftExcept, ends_liftAction, ends_locate, Name.key_ofText, ends_pure]
  cases selector.toPrimitive with
  | error fault => trivial
  | ok primitive =>
      simp only [Except.bind]
      cases primitive.toText with
      | error fault => trivial
      | ok key => exact ⟨key, rfl, rfl, trivial⟩

/-- What a member expression does last is to look for a key, and it denotes the address that it finds. -/
theorem Node.exists_asks_of_member {inverted : Bool} {place : Place} {holder selector : Node}
    {computed : Bool} {start last : Scratch} {operand : Operand}
    (evaluated : (Node.member place holder selector computed).evaluate inverted scope start =
      .ok operand last) :
    ∃ (before : History) (object : Object) (key : String) (address : Address),
      Node.Asks inverted scope holder selector start object key ∧
      (Node.member place holder selector computed).history inverted scope start =
        before ++ [.resolved object key address (last.store.get address)] ∧
      operand = .location address := by
  rw [Node.evaluate_member] at evaluated
  obtain ⟨held, middle, holds, onward⟩ := exists_of_bind evaluated
  rw [Node.history, History.after_of_ok holds]
  cases held with
  | object found =>
      obtain ⟨selected, ready, selects, finds⟩ := exists_of_bind onward
      obtain ⟨key, named, denotes, unchanged⟩ := (found.ends_select selected ready).of_ok finds
      dsimp only
      rw [History.after_of_ok selects, ← List.append_assoc]
      refine ⟨holder.history inverted scope start ++ selector.history inverted scope middle, found, key, _,
        ⟨middle, selected, ready, holds, selects, named⟩, ?_, denotes⟩
      unfold Object.history
      rw [named, unchanged]
  | _ => cases onward

namespace Machine

variable (machine : Machine) {since session : Session} {past : History} {layout : Layout} {scope : Scope}
  {state : State}

/-- An initial value tells what its expression tells. -/
theorem tells_initialValue (steady : scratch.Steady since [] past layout) (visible : layout.Visible scope)
    (init : Node) :
    Draft.Tells since [] past layout scratch (machine.initialValue scope init)
      (init.history machine.invertedTruth scope scratch) fun later value => later.Fine [] value := by
  unfold initialValue
  cases init with
  | absent =>
      rw [Node.history]
      · exact Draft.tells_pure steady (.of_isPlain rfl)
      all_goals simp
  | _ => exact Node.tells_value _ (Node.tells_evaluate _ _ steady visible)

/-- Declarators tell of their values and their writes in turn. -/
theorem tells_declareAll (keyword : Tree) (declarators : List Node)
    (steady : scratch.Steady since [] past layout) (visible : layout.Visible scope) :
    Draft.Tells since [] past layout scratch (machine.declareAll scope keyword declarators)
      (machine.declaratorsHistory scope keyword declarators scratch) fun _ _ => True := by
  induction declarators generalizing past layout scratch with
  | nil => exact Draft.tells_pure steady trivial
  | cons declarator rest ih =>
      cases declarator with
      | declarator place target init =>
          rw [declareAll_cons, declaratorsHistory]
          refine Draft.Tells.bind (machine.tells_initialValue steady visible init) ?_
          intro value next later passed kept fine
          refine Draft.Tells.follow (Draft.tells_note kept _ _) ?_
          intro _ noted after onward stays _
          have since := passed.trans onward
          rw [← bind_assoc]
          refine Draft.Tells.bind
            (Draft.tells_bind stays (visible.later since) target.name (fine.later onward)) ?_
          intro _ final last further keeps _
          exact ih keeps (visible.later (since.trans further))
      | _ => exact Draft.tells_fail _ steady

section

variable (node : Node) (next : Control) (scope : Scope) (store : Store) (continuation : Continuation)
  (session : Session)

/-- Opening a scope writes nothing. -/
theorem writes_open (control : Control) :
    Action.Writes session store (do State.resume control (← scope.push) store continuation) [] := by
  refine ⟨History.onlyWrites_nil, ?_⟩
  rw [ends_bind, ends_push]
  exact (State.writes_resume control _ store continuation _).replays

/-- A function that is declared is written to the address of its name. -/
theorem writes_functionDeclaration (declared : Name) (code : Code) :
    Action.Writes session store (do
      let address ← scope.declare declared
      let value ← code.close scope
      State.resume next scope (← Action.fromExcept (store.extend address value)) continuation)
      (.after (scope.declare declared) session fun address bound =>
        .after (code.close scope) bound fun value _ => .writing address value) := by
  refine ⟨History.onlyWrites_after fun address _ => History.onlyWrites_after fun value _ =>
    History.onlyWrites_writing address value, ?_⟩
  rw [ends_bind]
  refine Ends.intro (fun address bound declares => ?_) fun _ _ _ => trivial
  rw [History.after_of_ok declares, ends_bind]
  refine Ends.intro (fun value closed closes => ?_) fun _ _ _ => trivial
  rw [History.after_of_ok closes, ends_bind]
  refine (Action.ends_writing store address value closed).weaken ?_ fun _ _ _ => trivial
  rintro written after rfl
  exact (State.writes_resume next scope _ continuation after).replays

end

section

variable {since session : Session} {past log : History} {layout : Layout} {store : Store}
  {node : Node} {next : Control} {scope : Scope} {continuation : Continuation}
  (steady : Scratch.Steady since [] past layout ⟨session, store⟩) (visible : layout.Visible scope)
  (pends : (Account.layout since .empty).Pends layout continuation)
include steady visible pends

/-- A step that looks for nothing. -/
theorem ensues_stepActive_of_writes
    (writes : Action.Writes session store (machine.stepActive node next scope store continuation) log) :
    Action.Ensues since past layout session (machine.stepActive node next scope store continuation) log :=
  Action.ensues_of_writes steady
    (fun origin laid =>
      (Regime.layout origin .empty).leads_stepActive machine laid steady.stored visible pends)
    writes

/-- A statement that calls does what it does before the call, and then what the call does. -/
theorem ensues_calling {calling : Calling} (calls : node.calling? = some calling) :
    Action.Ensues since past layout session (machine.stepActive node next scope store continuation)
      (machine.activeHistory node next scope store continuation session) := by
  have told : Draft.Ensues since past layout ⟨session, store⟩
      (calling.request machine.invertedTruth scope >>= fun asked =>
        asked.2.answer ⟨asked.1, next, scope, continuation⟩)
      (calling.history machine.invertedTruth scope ⟨session, store⟩ ++
        .after (calling.request machine.invertedTruth scope) ⟨session, store⟩ fun asked ready =>
          asked.2.history ⟨asked.1, next, scope, continuation⟩ ready) := by
    refine Draft.Tells.recounts (calling.tells_request machine.invertedTruth steady visible) ?_
    rintro ⟨target, request⟩ ready later passed kept ⟨aims, inOrder⟩
    have waiting : (Account.layout since .empty).Pends later
        (CallSite.pending ⟨target, next, scope, continuation⟩) :=
      (Regime.layout since .empty).pends_cons ⟨aims, visible.later passed⟩
        ((Regime.layout since .empty).pends_later passed pends)
    exact Request.ensues_answer kept waiting inOrder
  unfold activeHistory
  rw [calls]
  unfold Action.Ensues Ends
  rw [machine.stepActive_eq_answer calls]
  unfold Draft.Ensues Draft.Recounts Ends at told
  unfold Draft.outcome
  split at told
  · rename_i ended
    rw [ended]
    exact told
  · rename_i ended
    rw [ended]
    exact told

omit steady in
/-- A statement that enters no call goes on with what its evaluation came to. -/
theorem ensues_proceed {draft : Draft Effect}
    (tells : Draft.Tells since [] past layout ⟨session, store⟩ draft log
      fun _ effect => ∃ operand, effect = .operand operand) :
    Action.Ensues since past layout session (proceed draft next scope store continuation) log := by
  refine Action.ensues_run_of_silent tells ?_
  rintro _ arrived later passed kept ⟨operand, rfl⟩
  exact State.ensues_resume kept ((Regime.layout since .empty).pends_later passed pends) next
    (visible.later passed)

omit steady in
/-- A statement that evaluates in its place does what the evaluation does. -/
theorem ensues_operand {A : Type} {work : Draft A} {operand : A → Operand} {middle : Layout → A → Prop}
    (tells : Draft.Tells since [] past layout ⟨session, store⟩ work log middle) :
    Action.Ensues since past layout session
      (proceed (do return .operand (operand (← work))) next scope store continuation) log := by
  refine ensues_proceed visible pends (tells.close ?_)
  intro result final later _ kept _
  exact Draft.tells_pure kept ⟨operand result, rfl⟩

/-- A choice or a loop does what its test does, whichever way it goes on. -/
theorem ensues_tested {test : Node} (tests : node.test? = some test) :
    Action.Ensues since past layout session (machine.stepActive node next scope store continuation)
      (test.history machine.invertedTruth scope ⟨session, store⟩) := by
  rw [machine.stepActive_of_test _ _ _ _ tests]
  refine Action.ensues_run_of_silent (Node.tells_truth _ (test.tells_evaluate _ steady visible)) ?_
  intro truth arrived later passed kept _
  exact State.ensues_resume kept ((Regime.layout since .empty).pends_later passed pends) _
    (visible.later passed)

/-- A step does what its history tells. -/
theorem ensues_stepActive :
    Action.Ensues since past layout session (machine.stepActive node next scope store continuation)
      (machine.activeHistory node next scope store continuation session) := by
  let regime := Regime.layout since .empty
  cases calls : node.calling? with
  | some calling => exact machine.ensues_calling steady visible pends calls
  | none =>
      unfold activeHistory
      rw [calls]
      dsimp only
      cases node with
      | scopeExit id => exact Continuation.ensues_leftScope steady pends
      | handlerExit id => exact Continuation.ensues_leftHandler steady pends
      | program place body | emptyStatement place =>
          exact machine.ensues_stepActive_of_writes steady visible pends
            (State.writes_resume _ scope store continuation session)
      | block place body exit =>
          refine machine.ensues_stepActive_of_writes steady visible pends ?_
          unfold stepActive
          dsimp only
          split
          · exact State.writes_resume next scope store continuation session
          · exact writes_open scope store _ session _
      | functionDeclaration place name params body =>
          refine machine.ensues_stepActive_of_writes steady visible pends ?_
          unfold stepActive
          dsimp only
          cases Node.declaredName? _ with
          | none => exact Action.writes_throw _ store session
          | some declared =>
              exact writes_functionDeclaration next scope store continuation session declared _
      | declaration place declarators keyword =>
          unfold stepActive declaration declarationHistory
          dsimp only
          split
          · cases calls
          · exact ensues_proceed visible pends (Draft.tells_fail _ steady)
          · exact ensues_proceed visible pends (Draft.tells_fail _ steady)
          · rename_i alone among none
            split
            · exact absurd rfl (among _ _ _ _ _ _)
            exact ensues_operand visible pends
              (machine.tells_declareAll keyword declarators steady visible)
      | expressionStatement place expression =>
          unfold stepActive
          dsimp only
          rw [Node.evaluateStatement]
          · exact ensues_operand visible pends
              (expression.tells_evaluate machine.invertedTruth steady visible)
          · rintro callPlace callee arguments rfl
            cases calls
          · rintro inner left callPlace callee arguments rfl
            cases calls
      | ifStatement | whileStatement => exact machine.ensues_tested steady visible pends rfl
      | returnStatement place argument =>
          have evaluated : Action.Ensues since past layout session
              ((argument.value machine.invertedTruth scope).run store >>= fun result =>
                Continuation.returned result.1 result.2 continuation)
              (argument.history machine.invertedTruth scope ⟨session, store⟩ ++
                .after (argument.value machine.invertedTruth scope) ⟨session, store⟩ fun value final =>
                  Continuation.returnedHistory value final.session continuation) := by
            refine Action.ensues_run (Node.tells_value _ (argument.tells_evaluate _ steady visible)) ?_
            intro value final later passed kept fine
            exact Continuation.ensues_returned kept (regime.pends_later passed pends) fine.1
          cases argument with
          | absent => exact Continuation.ensues_returned steady pends (Layout.good_of_isPlain rfl)
          | _ => exact evaluated
      | throwStatement place argument =>
          refine Action.ensues_run (Node.tells_value _ (argument.tells_evaluate _ steady visible)) ?_
          intro value final later passed kept fine
          exact Continuation.ensues_thrown kept (regime.pends_later passed pends) fine.1
      | tryStatement place guarded handler others exit =>
          refine machine.ensues_stepActive_of_writes steady visible pends ?_
          unfold stepActive
          dsimp only
          split
          · exact Action.writes_throw _ store session
          · exact State.writes_resume next scope store continuation session
          · exact writes_open scope store _ session _
      | _ =>
          exact machine.ensues_stepActive_of_writes steady visible pends
            (Action.writes_throw _ store session)

end

/-- Announcing a step changes the journal at most. -/
theorem steady_announce (state : State) {store : Store}
    (steady : Scratch.Steady since [] past layout ⟨session, store⟩) :
    Ends (machine.announce state) session
      (fun _ after => Scratch.Steady since [] past layout ⟨after, store⟩) fun _ _ => True := by
  rw [announce_eq]
  split
  · rw [ends_bind, ends_fromExcept]
    cases state.excerpt machine.source with
    | error fault => trivial
    | ok shown =>
        dsimp only
        rw [ends_note]
        split
        · exact steady.pass (.refl layout) (steady.laid.report _ _) (Layout.persists_of_frames rfl)
        · exact steady
  · exact steady

/-- A step from a steady state leads to a steady state. -/
theorem ensues_step (steady : state.Steady since past layout session) :
    Action.Ensues since past layout session (machine.step state) (machine.stepHistory state session) := by
  have failed : History.Consistent (past ++ []) := by
    rw [List.append_nil]
    exact steady.moment.consistent
  unfold Action.Ensues step stepHistory
  rw [ends_bind]
  refine Ends.intro (fun _ announced ended => ?_) fun _ _ ended => ?_
  · rw [History.after_of_ok ended]
    have kept := (machine.steady_announce state steady.moment).of_ok ended
    cases state with
    | active node next scope store continuation =>
        obtain ⟨-, visible, pends⟩ := steady.sound
        exact machine.ensues_stepActive kept visible pends
    | halted scope store continuation => exact failed
    | uncaught value store => exact failed
  · rw [History.after_of_error ended]
    exact failed

/-- A run does what its history tells, step after step. -/
theorem ends_advance_of_steady (steps count : Nat) (steady : state.Steady since past layout session) :
    Ends (machine.advance steps ⟨count, state⟩) session
      (fun progress final => ∃ later, layout.Later later ∧
        progress.state.Steady since (past ++ machine.history steps state session) later final)
      fun _ _ => History.Consistent (past ++ machine.history steps state session) := by
  induction steps generalizing count session past layout state with
  | zero =>
      rw [history, List.append_nil]
      exact ⟨layout, .refl layout, steady⟩
  | succ steps ih =>
      rw [advance, history]
      by_cases done : state.isDone = true
      · rw [if_pos done, if_pos done, List.append_nil]
        exact ⟨layout, .refl layout, steady⟩
      · rw [if_neg done, if_neg done, ends_bind]
        refine Ends.intro (fun next final stepped => ?_) fun _ _ stepped => ?_
        · obtain ⟨later, passed, kept⟩ := (machine.ensues_step steady).of_ok stepped
          rw [History.after_of_ok stepped, ← List.append_assoc]
          refine (ih (count + 1) kept).weaken ?_ fun _ _ consistent => consistent
          rintro progress last ⟨further, onward, keeps⟩
          exact ⟨further, passed.trans onward, keeps⟩
        · rw [History.after_of_error stepped, List.append_nil]
          exact (machine.ensues_step steady).of_error stepped

/-- A run starts in a steady state. -/
theorem steady_begun (program : Node) {base : Session}
    (allocates : Session.machineAllocator < base.allocators.size) :
    State.Steady (begun base) (Globals.history base) (Layout.initial base) (begun base)
      (.active program .done (globalScope base) (Globals.store base) []) := by
  have stored : Layout.Stores .empty (Layout.initial base) (Globals.store base) := Layout.stores_begun
  have writes : (Globals.history base).OnlyWrites := by simp [Globals.history, History.OnlyWrites]
  refine ⟨?_, stored, Layout.visible_begun, fun _ member => absurd member List.not_mem_nil⟩
  exact {
    laid := Layout.frames_begun allocates
    stored
    apart := fun address => .of_good (stored.good address)
    opened := fun frame member => absurd member List.not_mem_nil
    resolved := by
      intro object key address held member
      obtain ⟨written, value, impossible⟩ := writes _ member
      cases impossible
    replayed := (Globals.replay_history base).symm
    consistent := History.consistent_nil.append writes }

/-- A key of an object stands for one address throughout a run, and what is read there is what was written
there last. This holds of all that a run did, and of every member that is asked for where it has come to. -/
theorem members_stable {program : Node} {base after : Session} {state : State}
    (started : initialState program base = .ok state after) (steps : Nat) :
    let history := Globals.history base ++ machine.history steps state after
    (∀ (before rest : History) object key address held,
      history = before ++ .resolved object key address held :: rest →
        held = before.valueAt address ∧
          ∀ again found, .resolved object key again found ∈ rest → again = address) ∧
      ∀ progress final, machine.advance steps ⟨1, state⟩ after = .ok progress final →
        (∀ address, progress.state.store.get address = history.valueAt address) ∧
          (∀ object key address held, .resolved object key address held ∈ history →
            final.located object key = (address, final)) ∧
          ∀ inverted scope place holder selector computed operand last, progress.state.Uses scope →
            (Node.member place holder selector computed).evaluate inverted scope
              ⟨final, progress.state.store⟩ = .ok operand last →
            ∃ (before : History) (object : Object) (key : String) (address : Address),
              Node.Asks inverted scope holder selector ⟨final, progress.state.store⟩ object key ∧
              (Node.member place holder selector computed).history inverted scope
                ⟨final, progress.state.store⟩ =
                  before ++ [.resolved object key address (last.store.get address)] ∧
              operand = .location address ∧
              last.store.get address = History.valueAt (history ++ before) address ∧
              ∀ earlier held, .resolved object key earlier held ∈ history ++ before → earlier = address := by
  intro history
  obtain ⟨allocates, rfl, rfl⟩ := initialState_eq started
  have ran := machine.ends_advance_of_steady steps 1 (steady_begun program allocates)
  have consistent : history.Consistent := by
    unfold Ends at ran
    split at ran
    · obtain ⟨_, _, steady⟩ := ran
      exact steady.moment.consistent
    · exact ran
  refine ⟨fun before rest object key address held told => ?_, fun progress final ended => ?_⟩
  · refine ⟨(consistent before object key address held rest told).2, fun again found later => ?_⟩
    rw [told] at consistent
    exact consistent.again later
  · obtain ⟨layout, -, steady⟩ := ran.of_ok ended
    refine ⟨fun address => ?_, fun object key address held told => ?_, ?_⟩
    · rw [show progress.state.store = history.replay from steady.moment.replayed, History.get_replay]
    · unfold Session.located Session.locate
      rw [(steady.moment.resolved object key address held told).2]
    · intro inverted scope place holder selector computed operand last uses evaluated
      have visible := Layout.visible_of_uses steady.sound uses
      obtain ⟨_, _, kept, _⟩ := Ends.of_ok (Node.tells_evaluate inverted _ steady.moment visible) evaluated
      obtain ⟨before, object, key, address, asks, told, denotes⟩ := Node.exists_asks_of_member evaluated
      have asked := kept.consistent
      rw [told, ← List.append_assoc] at asked
      obtain ⟨stable, holds⟩ := asked _ _ _ _ _ _ rfl
      exact ⟨before, object, key, address, asks, told, denotes, holds, stable⟩

/-- A key that an object does not have is given an address when it is read. It stands for that address when
it is written and when it is read again, and what is read then is what was written. -/
theorem members_stable_of_refill :
    ∃ program counted state after progress final, Sample.refill.read 0 = .ok program counted ∧
      initialState program (Session.start false) = .ok state after ∧
      History.Resolves (Globals.history (Session.start false) ++ history ⟨.default, none⟩ 6 state after)
        [(⟨3, ⟨2, [1]⟩⟩, "k", 7), (⟨3, ⟨2, [1]⟩⟩, "k", 7), (⟨3, ⟨2, [1]⟩⟩, "k", 7),
          (⟨3, ⟨2, [1]⟩⟩, "toString", 5)] ∧
      advance ⟨.default, none⟩ 6 ⟨1, state⟩ after = .ok progress final ∧
      (progress.state.store.get 9).display? = some "v" ∧
      (∀ address, progress.state.store.get address = History.valueAt
        (Globals.history (Session.start false) ++ history ⟨.default, none⟩ 6 state after) address) ∧
      ∀ object key address held, .resolved object key address held ∈
        Globals.history (Session.start false) ++ history ⟨.default, none⟩ 6 state after →
        final.located object key = (address, final) := by
  obtain ⟨program, counted, reads, starts⟩ : ∃ program counted,
      Sample.refill.read 0 = .ok program counted ∧
        Ends (initialState program) (Session.start false) (fun state after =>
          History.Resolves (Globals.history (Session.start false) ++ history ⟨.default, none⟩ 6 state after)
            [(⟨3, ⟨2, [1]⟩⟩, "k", 7), (⟨3, ⟨2, [1]⟩⟩, "k", 7), (⟨3, ⟨2, [1]⟩⟩, "k", 7),
              (⟨3, ⟨2, [1]⟩⟩, "toString", 5)] ∧
          Ends (advance ⟨.default, none⟩ 6 ⟨1, state⟩) after
            (fun progress _ => (progress.state.store.get 9).display? = some "v") fun _ _ => False)
          fun _ _ => False := Ends.exists_ok (by decide +kernel)
  obtain ⟨state, after, started, resolves, ends⟩ := starts.exists_ok
  obtain ⟨progress, final, ran, read⟩ := ends.exists_ok
  obtain ⟨stored, located, -⟩ := (members_stable ⟨.default, none⟩ started 6).2 progress final ran
  exact ⟨program, counted, state, after, progress, final, reads, started, resolves, ran, read, stored,
    located⟩

end Machine

end ScriptMachine
