/-
This file lets two runs take steps side by side, where the names in the second run may have changed. Main
statement: states that belong together step to states that belong together.
-/

import Mathlib.Data.List.Forall2
import ScriptMachine.Proofs.Correspondence

namespace ScriptMachine

/-- What a statement needs before any name is declared by it. -/
def Node.declaratorNeeds : List Node → List Need
  | [] => []
  | .declarator _ target init :: rest =>
      init.needs ++ (Node.declaratorNeeds rest).filter fun need =>
        match need with
        | .name name => name.key.toOption != target.name.key.toOption
        | .create | .select => true
  | _ :: _ => []

/-- What the step of a statement needs. -/
def Node.stepNeeds : Node → List Need
  | .declaration _ declarators _ => Node.declaratorNeeds declarators
  | .expressionStatement _ expression => expression.needs
  | .ifStatement _ test _ _ | .whileStatement _ test _ => test.needs
  | .returnStatement _ argument | .throwStatement _ argument => argument.needs
  | _ => []

/-- What a call hands to print. -/
def Node.handedBy (inverted : Bool) (scope : Scope) (callee : Node) (arguments : List Node) :
    Draft (List Value) := do
  match ← callee.value inverted scope with
  | .builtin _ _ _ .print => Node.plainValues inverted scope arguments
  | _ => return []

/-- What an expression that stands as a statement hands to print. -/
def Node.handedIn (inverted : Bool) (scope : Scope) : Node → Draft (List Value)
  | .call _ callee arguments => Node.handedBy inverted scope callee arguments
  | .assignment _ .assign left (.call _ callee arguments) => do
      match (← left.evaluate inverted scope).address? with
      | none => return []
      | some _ => Node.handedBy inverted scope callee arguments
  | _ => return []

/-- What a statement hands to print. -/
def Node.handed (inverted : Bool) (scope : Scope) : Node → Draft (List Value)
  | .expressionStatement _ expression => expression.handedIn inverted scope
  | .declaration _ [.declarator _ _ (.call _ callee arguments)] _ =>
      Node.handedBy inverted scope callee arguments
  | _ => return []

/-- Functions are held back: none is handed to print. -/
def Draft.Withholds (handed : Draft (List Value)) (start : Scratch) : Prop :=
  Ends handed start (fun values _ => ∀ value ∈ values, value.isFunction = false) fun _ _ => True

variable {scope : Scope} {inverted : Bool} {callee : Node} {arguments : List Node} {start next : Scratch}
  {place : Place} {store : Store} {continuation : Continuation}

/-- Print is handed no function if none is handed over. -/
theorem Draft.Withholds.of_handedBy {final : Scratch} {identity : Nat} {arity : Int} {name : Tree}
    {values : List Value} (withheld : (Node.handedBy inverted scope callee arguments).Withholds start)
    (called : callee.value inverted scope start = .ok (.builtin identity arity name .print) next)
    (taken : Node.plainValues inverted scope arguments next = .ok values final) :
    ∀ value ∈ values, value.isFunction = false := by
  unfold Draft.Withholds Node.handedBy at withheld
  rw [ends_bind] at withheld
  exact (withheld.of_ok called).of_ok taken

/-- The same is handed over after the left side was evaluated. -/
theorem Draft.Withholds.of_assigned {inner : Place} {left : Node} {operand : Operand} {address : Address}
    (withheld : (Node.handedIn inverted scope
      (.assignment place .assign left (.call inner callee arguments))).Withholds start)
    (ran : left.evaluate inverted scope start = .ok operand next) (found : operand.address? = some address) :
    (Node.handedBy inverted scope callee arguments).Withholds next := by
  unfold Draft.Withholds Node.handedIn at withheld
  rw [ends_bind] at withheld
  have assigned := withheld.of_ok ran
  rw [found] at assigned
  exact assigned

/-- What the step of a state hands to print. -/
def Machine.handed (machine : Machine) (state : State) : Action (List Value) := do
  machine.announce state
  match state with
  | .active node _ scope store _ => return (← (node.handed machine.invertedTruth scope).run store).1
  | .halted .. | .uncaught .. => return []

variable {machine : Machine}

/-- No function is handed to print by the step of a state. -/
def Machine.Withholds (machine : Machine) (state : State) (session : Session) : Prop :=
  Ends (machine.handed state) session (fun values _ => ∀ value ∈ values, value.isFunction = false)
    fun _ _ => True

/-- The same is handed over after a step was announced. -/
theorem Machine.Withholds.of_announced {node : Node} {next : Control} {session announced : Session}
    {done : Unit} (withheld : machine.Withholds (.active node next scope store continuation) session)
    (ran : machine.announce (.active node next scope store continuation) session = .ok done announced) :
    (node.handed machine.invertedTruth scope).Withholds ⟨announced, store⟩ := by
  unfold Machine.Withholds Machine.handed at withheld
  rw [ends_bind] at withheld
  have handed := withheld.of_ok ran
  rw [ends_bind, ends_run] at handed
  exact handed

namespace Naming

variable (naming : Naming) (node : Node)

/-- A test is renamed with its statement. -/
theorem test?_node : (naming.node node).test? = node.test?.map naming.node := by
  rw [node_eq]
  cases node <;> rfl

/-- The same is selected under other names. -/
theorem control_selected (next : Control) (truth : Bool) :
    naming.control (node.selected next truth) =
      (naming.node node).selected (naming.control next) truth := by
  rw [node_eq]
  cases node with
  | ifStatement place test consequent alternate =>
      cases truth with
      | true => exact naming.control_visit _ _
      | false =>
          unfold Node.selected
          dsimp only
          rw [isAbsent_node]
          split
          · rfl
          · exact naming.control_visit _ _
  | whileStatement place test body =>
      cases truth with
      | true =>
          unfold Node.selected
          dsimp only
          rw [control_visit, control_visit, node_eq naming (.whileStatement place test body)]
      | false => rfl
  | _ => cases truth <;> rfl

end Naming

namespace Ties

variable (ties : Ties)

/-- What is handed to print is displayed in the same way on both sides, or need not be. -/
def Quiet (handed : Draft (List Value)) (start : Scratch) : Prop :=
  ties.shows → ties.naming = none ∨ handed.Withholds start

/-- The values of two calls go to places that belong together. -/
inductive Aims (world : ties.World) : Target → Target → Prop where
  | slot (name : Name) : Aims world (.slot name) (.slot (ties.naming.name name))
  | location {address other : Address} (located : ties.Located world address other) :
      Aims world (.location address) (.location other)
  | discard : Aims world .discard .discard

/-- Two continuations wait for the same things, in scopes that belong together. -/
inductive Awaits (world : ties.World) : Continuation → Continuation → Prop where
  | halt : Awaits world [] []
  | call {target again : Target} (resume : Control) {scope : Scope} {rest others : Continuation}
      (aims : ties.Aims world target again) (seen : ties.Seen world scope)
      (awaits : Awaits world rest others) :
      Awaits world (.call target resume scope :: rest)
        (.call again (ties.naming.control resume) (ties.scope scope) :: others)
  | scope (resume : Control) {outer : Scope} {rest others : Continuation}
      (seen : ties.Seen world outer) (awaits : Awaits world rest others) :
      Awaits world (.scope resume outer :: rest)
        (.scope (ties.naming.control resume) (ties.scope outer) :: others)
  | handler (clause : Node) (resume : Control) {scope : Scope} {rest others : Continuation}
      (seen : ties.Seen world scope) (awaits : Awaits world rest others) :
      Awaits world (.handler clause scope resume :: rest)
        (.handler (ties.naming.node clause) (ties.scope scope)
          (ties.naming.control resume) :: others)

/-- Two states stand at the same place and wait for the same things. -/
inductive Abreast (world : ties.World) (session other : Session) : State → State → Prop where
  | active (node : Node) (next : Control) {scope : Scope} {store copy : Store}
      {continuation others : Continuation}
      (agrees : ties.Agrees world ⟨session, store⟩ ⟨other, copy⟩) (seen : ties.Seen world scope)
      (awaits : ties.Awaits world continuation others) :
      Abreast world session other (.active node next scope store continuation)
        (.active (ties.naming.node node) (ties.naming.control next) (ties.scope scope) copy
          others)
  | halted {scope : Scope} {store copy : Store} {continuation others : Continuation}
      (agrees : ties.Agrees world ⟨session, store⟩ ⟨other, copy⟩) (seen : ties.Seen world scope)
      (awaits : ties.Awaits world continuation others) :
      Abreast world session other (.halted scope store continuation)
        (.halted (ties.scope scope) copy others)
  | uncaught {value again : Value} {store copy : Store}
      (agrees : ties.Agrees world ⟨session, store⟩ ⟨other, copy⟩)
      (same : ties.Same world value again) :
      Abreast world session other (.uncaught value store) (.uncaught again copy)

/-- Two lists of values that belong together one by one. -/
abbrev Sames (world : ties.World) : List Value → List Value → Prop := List.Forall₂ (ties.Same world)

/-- Two actions that end in the same way, in a later world. -/
def Makes {A B : Type} (world : ties.World) (first : Action A) (second : Action B)
    (session other : Session) (good : ties.World → A → Session → B → Session → Prop) : Prop :=
  ties.Joins id world first second session other good

/-- Two actions that lead to states that belong together. -/
def Leads (world : ties.World) (first second : Action State) (session other : Session) : Prop :=
  ties.Makes world first second session other fun later state final again last =>
    ties.Abreast later final last state again

/-- Two drafts that lead to states that belong together. -/
def Enters (world : ties.World) (first second : Draft State) (start other : Scratch) : Prop :=
  ties.Joins Scratch.session world first second start other fun later state final again last =>
    ties.Abreast later final.session last.session state again

/-- What evaluations in the place of a statement come to: states, or operands that are passed over. -/
inductive Leaves (world : ties.World) : Effect → Scratch → Effect → Scratch → Prop where
  | entered {state again : State} {start other : Scratch}
      (abreast : ties.Abreast world start.session other.session state again) :
      Leaves world (.entered state) start (.entered again) other
  | operand (first second : Operand) {start other : Scratch} (agrees : ties.Agrees world start other) :
      Leaves world (.operand first) start (.operand second) other

/-- What evaluations in the place of a statement come to belongs together. -/
def Affects (world : ties.World) (first second : Draft Effect) (start other : Scratch) : Prop :=
  ties.Joins Scratch.session world first second start other ties.Leaves

end Ties

namespace Correspondence

variable (both : Correspondence) {world later : both.World}

/-- Targets stay together. -/
theorem aims_later {target again : Target} (passed : both.Later world later)
    (aims : both.Aims world target again) : both.Aims later target again := by
  cases aims with
  | slot name => exact .slot name
  | location located => exact .location (both.located_later passed located)
  | discard => exact .discard

variable {continuation others : Continuation}

/-- Continuations stay together. -/
theorem awaits_later (passed : both.Later world later) (awaits : both.Awaits world continuation others) :
    both.Awaits later continuation others := by
  induction awaits with
  | halt => exact .halt
  | call resume aims seen _ ih =>
      exact .call resume (both.aims_later passed aims) (both.seen_later passed seen) ih
  | scope resume seen _ ih =>
      exact .scope resume (both.seen_later passed seen) ih
  | handler clause resume seen _ ih =>
      exact .handler clause resume (both.seen_later passed seen) ih

/-- Continuations that belong together are labelled alike. -/
theorem labels_of_awaits (awaits : both.Awaits world continuation others) :
    others.map Pending.label = continuation.map Pending.label := by
  induction awaits with
  | halt => rfl
  | call resume aims seen _ ih =>
      exact congrArg (List.cons _) ih
  | scope resume seen _ ih => exact congrArg (List.cons _) ih
  | handler clause resume seen _ ih =>
      exact congrArg (List.cons _) ih

theorem sames_later {values others : List Value} (passed : both.Later world later)
    (sames : both.Sames world values others) : both.Sames later values others :=
  sames.imp fun _ _ same => both.same_later passed same

section

variable {A B : Type} {session other : Session}
  {good : both.World → A → Session → B → Session → Prop}

/-- Results that belong together are handed on. -/
theorem makes_pure {result : A} {again : B} (holds : good world result session again other) :
    both.Makes world (pure result) (pure again) session other good :=
  fun _ => ⟨world, both.later_refl world, holds⟩

variable {store copy : Store}

/-- Both sides fail alike. -/
theorem makes_throw (fault : Fault) (agrees : both.Agrees world ⟨session, store⟩ ⟨other, copy⟩) :
    both.Makes world (throw fault : Action A) (throw fault : Action B) session other good :=
  fun _ _ => ⟨both.matches_refl fault, both.alike_of_agrees agrees⟩

/-- Actions inside drafts, taken on their own. -/
theorem makes_of_keeps {first : Action A} {second : Action B} {good : both.World → A → B → Prop}
    (keeps : both.Keeps world (liftM first) (liftM second) ⟨session, store⟩ ⟨other, copy⟩ good) :
    both.Makes world first second session other fun later result final again last =>
      both.Agrees later ⟨final, store⟩ ⟨last, copy⟩ ∧ good later result again :=
  both.keeps_lift.mp keeps

/-- Drafts are run on stores of their own. -/
theorem makes_run {first : Draft A} {second : Draft B} {good : both.World → A → B → Prop}
    (keeps : both.Keeps world first second ⟨session, store⟩ ⟨other, copy⟩ good) :
    both.Makes world (first.run store) (second.run copy) session other
      fun later result final again last => both.Agrees later ⟨final, result.2⟩ ⟨last, again.2⟩ ∧
        good later result.1 again.1 :=
  Terms.pairs_run keeps

end

section

variable {session other : Session} {store copy : Store} {scope : Scope} {continuation others : Continuation}
  {value repeated : Value}

/-- Both sides store the value, or neither does. -/
theorem makes_extend {address again : Address} (agrees : both.Agrees world ⟨session, store⟩ ⟨other, copy⟩)
    (located : both.Located world address again) (same : both.Same world value repeated) :
    both.Makes world (Action.fromExcept (store.extend address value))
      (Action.fromExcept (copy.extend again repeated)) session other fun later bound final kept last =>
      both.Agrees later ⟨final, bound⟩ ⟨last, kept⟩ := by
  obtain ⟨fault, refused, refusedAgain⟩ | ⟨bound, kept, extended, extendedAgain, agree⟩ :=
    both.extend_cases agrees located same
  · rw [refused, refusedAgain]
    exact both.makes_throw fault agrees
  · rw [extended, extendedAgain]
    exact both.makes_pure agree

/-- Both sides open a scope. -/
theorem makes_push (agrees : both.Agrees world ⟨session, store⟩ ⟨other, copy⟩)
    (seen : both.Seen world scope) :
    both.Makes world scope.push (both.scope scope).push session other
      fun later inner final again last => both.Agrees later ⟨final, store⟩ ⟨last, copy⟩ ∧
        again = both.scope inner ∧ both.Seen later inner := by
  obtain ⟨size, later, passed, agree, inner⟩ := both.nest true agrees seen
  unfold Ties.Makes Ties.Joins Terms.Pairs
  rw [ends_push]
  intro _
  rw [ends_push]
  refine ⟨later, passed, agree, ?_, inner⟩
  rw [size]
  rfl

/-- Both sides enter the scope of a function. -/
theorem keeps_enter {start last : Scratch} (agrees : both.Agrees world start last)
    (seen : both.Seen world scope) :
    both.Keeps world (liftM (Scope.enter Session.machineAllocator scope.chain))
      (liftM (Scope.enter Session.machineAllocator (both.scope scope).chain)) start last
      fun later inner again => again = both.scope inner ∧ both.Seen later inner := by
  obtain ⟨size, later, passed, agree, inner⟩ := both.nest false agrees seen
  apply both.keeps_lift.mpr
  unfold Ties.Joins Terms.Pairs
  rw [ends_enter]
  intro _
  rw [ends_enter]
  refine ⟨later, passed, agree, ?_, inner⟩
  rw [size]
  rfl

/-- Control goes on at the same place. -/
theorem leads_resume (control : Control) (agrees : both.Agrees world ⟨session, store⟩ ⟨other, copy⟩)
    (seen : both.Seen world scope) (awaits : both.Awaits world continuation others) :
    both.Leads world (State.resume control scope store continuation)
      (State.resume (both.naming.control control) (both.scope scope) copy others) session
      other := by
  cases control with
  | nowhere =>
      rw [Naming.control_nowhere]
      exact both.makes_throw _ agrees
  | done =>
      rw [Naming.control_done]
      exact both.makes_pure (.halted agrees seen awaits)
  | visit node next =>
      rw [Naming.control_visit]
      exact both.makes_pure (.active node next agrees seen awaits)

section

variable (agrees : both.Agrees world ⟨session, store⟩ ⟨other, copy⟩)
include agrees

/-- Both sides bind the value of a call. -/
theorem makes_bindResult {target again : Target} (aims : both.Aims world target again)
    (seen : both.Seen world scope) (same : both.Same world value repeated) :
    both.Makes world (Continuation.bindResult target scope value store)
      (Continuation.bindResult again (both.scope scope) repeated copy) session other
      fun later bound final kept last => both.Agrees later ⟨final, bound⟩ ⟨last, kept⟩ := by
  cases aims with
  | slot name =>
      refine both.joins_bind (both.makes_of_keeps (both.keeps_declare agrees seen)) ?_
      rintro later address next found last passed ⟨agree, located, -⟩
      exact both.makes_extend agree located (both.same_later passed same)
  | location located => exact both.makes_extend agrees located same
  | discard => exact both.makes_pure agrees

/-- Both sides return to calls that belong together. -/
theorem leads_returned (awaits : both.Awaits world continuation others)
    (same : both.Same world value repeated) :
    both.Leads world (Continuation.returned value store continuation)
      (Continuation.returned repeated copy others) session other := by
  induction awaits with
  | halt => exact both.makes_throw _ agrees
  | call resume aims seen awaits ih =>
      refine both.joins_bind (both.makes_bindResult agrees aims seen same) ?_
      intro later bound next kept last passed agree
      exact both.leads_resume resume agree (both.seen_later passed seen)
        (both.awaits_later passed awaits)
  | scope resume seen awaits ih => exact ih
  | handler clause resume seen awaits ih => exact ih

/-- Both sides leave scopes that belong together. -/
theorem leads_leftScope (awaits : both.Awaits world continuation others) :
    both.Leads world (Continuation.leftScope store continuation)
      (Continuation.leftScope copy others) session other := by
  induction awaits with
  | halt => exact both.makes_throw _ agrees
  | call resume aims seen awaits ih => exact ih
  | scope resume seen awaits ih =>
      have goesOn := both.leads_resume resume agrees seen awaits
      cases resume with
      | nowhere =>
          rw [Naming.control_nowhere]
          exact both.leads_returned agrees awaits (both.plain rfl)
      | done =>
          rw [Naming.control_done] at goesOn ⊢
          exact goesOn
      | visit node next =>
          rw [Naming.control_visit] at goesOn ⊢
          exact goesOn
  | handler clause resume seen awaits ih => exact ih

/-- Both sides leave protected blocks that belong together. -/
theorem leads_leftHandler (awaits : both.Awaits world continuation others) :
    both.Leads world (Continuation.leftHandler store continuation)
      (Continuation.leftHandler copy others) session other := by
  induction awaits with
  | halt => exact both.makes_throw _ agrees
  | call resume aims seen awaits ih => exact ih
  | scope resume seen awaits ih => exact ih
  | handler clause resume seen awaits ih =>
      exact both.leads_resume resume agrees seen awaits

end

/-- A clause binds what was thrown in a scope of its own. -/
theorem leads_enterClause (param : Ident) (body : Node) (resume : Control)
    (agrees : both.Agrees world ⟨session, store⟩ ⟨other, copy⟩) (seen : both.Seen world scope)
    (awaits : both.Awaits world continuation others) (same : both.Same world value repeated) :
    both.Leads world (Continuation.enterClause param body scope resume value store continuation)
      (Continuation.enterClause (both.naming.ident param) (both.naming.node body)
        (both.scope scope) (both.naming.control resume) repeated copy others)
      session other := by
  unfold Continuation.enterClause
  rw [Naming.name_ident, Naming.sequence?_node]
  refine both.joins_ran
    (fun _ => expands_bind fun _ => expands_bind fun _ => by split <;> infer_instance)
    (both.makes_push agrees seen) ?_
  rintro first inner pushed _ again _ opened ⟨agree, rfl, inside⟩
  refine both.joins_ran (fun _ => expands_bind fun _ => by split <;> infer_instance)
    (both.makes_of_keeps (both.keeps_declare agree inside)) ?_
  rintro second address declared found final _ onward ⟨agreed, located, -⟩
  have since := both.later_trans opened onward
  refine both.joins_ran (fun _ => by split <;> infer_instance)
    (both.makes_extend agreed located (both.same_later since same)) ?_
  intro later bound next kept last _ moved agree
  have passed := both.later_trans since moved
  have inside := both.seen_later (both.later_trans onward moved) inside
  rcases body.sequence? with _ | ⟨_ | ⟨first, following⟩, exit⟩
  · exact both.makes_throw _ agree
  · rw [Option.map_some, Naming.nodes_nil]
    exact both.makes_throw _ agree
  · have entered := both.leads_resume
      (.visit first (.through following (.exiting exit resume))) agree inside
      (.scope resume (both.seen_later passed seen) (both.awaits_later passed awaits))
    simp only [Naming.control_visit, Naming.control_through, Naming.control_exiting] at entered
    rw [Option.map_some, Naming.nodes_cons]
    exact entered

/-- Both sides enter a clause, or neither does. -/
theorem leads_caught (clause : Node) (resume : Control)
    (agrees : both.Agrees world ⟨session, store⟩ ⟨other, copy⟩) (seen : both.Seen world scope)
    (awaits : both.Awaits world continuation others) (same : both.Same world value repeated) :
    both.Leads world (Continuation.caught clause scope resume value store continuation)
      (Continuation.caught (both.naming.node clause) (both.scope scope)
        (both.naming.control resume) repeated copy others) session other := by
  have emptiness : (both.naming.node clause).ownBody?.bind Node.emptyBody? =
      clause.ownBody?.bind Node.emptyBody? := by
    rw [Naming.ownBody?_node]
    cases clause.ownBody? with
    | none => rfl
    | some body => exact both.naming.emptyBody?_node body
  unfold Continuation.caught
  rw [emptiness]
  split
  · exact both.makes_throw _ agrees
  · exact both.leads_resume resume agrees seen awaits
  · rw [Naming.node_eq]
    cases clause with
    | catchClause place param body =>
        exact both.leads_enterClause param body resume agrees seen awaits same
    | _ => exact both.makes_throw _ agrees

/-- Both sides throw to handlers that belong together. -/
theorem leads_thrown (agrees : both.Agrees world ⟨session, store⟩ ⟨other, copy⟩)
    (awaits : both.Awaits world continuation others) (same : both.Same world value repeated) :
    both.Leads world (Continuation.thrown value store continuation)
      (Continuation.thrown repeated copy others) session other := by
  induction awaits with
  | halt =>
      exact fun _ => ⟨world, both.later_refl world, .uncaught (both.report _ _ agrees) same⟩
  | call resume aims seen awaits ih => exact ih
  | scope resume seen awaits ih => exact ih
  | handler clause resume seen awaits ih =>
      exact both.leads_caught clause resume agrees seen awaits same

end

section

variable {start other : Scratch} {scope : Scope} {continuation others : Continuation}

/-- Values of expressions belong together. -/
theorem keeps_value (inverted : Bool) (node : Node)
    (grants : both.Grants world scope node.needs) (agrees : both.Agrees world start other)
    (home : both.Home world scope) :
    both.Keeps world (node.value inverted scope)
      ((both.naming.node node).value inverted (both.scope scope)) start other both.Same :=
  both.keeps_reading (both.evaluate inverted node grants agrees home)

/-- Tests are decided alike. -/
theorem keeps_truth (inverted : Bool) (node : Node)
    (grants : both.Grants world scope node.needs) (agrees : both.Agrees world start other)
    (home : both.Home world scope) :
    both.Keeps world (node.truth inverted scope)
      ((both.naming.node node).truth inverted (both.scope scope)) start other
      fun _ truth again => again = truth ∧ True :=
  both.keeps_testing (both.evaluate inverted node grants agrees home)

/-- Arguments belong together one by one. -/
theorem keeps_values (inverted : Bool) (arguments : List Node)
    (grants : both.Grants world scope (Node.needsOf arguments))
    (agrees : both.Agrees world start other) (home : both.Home world scope) :
    both.Keeps world (Node.values inverted scope arguments)
      (Node.values inverted (both.scope scope) (both.naming.nodes arguments)) start other
      both.Sames := by
  induction arguments generalizing world start other with
  | nil =>
      rw [Naming.nodes_nil]
      exact both.keeps_pure agrees .nil
  | cons argument rest ih =>
      rw [Naming.nodes_cons]
      simp only [Node.needsOf] at grants
      refine both.joins_bind (both.keeps_value inverted argument grants.left agrees home) ?_
      rintro later value next again last passed ⟨agree, same⟩
      refine both.joins_bind (ih
        (both.grants_later passed grants.right) agree (both.home_later passed home)) ?_
      rintro after values further copies final onward ⟨agreed, sames⟩
      exact both.keeps_pure agreed (.cons (both.same_later onward same) sames)

/-- Values that belong together are no references, so built-in functions take them. -/
theorem keeps_plainValues (inverted : Bool) (arguments : List Node)
    (grants : both.Grants world scope (Node.needsOf arguments))
    (agrees : both.Agrees world start other) (home : both.Home world scope) :
    both.Keeps world (Node.plainValues inverted scope arguments)
      (Node.plainValues inverted (both.scope scope) (both.naming.nodes arguments)) start other
      both.Sames := by
  induction arguments generalizing world start other with
  | nil =>
      rw [Naming.nodes_nil]
      exact both.keeps_pure agrees .nil
  | cons argument rest ih =>
      rw [Naming.nodes_cons]
      simp only [Node.needsOf] at grants
      refine both.joins_ran (fun value => by cases value <;> infer_instance)
        (both.keeps_value inverted argument grants.left agrees home) ?_
      rintro later value next again last _ passed ⟨agree, same⟩
      have goesOn : both.Keeps later (do return value :: (← Node.plainValues inverted scope rest))
          (do return again :: (← Node.plainValues inverted (both.scope scope)
            (both.naming.nodes rest))) next last both.Sames := by
        refine both.joins_bind (ih (both.grants_later passed grants.right) agree
          (both.home_later passed home)) ?_
        rintro after values further copies final onward ⟨agreed, sames⟩
        exact both.keeps_pure agreed (.cons (both.same_later onward same) sames)
      cases both.akin same with
      | plain isPlain =>
          cases value with
          | reference identity address => cases isPlain
          | _ => exact goesOn
      | object | function | builtin => exact goesOn

variable {arguments repeated : List Value}

/-- Both sides bind their parameters. -/
theorem keeps_bindParams (params : List Ident) (sames : both.Sames world arguments repeated)
    (agrees : both.Agrees world start other) (seen : both.Seen world scope) :
    both.Keeps world (bindParams scope params arguments)
      (bindParams (both.scope scope) (both.naming.idents params) repeated) start other
      fun _ _ _ => True := by
  induction params generalizing world start other arguments repeated with
  | nil =>
      rw [Naming.idents_nil]
      exact both.keeps_pure agrees trivial
  | cons param params ih =>
      rw [Naming.idents_cons, bindParams, bindParams, Naming.name_ident]
      have parts : both.Same world (arguments.headD .undefined) (repeated.headD .undefined) ∧
          both.Sames world arguments.tail repeated.tail := by
        cases sames with
        | nil => exact ⟨both.plain rfl, .nil⟩
        | cons same others => exact ⟨same, others⟩
      refine both.joins_bind (both.keeps_declare agrees seen) ?_
      rintro later address next again last passed ⟨agree, located, -⟩
      refine both.joins_bind (both.keeps_extend agree located (both.same_later passed parts.1)) ?_
      rintro after _ further _ final onward ⟨agreed, -⟩
      have since := both.later_trans passed onward
      exact ih (both.sames_later since parts.2) agreed (both.seen_later since seen)

variable {values : List Value} {site : CallSite} {again : Target}

/-- Values that belong together are displayed in the same way, unless a function is among them whose name
may have changed. -/
theorem display_of_sames (sames : both.Sames world values repeated)
    (unchanged : both.naming = none ∨ ∀ value ∈ values, value.isFunction = false) :
    repeated.filterMap Value.display? = values.filterMap Value.display? := by
  induction sames with
  | nil => rfl
  | cons same _ ih =>
      have first := unchanged.imp_right fun withheld => withheld _ List.mem_cons_self
      have others := unchanged.imp_right fun withheld held member =>
        withheld held (List.mem_cons_of_mem _ member)
      rw [List.filterMap_cons, List.filterMap_cons, (both.akin same).display first, ih others]

/-- Built-in functions answer and print alike. -/
theorem keeps_routine {routine : Routine} (own : routine.isOwn = true)
    (sames : both.Sames world values repeated)
    (unchanged : routine = .print → both.shows →
      both.naming = none ∨ ∀ value ∈ values, value.isFunction = false)
    (agrees : both.Agrees world start other) :
    both.Keeps world (liftM (routine.call values)) (liftM (routine.call repeated)) start other
      both.Same := by
  have printed : ∀ text again : String, (both.shows → again = text) → both.Keeps world
      (liftM (do Action.print text; return Value.undefined : Action Value))
      (liftM (do Action.print again; return Value.undefined : Action Value)) start other
      both.Same := by
    intro text again equal
    apply both.keeps_lift.mpr
    intro _
    exact both.reaches_self (both.print text again equal agrees) (both.plain rfl)
  cases routine with
  | print =>
      refine printed _ _ fun shows => ?_
      rw [both.display_of_sames sames (unchanged rfl shows)]
  | describe => exact printed _ _ fun _ => rfl
  | ownPropertyTest =>
      apply both.keeps_lift.mpr
      exact Terms.pairs_throw fun _ => both.alike_of_agrees agrees
  | answer value => cases own
  | answerData data => cases own

/-- Actions on the stores that two drafts have arrived at. -/
theorem enters_store {first second : Store → Action State}
    (leads : both.Leads world (first start.store) (second other.store) start.session other.session) :
    both.Enters world (do first (← Draft.store)) (do second (← Draft.store)) start other := by
  unfold Ties.Enters Ties.Joins Terms.Pairs
  simp only [ends_bind, ends_store, ends_liftAction]
  exact leads

/-- Entering a function binds its parameters in a scope of its own. -/
theorem enters_closure {closure : Closure} {identity : Nat} (sames : both.Sames world arguments repeated)
    (callable : both.Seen world closure.scope) (agrees : both.Agrees world start other)
    (aims : both.Aims world site.target again) (seen : both.Seen world site.scope)
    (awaits : both.Awaits world site.continuation others) :
    both.Enters world (closure.enter arguments site)
      (Closure.enter ⟨identity, both.naming.code closure.code, both.scope closure.scope⟩
        repeated ⟨again, both.naming.control site.resume, both.scope site.scope, others⟩) start
      other := by
  unfold Closure.enter
  rw [Naming.params_code, Naming.body_code, Naming.emptyBody?_node]
  refine both.joins_ran (fun _ => expands_bind fun _ => by split <;> infer_instance)
    (both.keeps_enter agrees callable) ?_
  rintro first inner entered _ final _ opened ⟨agree, rfl, inside⟩
  refine both.joins_ran (fun _ => by split <;> infer_instance)
    (both.keeps_bindParams _ (both.sames_later opened sames) agree inside) ?_
  rintro later _ next _ last _ onward ⟨agree, -⟩
  have passed := both.later_trans opened onward
  have inside := both.seen_later onward inside
  have pending : both.Awaits later site.pending (CallSite.pending
      ⟨again, both.naming.control site.resume, both.scope site.scope, others⟩) :=
    .call site.resume (both.aims_later passed aims) (both.seen_later passed seen)
      (both.awaits_later passed awaits)
  cases closure.code.body.emptyBody? with
  | none => exact both.joins_fail _ agree
  | some empty =>
      cases empty with
      | true => exact both.enters_store (both.leads_returned agree pending (both.plain rfl))
      | false =>
          have entered := both.leads_resume (.visit closure.code.body .nowhere) agree inside pending
          rw [Naming.control_visit, Naming.control_nowhere] at entered
          exact both.enters_store entered

/-- A call is entered in the same way. -/
theorem enters_callFrom (inverted : Bool) (callee : Node) (arguments : List Node)
    (grants : both.Grants world site.scope (callee.needs ++ Node.needsOf arguments))
    (quiet : both.Quiet (Node.handedBy inverted site.scope callee arguments) start)
    (agrees : both.Agrees world start other) (aims : both.Aims world site.target again)
    (home : both.Home world site.scope) (awaits : both.Awaits world site.continuation others) :
    both.Enters world (callFrom inverted site callee arguments)
      (callFrom inverted ⟨again, both.naming.control site.resume, both.scope site.scope, others⟩
        (both.naming.node callee) (both.naming.nodes arguments)) start other := by
  rw [callFrom_eq, callFrom_eq]
  have seen := both.seen_of_home home
  refine both.joins_ran (fun _ => inferInstance)
    (both.keeps_value inverted callee grants.left agrees home) ?_
  rintro later value next repeated last called passed ⟨agree, same⟩
  have granted := both.grants_later passed grants.right
  have inside := both.home_later passed home
  have refused : ∀ message copied : String, both.Enters later
      (do Action.note .machine fun _ => message; Draft.fail .notCallable)
      (do Action.note .machine fun _ => copied; Draft.fail .notCallable) next last := by
    intro message copied
    refine both.joins_bind (both.keeps_note agree _ _ _) ?_
    rintro after _ further _ final onward ⟨agreed, -⟩
    exact both.joins_fail _ agreed
  cases both.akin same with
  | plain isPlain =>
      cases value with
      | function closure => cases isPlain
      | builtin identity arity name routine => cases isPlain
      | _ => exact refused _ _
  | object proto properties => exact refused _ _
  | @builtin identity arity name routine own =>
      refine both.joins_ran (fun _ => inferInstance)
        (both.keeps_plainValues inverted arguments granted agree inside) ?_
      rintro after values further copies final taken onward ⟨agreed, sames⟩
      -- What is printed is the same on both sides unless it shows a function, whose text has names in it.
      have unchanged : routine = .print → both.shows →
          both.naming = none ∨ ∀ value ∈ values, value.isFunction = false := by
        rintro rfl shows
        exact (quiet shows).imp_right fun withheld => withheld.of_handedBy called taken
      refine both.joins_bind (both.keeps_routine own sames unchanged agreed) ?_
      rintro settled answer rest copied ends moved ⟨stays, answered⟩
      have since := both.later_trans passed (both.later_trans onward moved)
      have pending : both.Awaits settled site.pending (CallSite.pending
          ⟨again, both.naming.control site.resume, both.scope site.scope, others⟩) :=
        .call site.resume (both.aims_later since aims) (both.seen_later since seen)
          (both.awaits_later since awaits)
      exact both.enters_store (both.leads_returned stays pending answered)
  | function closure =>
      refine both.joins_bind (both.keeps_note agree _ _ _) ?_
      rintro after _ further _ final onward ⟨agreed, -⟩
      have since := both.later_trans passed onward
      refine both.joins_bind (both.keeps_values inverted arguments (both.grants_later onward granted) agreed
        (both.home_later onward inside)) ?_
      rintro settled values rest copies ends moved ⟨stays, sames⟩
      have all := both.later_trans since moved
      have callable := both.callable (both.same_later (both.later_trans onward moved) same)
      exact both.enters_closure sames callable stays (both.aims_later all aims)
        (both.seen_later all seen) (both.awaits_later all awaits)

end

section

variable {start other : Scratch} {scope : Scope} {continuation others : Continuation}

/-- Calls that are entered belong together. -/
theorem affects_entered {first second : Draft State}
    (enters : both.Enters world first second start other) :
    both.Affects world (do return .entered (← first)) (do return .entered (← second)) start other := by
  refine both.joins_bind enters ?_
  intro later state next again last _ abreast _
  exact ⟨later, both.later_refl later, .entered abreast⟩

/-- A location on one side is a location on the other side. -/
theorem address?_cases {operand again : Operand} (denotes : both.Denotes world operand again) :
    (operand.address? = none ∧ again.address? = none) ∨
      ∃ address copy, operand.address? = some address ∧ again.address? = some copy ∧
        both.Located world address copy := by
  cases denotes with
  | location located => exact .inr ⟨_, _, rfl, rfl, located⟩
  | value same => exact .inl (both.address?_of_same same)

/-- Both sides evaluate a statement in the same way. -/
theorem affects_evaluateStatement (inverted : Bool) (resume : Control) (node : Node)
    (grants : both.Grants world scope node.needs) (quiet : both.Quiet (node.handedIn inverted scope) start)
    (agrees : both.Agrees world start other) (home : both.Home world scope)
    (awaits : both.Awaits world continuation others) :
    both.Affects world (node.evaluateStatement inverted scope continuation resume)
      ((both.naming.node node).evaluateStatement inverted (both.scope scope) others
        (both.naming.control resume)) start other := by
  fun_cases Node.evaluateStatement inverted scope continuation resume node with
  | case1 place callee arguments =>
      rw [Naming.node_eq, Node.evaluateStatement]
      simp only [Node.needs] at grants
      exact both.affects_entered
        (both.enters_callFrom inverted callee arguments grants quiet agrees .discard home awaits)
  | case2 place left inner callee arguments =>
      rw [Naming.node_eq]
      dsimp only
      rw [Naming.node_eq both.naming (.call inner callee arguments), Node.evaluateStatement]
      simp only [Node.needs] at grants
      refine both.joins_ran (fun _ => by split <;> infer_instance)
        (both.evaluate inverted left grants.left agrees home) ?_
      rintro later operand next again last ran passed ⟨agree, denotes⟩
      obtain ⟨missing, missingAgain⟩ | ⟨address, copy, found, foundAgain, located⟩ :=
        both.address?_cases denotes
      · rw [missing, missingAgain]
        exact both.joins_fail _ agree
      · rw [found, foundAgain]
        have handed : both.Quiet (Node.handedBy inverted scope callee arguments) next :=
          fun shows => (quiet shows).imp_right fun withheld => withheld.of_assigned ran found
        exact both.affects_entered (both.enters_callFrom inverted callee arguments
          (both.grants_later passed grants.right) handed agree (.location located)
          (both.home_later passed home) (both.awaits_later passed awaits))
  | case3 _ noCall noAssignment =>
      rw [Node.evaluateStatement]
      · refine both.joins_bind (both.evaluate inverted node grants agrees home) ?_
        rintro later operand next again last passed ⟨agree, denotes⟩
        exact Terms.pairs_pure ⟨later, both.later_refl later, .operand _ _ agree⟩
      · intro place callee arguments called
        obtain ⟨_, _, rfl⟩ := both.naming.call_of_node called
        exact noCall _ _ _ rfl
      · intro place left inner callee arguments assigned
        obtain ⟨_, right, rfl, rightCall⟩ := both.naming.assignment_of_node assigned
        obtain ⟨_, _, rfl⟩ := both.naming.call_of_node rightCall
        exact noAssignment _ _ _ _ _ rfl

/-- What the other declarators need is granted once a name has been declared. -/
theorem grants_declarators {place : Place} {target : Ident} {init : Node} {rest : List Node}
    (grants : both.Grants world scope (Node.declaratorNeeds (.declarator place target init :: rest)))
    (asked : ∀ key, target.name.key = .ok key → both.Asked world scope key) :
    both.Grants world scope (Node.declaratorNeeds rest) := by
  intro need member
  rw [Node.declaratorNeeds] at grants
  have kept := fun filtered => grants need (List.mem_append_right _
    (List.mem_filter.mpr ⟨member, filtered⟩))
  cases need with
  | create => exact kept rfl
  | select => exact kept rfl
  | name name =>
      intro key named
      -- A name that was declared just now is found where it was declared. Others are granted from before.
      by_cases same : name.key.toOption = target.name.key.toOption
      · cases declared : target.name.key with
        | error fault => simp [named, declared, Except.toOption] at same
        | ok found =>
            obtain rfl : key = found := by simpa [named, declared, Except.toOption] using same
            exact asked key declared
      · exact kept (by simpa using same) key named

variable {machine second : Machine}

/-- Initial values belong together. -/
theorem keeps_initialValue (truth : second.invertedTruth = machine.invertedTruth) (init : Node)
    (grants : both.Grants world scope init.needs) (agrees : both.Agrees world start other)
    (home : both.Home world scope) :
    both.Keeps world (machine.initialValue scope init)
      (second.initialValue (both.scope scope) (both.naming.node init)) start other
      both.Same := by
  unfold Machine.initialValue
  rw [truth, Naming.isAbsent_node]
  split
  · exact both.keeps_pure agrees (both.plain rfl)
  · exact both.keeps_value _ init grants agrees home

/-- Declarators are bound in turn on both sides. -/
theorem keeps_declareAll (truth : second.invertedTruth = machine.invertedTruth) (keyword : Tree)
    (declarators : List Node) (grants : both.Grants world scope (Node.declaratorNeeds declarators))
    (agrees : both.Agrees world start other) (home : both.Home world scope) :
    both.Keeps world (machine.declareAll scope keyword declarators)
      (second.declareAll (both.scope scope) keyword (both.naming.nodes declarators)) start other
      fun _ _ _ => True := by
  induction declarators generalizing world start other with
  | nil =>
      rw [Naming.nodes_nil]
      exact both.keeps_pure agrees trivial
  | cons node rest ih =>
      rw [Naming.nodes_cons]
      by_cases declares : ∃ place target init, node = .declarator place target init
      · obtain ⟨place, target, init, rfl⟩ := declares
        have valued := both.keeps_initialValue truth init
          (by rw [Node.declaratorNeeds] at grants; exact grants.left) agrees home
        rw [Naming.node_eq, Machine.declareAll_cons, Machine.declareAll_cons, Naming.name_ident]
        refine both.joins_bind valued ?_
        rintro later value next again last passed ⟨agree, same⟩
        refine both.joins_bind (both.keeps_note agree _ _ _) ?_
        rintro after _ further _ final onward ⟨agreed, -⟩
        have since := both.later_trans passed onward
        refine both.joins_bind (both.keeps_declare agreed (both.seen_of_home (both.home_later since home))) ?_
        rintro between address middle copy left moved ⟨held, located, asked⟩
        refine both.joins_bind (both.keeps_extend held located
          (both.same_later (both.later_trans onward moved) same)) ?_
        rintro settled _ remaining _ ends lasts ⟨stays, -⟩
        have granted := both.grants_declarators
          (both.grants_later (both.later_trans since moved) grants)
          fun key named => asked key named (both.home_later since home)
        exact ih (both.grants_later lasts granted) stays
          (both.home_later (both.later_trans since (both.later_trans moved lasts)) home)
      · rw [Naming.node_eq]
        cases node with
        | declarator place target init => exact absurd ⟨place, target, init, rfl⟩ declares
        | _ => exact both.joins_fail _ agrees

/-- A name that counts as false is passed over on both sides. -/
theorem aims_choose (name : Name) :
    both.Aims world (.choose name none) (.choose (both.naming.name name) none) := by
  unfold Target.choose
  rw [Naming.written_name, Naming.truthy_written]
  split
  · exact .slot name
  · exact .discard

/-- Both sides declare the same names. -/
theorem affects_declaration (truth : second.invertedTruth = machine.invertedTruth) (place : Place)
    (keyword : Tree) (next : Control) (declarators : List Node)
    (grants : both.Grants world scope (Node.declaratorNeeds declarators))
    (quiet : both.Quiet
      ((Node.declaration place declarators keyword).handed machine.invertedTruth scope) start)
    (agrees : both.Agrees world start other) (home : both.Home world scope)
    (awaits : both.Awaits world continuation others) :
    both.Affects world (machine.declaration declarators keyword next scope continuation)
      (second.declaration (both.naming.nodes declarators) keyword (both.naming.control next)
        (both.scope scope) others) start other := by
  fun_cases Machine.declaration machine declarators keyword next scope continuation with
  | case1 spot target inner callee arguments =>
      rw [Naming.nodes_cons, Naming.nodes_nil, Naming.node_eq]
      dsimp only
      rw [Naming.node_eq both.naming (.call inner callee arguments), Machine.declaration, truth,
        Naming.name_ident]
      simp only [Node.declaratorNeeds, Node.needs, List.filter_nil, List.append_nil] at grants
      exact both.affects_entered (both.enters_callFrom _ callee arguments grants quiet agrees
        (both.aims_choose target.name) home awaits)
  | case2 spot target inner callee arguments rest several =>
      rw [Naming.nodes_cons, Naming.node_eq]
      dsimp only
      rw [Naming.node_eq both.naming (.call inner callee arguments)]
      cases rest with
      | nil => exact (several rfl).elim
      | cons following more =>
          rw [Naming.nodes_cons]
          exact both.joins_fail _ agrees
  | case3 =>
      rw [Naming.nodes_nil]
      exact both.joins_fail _ agrees
  | case4 _ _ noCall notEmpty =>
      have noCallAgain : ∀ spot target inner callee arguments rest, both.naming.nodes declarators =
          .declarator spot target (.call inner callee arguments) :: rest → False := by
        intro spot target inner callee arguments rest renamed
        cases declarators with
        | nil => exact notEmpty rfl
        | cons node others =>
            rw [Naming.nodes_cons, List.cons.injEq] at renamed
            obtain ⟨_, init, rfl, initCall⟩ := both.naming.declarator_of_node renamed.1
            obtain ⟨_, _, rfl⟩ := both.naming.call_of_node initCall
            exact noCall _ _ _ _ _ _ rfl
      rw [Machine.declaration]
      · refine both.joins_bind (both.keeps_declareAll truth keyword declarators grants agrees home) ?_
        rintro later _ following _ last passed ⟨agree, -⟩
        exact Terms.pairs_pure ⟨later, both.later_refl later, .operand _ _ agree⟩
      · intro spot target inner callee arguments renamed
        exact noCallAgain _ _ _ _ _ _ renamed
      · exact noCallAgain
      · intro renamed
        cases declarators with
        | nil => exact notEmpty rfl
        | cons node others =>
            rw [Naming.nodes_cons] at renamed
            cases renamed

end

section

variable {session other : Session} {store copy : Store} {scope : Scope}
  {continuation others : Continuation} {machine second : Machine}

/-- Both sides go on in the same way. -/
theorem leads_proceed {first again : Draft Effect} (next : Control)
    (affects : both.Affects world first again ⟨session, store⟩ ⟨other, copy⟩)
    (seen : both.Seen world scope) (awaits : both.Awaits world continuation others) :
    both.Leads world (Machine.proceed first next scope store continuation)
      (Machine.proceed again (both.naming.control next) (both.scope scope) copy others) session
      other := by
  have ran : both.Makes world (first.run store) (again.run copy) session other
      fun later result final repeated last => both.Leaves later result.1 ⟨final, result.2⟩ repeated.1
        ⟨last, repeated.2⟩ := Terms.pairs_run affects
  refine both.joins_ran (fun result => by obtain ⟨_ | _, _⟩ := result <;> infer_instance) ran ?_
  rintro later ⟨effect, arrived⟩ following ⟨repeated, reached⟩ last _ passed holds
  cases holds with
  | entered abreast => exact both.makes_pure abreast
  | operand _ _ agree =>
      exact both.leads_resume next agree (both.seen_later passed seen) (both.awaits_later passed awaits)

/-- A choice or a loop goes the same way on both sides. -/
theorem leads_tested (truth : second.invertedTruth = machine.invertedTruth) {node test : Node}
    (next : Control) (tests : node.test? = some test) (grants : both.Grants world scope test.needs)
    (agrees : both.Agrees world ⟨session, store⟩ ⟨other, copy⟩) (home : both.Home world scope)
    (awaits : both.Awaits world continuation others) :
    both.Leads world (machine.stepActive node next scope store continuation)
      (second.stepActive (both.naming.node node) (both.naming.control next) (both.scope scope)
        copy others) session other := by
  have testsAgain : (both.naming.node node).test? = some (both.naming.node test) := by
    rw [Naming.test?_node, tests, Option.map_some]
  rw [machine.stepActive_of_test _ _ _ _ tests, second.stepActive_of_test _ _ _ _ testsAgain, truth]
  refine both.joins_bind (both.makes_run (both.keeps_truth _ test grants agrees home)) ?_
  rintro later ⟨_, arrived⟩ following ⟨tested, reached⟩ last passed ⟨agree, rfl, -⟩
  dsimp only
  rw [← Naming.control_selected]
  exact both.leads_resume _ agree (both.seen_later passed (both.seen_of_home home))
    (both.awaits_later passed awaits)

/-- Two active states that belong together step to states that belong together. -/
theorem leads_stepActive (truth : second.invertedTruth = machine.invertedTruth) (node : Node)
    (next : Control) (grants : both.Grants world scope node.stepNeeds)
    (quiet : both.Quiet (node.handed machine.invertedTruth scope) ⟨session, store⟩)
    (agrees : both.Agrees world ⟨session, store⟩ ⟨other, copy⟩) (home : both.Home world scope)
    (awaits : both.Awaits world continuation others) :
    both.Leads world (machine.stepActive node next scope store continuation)
      (second.stepActive (both.naming.node node) (both.naming.control next) (both.scope scope)
        copy others) session other := by
  have seen := both.seen_of_home home
  have passes := both.leads_resume (node.next next) agrees seen awaits
  rw [Naming.control_next] at passes
  cases node with
  | program | emptyStatement =>
      rw [Naming.node_eq] at passes ⊢
      exact passes
  | block place body exit =>
      rw [Naming.node_eq]
      unfold Machine.stepActive
      dsimp only
      rw [Naming.isEmpty_nodes]
      split
      · exact both.leads_resume _ agrees seen awaits
      · refine both.joins_bind (both.makes_push agrees seen) ?_
        rintro later inner following _ last passed ⟨agree, rfl, inside⟩
        have entered := both.leads_resume ((Node.block place body exit).next next) agree inside
          (.scope next (both.seen_later passed seen) (both.awaits_later passed awaits))
        rw [Naming.control_next, Naming.node_eq] at entered
        exact entered
  | scopeExit id =>
      rw [Naming.node_eq]
      exact both.leads_leftScope agrees awaits
  | handlerExit id =>
      rw [Naming.node_eq]
      exact both.leads_leftHandler agrees awaits
  | functionDeclaration place name params body =>
      have named := both.naming.declaredName?_node (.functionDeclaration place name params body)
      rw [Naming.node_eq] at named ⊢
      unfold Machine.stepActive
      dsimp only at named ⊢
      rw [named, ← Naming.code_ofDeclaration]
      cases (Node.functionDeclaration place name params body).declaredName? with
      | none => exact both.makes_throw _ agrees
      | some declared =>
          refine both.joins_bind (both.makes_of_keeps (both.keeps_declare agrees seen)) ?_
          rintro later address following again last passed ⟨agree, located, -⟩
          refine both.joins_bind
            (both.makes_of_keeps (both.keeps_close agree _ (both.seen_later passed seen))) ?_
          rintro after value further copied final onward ⟨agreed, same⟩
          refine both.joins_bind (both.makes_extend agreed (both.located_later onward located) same) ?_
          intro settled bound rest kept left moved stays
          have since := both.later_trans passed (both.later_trans onward moved)
          exact both.leads_resume next stays (both.seen_later since seen)
            (both.awaits_later since awaits)
  | declaration place declarators keyword =>
      rw [Naming.node_eq]
      exact both.leads_proceed next (both.affects_declaration truth place keyword next declarators grants
        quiet agrees home awaits) seen awaits
  | expressionStatement place expression =>
      have affects := both.affects_evaluateStatement machine.invertedTruth next expression grants quiet
        agrees home awaits
      rw [Naming.node_eq, Machine.stepActive, Machine.stepActive, truth]
      exact both.leads_proceed next affects seen awaits
  | ifStatement | whileStatement =>
      exact both.leads_tested truth next rfl grants agrees home awaits
  | returnStatement place argument =>
      rw [Naming.node_eq, Machine.stepActive_returnStatement, Machine.stepActive_returnStatement]
      refine both.joins_bind (both.makes_run (both.keeps_initialValue truth argument grants agrees home)) ?_
      rintro later ⟨value, arrived⟩ following ⟨again, reached⟩ last passed ⟨agree, same⟩
      exact both.leads_returned agree (both.awaits_later passed awaits) same
  | throwStatement place argument =>
      rw [Naming.node_eq, Machine.stepActive, Machine.stepActive, truth]
      refine both.joins_bind (both.makes_run (both.keeps_value _ argument grants agrees home)) ?_
      rintro later ⟨value, arrived⟩ following ⟨again, reached⟩ last passed ⟨agree, same⟩
      exact both.leads_thrown agree (both.awaits_later passed awaits) same
  | tryStatement place guarded handler others exit =>
      rw [Naming.node_eq]
      unfold Machine.stepActive
      dsimp only
      rw [Naming.emptyBody?_node]
      split
      · exact both.makes_throw _ agrees
      · exact both.leads_resume _ agrees seen awaits
      · refine both.joins_bind (both.makes_push agrees seen) ?_
        rintro later inner following _ last passed ⟨agree, rfl, inside⟩
        have outside := both.seen_later passed seen
        have entered := both.leads_resume ((Node.tryStatement place guarded handler others exit).next next)
          agree inside (.scope (.visit (.handlerExit exit) next) outside
            (.handler handler next outside (both.awaits_later passed awaits)))
        rw [Naming.control_next, Naming.node_eq, Naming.control_visit,
          Naming.node_eq both.naming (.handlerExit exit)] at entered
        exact entered
  | _ =>
      rw [Naming.node_eq]
      exact both.makes_throw _ agrees

variable {state again : State}

/-- An announcement shows the same source text on both sides. -/
theorem makes_announce (machine : Machine) (abreast : both.Abreast world session other state again)
    (agrees : both.Agrees world ⟨session, store⟩ ⟨other, copy⟩) :
    both.Makes world (machine.announce state) (machine.announce again) session other
      fun later _ final _ last => both.Agrees later ⟨final, store⟩ ⟨last, copy⟩ := by
  have shown : again.excerpt machine.source = state.excerpt machine.source := by
    cases abreast with
    | active node next => exact both.naming.excerpt_node node machine.source
    | halted | uncaught => rfl
  rw [Machine.announce_eq, Machine.announce_eq, shown]
  split
  · cases state.excerpt machine.source with
    | error fault => exact both.makes_throw fault agrees
    | ok text =>
        intro _
        refine ⟨world, both.later_refl world, ?_⟩
        dsimp only
        rw [Session.note_eq, Session.note_eq]
        exact both.report _ _ agrees
  · exact both.makes_pure agrees

/-- States that belong together step to states that belong together. -/
theorem leads_step (truth : second.invertedTruth = machine.invertedTruth)
    (abreast : both.Abreast world session other state again)
    (grants : ∀ node next scope store continuation,
      state = .active node next scope store continuation →
      both.Home world scope ∧ both.Grants world scope node.stepNeeds)
    (quiet : both.shows → both.naming = none ∨ machine.Withholds state session)
    (announces : ∀ store copy, both.Agrees world ⟨session, store⟩ ⟨other, copy⟩ →
      both.Makes world (machine.announce state) (second.announce again) session other
        fun later _ final _ last => both.Agrees later ⟨final, store⟩ ⟨last, copy⟩) :
    both.Leads world (machine.step state) (second.step again) session other := by
  cases abreast with
  | active node next agrees seen awaits =>
      refine both.joins_ran (fun _ => inferInstance) (announces _ _ agrees) ?_
      intro later _ following _ last announced passed agree
      obtain ⟨home, granted⟩ := grants _ _ _ _ _ rfl
      have handed : both.Quiet (node.handed machine.invertedTruth _) ⟨following, _⟩ :=
        fun shows => (quiet shows).imp_right fun withheld => withheld.of_announced announced
      exact both.leads_stepActive truth node next (both.grants_later passed granted) handed agree
        (both.home_later passed home) (both.awaits_later passed awaits)
  | halted agrees seen awaits =>
      refine both.joins_bind (announces _ _ agrees) ?_
      intro later _ following _ last passed agree
      exact both.makes_throw _ agree
  | uncaught agrees same =>
      refine both.joins_bind (announces _ _ agrees) ?_
      intro later _ following _ last passed agree
      exact both.makes_throw _ agree

end

end Correspondence

end ScriptMachine
