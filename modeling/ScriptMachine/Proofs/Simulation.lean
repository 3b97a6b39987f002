/-
This file compares the steps of the machine with evaluation by recursion on trees. Main statement: at
every depth, what a statement comes to is what the run of the machine comes to from that statement,
and a run lasts at least as long as the depth that was used up.
-/

import ScriptMachine.Proofs.Outcome
import ScriptMachine.Proofs.Placement
import ScriptMachine.Proofs.Structured

namespace ScriptMachine

/-- How a completed statement is handed on by the machine: control goes on after it, a value is
returned to the innermost call, or a value is thrown. After the body of a function nothing follows,
and undefined is returned. -/
def Completion.deliver (next : Control) (scope : Scope) (continuation : Continuation)
    (completion : Completion) (store : Store) : Action State :=
  match completion with
  | .normal =>
      match next with
      | .nowhere => Continuation.returned .undefined store continuation
      | .done => State.resume .done scope store continuation
      | .visit node after => State.resume (.visit node after) scope store continuation
  | .returned value => Continuation.returned value store continuation
  | .thrown value => Continuation.thrown value store continuation

/-- A statement that ends normally goes on behind itself. -/
theorem Completion.deliver_normal {next : Control} (goesOn : next ≠ .nowhere) (scope : Scope)
    (continuation : Continuation) (store : Store) :
    Completion.deliver next scope continuation .normal store =
      State.resume next scope store continuation := by
  cases next with
  | nowhere => exact absurd rfl goesOn
  | done => rfl
  | visit node after => rfl

/-- A statement completes normally exactly where its scope would be left. -/
theorem Completion.deliver_leftScope (next : Control) (scope : Scope) (continuation : Continuation)
    (store : Store) :
    Continuation.leftScope store (.scope next scope :: continuation) =
      Completion.deliver next scope continuation .normal store := by
  cases next <;> rfl

/-- A draft that makes a state, started from a session and a store. -/
def Draft.outcome (work : Draft State) (scratch : Scratch) : Outcome :=
  match work scratch with
  | .ok state after => .ok state after.session
  | .error fault after => .error fault after.session

variable {scratch : Scratch} {fault : Fault} {A B : Type} {first : Draft B} {second : B → Draft State}
  {draft : Draft A} {session : Session} {store : Store} {value : A} {action : Action A}

/-- What follows a draft that ends starts from where it ended. -/
theorem Draft.outcome_of_ok {after : Scratch} {value : B} (ended : first scratch = .ok value after) :
    Draft.outcome (first >>= second) scratch = Draft.outcome (second value) after := by
  unfold Draft.outcome
  rw [bind_of_ok ended]

/-- A draft that fails leaves its session behind. -/
theorem Draft.outcome_of_error {after : Scratch} (ended : first scratch = .error fault after) :
    Draft.outcome (first >>= second) scratch = .error fault after.session := by
  unfold Draft.outcome
  rw [bind_of_error ended]

/-- An action inside a draft has the outcome of the action. -/
theorem Draft.outcome_lift (work : Action State) (scratch : Scratch) :
    Draft.outcome (liftM work) scratch = work scratch.session := by
  change Draft.outcome (Draft.ofAction work) scratch = _
  unfold Draft.outcome Draft.ofAction
  cases work scratch.session <;> rfl

/-- An action on the store of a draft has the outcome of the action. -/
theorem Draft.outcome_store (work : Store → Action State) (scratch : Scratch) :
    Draft.outcome (do
      let store ← Draft.store
      work store) scratch = work scratch.store scratch.session := by
  have stored : Draft.store scratch = .ok scratch.store scratch := rfl
  rw [Draft.outcome_of_ok stored, Draft.outcome_lift]

theorem Draft.run_of_ok {after : Scratch} (ended : draft ⟨session, store⟩ = .ok value after) :
    draft.run store session = .ok (value, after.store) after.session := by
  unfold Draft.run
  rw [ended]

theorem Draft.run_of_error {after : Scratch} (ended : draft ⟨session, store⟩ = .error fault after) :
    draft.run store session = .error fault after.session := by
  unfold Draft.run
  rw [ended]

theorem Draft.lift_of_ok {after : Scratch} (ended : (liftM action : Draft A) scratch = .ok value after) :
    action scratch.session = .ok value after.session ∧ after.store = scratch.store := by
  change Draft.ofAction action scratch = _ at ended
  unfold Draft.ofAction at ended
  split at ended
  · rename_i acted
    cases ended
    exact ⟨acted, rfl⟩
  · cases ended

theorem Draft.lift_of_error {after : Scratch}
    (ended : (liftM action : Draft A) scratch = .error fault after) :
    action scratch.session = .error fault after.session := by
  change Draft.ofAction action scratch = _ at ended
  unfold Draft.ofAction at ended
  split at ended
  · cases ended
  · rename_i acted
    cases ended
    exact acted

/-- What has an own body is no exit. -/
theorem Node.isExit_of_emptyBody {node : Node} {empty : Bool} (body : node.emptyBody? = some empty) :
    node.isExit = false := by
  cases node with
  | scopeExit id | handlerExit id => cases body
  | _ => rfl

namespace Machine

/-- Outcomes whose states are in order. -/
def InOrder (program : Node) : Outcome → Prop
  | .ok state _ => state.Sound program false
  | .error .. => True

/-- A run accounts for a course that starts where the run stands: it lasts as long as the depth if the
course does not complete, and otherwise comes to what the completion or the fault leads to. -/
def Accounts (machine : Machine) (program : Node) (depth : Nat) (start : Outcome) (course : Course)
    (scratch : Scratch) (deliver : Completion → Store → Action State) : Prop :=
  InOrder program start → Ends course scratch
    (fun result after => match result with
      | none => machine.Lasts depth start
      | some completion => machine.Onward start (deliver completion after.store after.session))
    (fun fault after => machine.Onward start (.error fault after.session))

/-- Executing a statement is accounted for at every state that stands at the statement. -/
def Simulates (machine : Machine) (program : Node) (depth : Nat) (execute : Scope → Node → Course) :
    Prop :=
  ∀ node next scope store continuation session, node.isExit = false →
    machine.Accounts program depth (.ok (.active node next scope store continuation) session)
      (execute scope node) ⟨session, store⟩ (Completion.deliver next scope continuation)

section

variable {machine : Machine} {program : Node} {depth : Nat} {start later : Outcome} {scratch : Scratch}
  {deliver between : Completion → Store → Action State} {completion : Completion}
  {state : State} {body : List Node} {inner : Scope}

/-- A course that has ended delivers its completion. -/
theorem accounts_pure (comes : machine.Onward start (deliver completion scratch.store scratch.session)) :
    machine.Accounts program depth start (pure (some completion)) scratch deliver :=
  fun _ => comes

/-- A course that fails fails with the run. -/
theorem accounts_fail (comes : start = .error fault scratch.session) :
    machine.Accounts program depth start (Draft.fail fault) scratch deliver := by
  intro _
  rw [comes]
  exact .refl

variable {B : Type} {first : Draft B} {second : B → Course} {course : Course} {inFunction : Bool} {id : Nat}
  {handler : Node}

/-- Work that a run shares with a course is done by both at once. -/
theorem accounts_bind
    (fails : ∀ fault after, first scratch = .error fault after → start = .error fault after.session)
    (goesOn : ∀ value after, first scratch = .ok value after →
      machine.Accounts program depth start (second value) after deliver) :
    machine.Accounts program depth start (first >>= second) scratch deliver := by
  intro inOrder
  rw [ends_bind]
  cases ended : first scratch with
  | ok value after => simpa only [Ends, ended] using goesOn value after ended inOrder
  | error fault after =>
      simp only [Ends, ended]
      rw [fails fault after ended]
      exact .refl

/-- A course may begin with a draft of the run. -/
theorem accounts_draft {work : B → Draft State}
    (goesOn : ∀ value after, first scratch = .ok value after →
      machine.Accounts program depth ((work value).outcome after) (second value) after deliver) :
    machine.Accounts program depth (Draft.outcome (first >>= work) scratch) (first >>= second) scratch
      deliver := by
  apply accounts_bind
  · intro fault after ended
    exact Draft.outcome_of_error ended
  · intro value after ended
    rw [Draft.outcome_of_ok ended]
    exact goesOn value after ended

/-- A course may begin with a draft that is run on its own. -/
theorem accounts_run {work : B × Store → Action State}
    (goesOn : ∀ value after, first ⟨session, store⟩ = .ok value after →
      machine.Accounts program depth (work (value, after.store) after.session) (second value) after
        deliver) :
    machine.Accounts program depth ((first.run store >>= work) session) (first >>= second)
      ⟨session, store⟩ deliver := by
  apply accounts_bind
  · intro fault after ended
    exact bind_of_error (Draft.run_of_error ended)
  · intro value after ended
    rw [bind_of_ok (Draft.run_of_ok ended)]
    exact goesOn value after ended

/-- A course may begin with an action of the run. -/
theorem accounts_lift {first : Action B} {work : B → Action State}
    (goesOn : ∀ value after, first session = .ok value after →
      machine.Accounts program depth (work value after) (second value) ⟨after, store⟩ deliver) :
    machine.Accounts program depth ((first >>= work) session) (liftM first >>= second)
      ⟨session, store⟩ deliver := by
  apply accounts_bind
  · intro fault after ended
    exact bind_of_error (Draft.lift_of_error ended)
  · rintro value ⟨after, kept⟩ ended
    obtain ⟨acted, rfl⟩ := Draft.lift_of_ok ended
    rw [bind_of_ok acted]
    exact goesOn value after acted

/-- A course may begin by binding a value. -/
theorem accounts_extend {work : Store → Action State} {second : Unit → Course} {address : Address}
    {value : Value}
    (goesOn : ∀ bound, machine.Accounts program depth (work bound session) (second ())
      ⟨session, bound⟩ deliver) :
    machine.Accounts program depth
      ((Action.fromExcept (store.extend address value) >>= work) session)
      (Draft.extend address value >>= second) ⟨session, store⟩ deliver := by
  intro inOrder
  rw [ends_bind, ends_extend]
  cases extended : store.extend address value with
  | ok bound =>
      rw [extended] at inOrder
      exact goesOn bound inOrder
  | error fault => exact .refl

/-- A course that is delivered in a way that leads to another one. -/
theorem Accounts.delivered (accounts : machine.Accounts program depth start course scratch between)
    (leads : ∀ completion store session,
      machine.Onward (between completion store session) (deliver completion store session)) :
    machine.Accounts program depth start course scratch deliver := by
  intro inOrder
  refine (accounts inOrder).weaken ?_ fun _ _ outcome => outcome
  intro result after outcome
  cases result with
  | none => exact outcome
  | some completion => exact outcome.trans (leads completion after.store after.session)

variable {execute : Scope → Node → Course} {next : Control} {scope : Scope} {store : Store}
  {continuation : Continuation} {session : Session}

/-- A course that goes on behind a statement has ended normally. -/
theorem accounts_arrive (goesOn : next ≠ .nowhere) :
    machine.Accounts program depth (State.resume next scope store continuation session)
      (pure (some .normal)) ⟨session, store⟩ (Completion.deliver next scope continuation) := by
  apply accounts_pure
  rw [Completion.deliver_normal goesOn]
  exact .refl

/-- A value that is returned to a call is taken by the statement that made it. -/
theorem accounts_accept (goesOn : next ≠ .nowhere) (target : Target) (value : Value) :
    machine.Accounts program depth
      (Continuation.returned value store (.call target next scope :: continuation) session)
      (do
        Structured.accept target scope value
        return some .normal)
      ⟨session, store⟩ (Completion.deliver next scope continuation) := by
  unfold Continuation.returned Continuation.bindResult Structured.accept
  cases target with
  | slot name =>
      dsimp only
      rw [bind_assoc, bind_assoc]
      apply accounts_lift
      intro address after _
      apply accounts_extend
      intro bound
      exact accounts_arrive goesOn
  | location address =>
      apply accounts_extend
      intro bound
      exact accounts_arrive goesOn
  | discard => exact accounts_arrive goesOn

/-- A call that was entered is left to itself. -/
theorem proceed_entered (work : Draft State) :
    proceed (do return .entered (← work)) next scope store continuation session =
      work.outcome ⟨session, store⟩ := by
  unfold proceed Draft.outcome
  cases ended : work ⟨session, store⟩ with
  | ok state after =>
      have draft : (do return Effect.entered (← work) : Draft Effect) ⟨session, store⟩ =
          .ok (.entered state) after := bind_of_ok ended
      rw [bind_of_ok (Draft.run_of_ok draft)]
      rfl
  | error fault after =>
      have draft : (do return Effect.entered (← work) : Draft Effect) ⟨session, store⟩ =
          .error fault after := bind_of_error ended
      rw [bind_of_error (Draft.run_of_error draft)]

/-- A statement goes on from where its first draft ended. -/
theorem proceed_of_ok {work : B → Draft Effect} {value : B} {after : Scratch}
    (ended : first ⟨session, store⟩ = .ok value after) :
    proceed (first >>= work) next scope store continuation session =
      proceed (work value) next scope after.store continuation after.session := by
  have same : (first >>= work).run store session = (work value).run after.store after.session := by
    unfold Draft.run
    rw [bind_of_ok ended]
  unfold proceed
  cases ran : (work value).run after.store after.session with
  | ok result last => rw [bind_of_ok ran, bind_of_ok (same.trans ran)]
  | error fault last => rw [bind_of_error ran, bind_of_error (same.trans ran)]

/-- A statement may begin with a draft of the course. -/
theorem accounts_proceed {work : B → Draft Effect}
    (goesOn : ∀ value after, first ⟨session, store⟩ = .ok value after →
      machine.Accounts program depth
        (proceed (work value) next scope after.store continuation after.session) (second value) after
        deliver) :
    machine.Accounts program depth
      (proceed (first >>= work) next scope store continuation session) (first >>= second)
      ⟨session, store⟩ deliver := by
  apply accounts_bind
  · intro fault after ended
    exact bind_of_error (Draft.run_of_error (bind_of_error ended))
  · intro value after ended
    rw [proceed_of_ok ended]
    exact goesOn value after ended

variable (formed : program.isWellFormed false = true) (owns : program.OwnsExits)
include formed owns

/-- A step from a state in order leads to a state in order. -/
theorem InOrder.step (active : state.isDone = false) (inOrder : InOrder program (.ok state session)) :
    InOrder program (machine.step state session) := by
  have leads : Leads program false session _ := machine.leads_step formed owns (by simp) active inOrder
  cases stepped : machine.step state session with
  | ok next after => exact leads.of_ok stepped
  | error fault after => trivial

/-- A run that goes on stays in order. -/
theorem InOrder.onward (onward : machine.Onward start later) (inOrder : InOrder program start) :
    InOrder program later := by
  induction onward with
  | refl => exact inOrder
  | step active _ ih => exact ih (inOrder.step formed owns active)

/-- A step of a run stands for one level of depth. -/
theorem Accounts.step (active : state.isDone = false)
    (accounts : machine.Accounts program depth (machine.step state session) course scratch deliver) :
    machine.Accounts program (depth + 1) (.ok state session) course scratch deliver := by
  intro inOrder
  refine (accounts (inOrder.step formed owns active)).weaken ?_ ?_
  · intro result after outcome
    cases result with
    | none => exact ⟨active, outcome⟩
    | some completion => exact .step active outcome
  · intro fault after outcome
    exact .step active outcome

/-- What a run accounts for later it has accounted for before. -/
theorem Accounts.after (onward : machine.Onward start later)
    (accounts : machine.Accounts program depth later course scratch deliver) :
    machine.Accounts program depth start course scratch deliver := by
  intro inOrder
  refine (accounts (inOrder.onward formed owns onward)).weaken ?_ ?_
  · intro result after outcome
    cases result with
    | none => exact onward.lasts outcome
    | some completion => exact onward.trans outcome
  · intro fault after outcome
    exact onward.trans outcome

/-- A course that goes on with what another one completes with. -/
theorem Accounts.bind {first : Course} {second : Option Completion → Course}
    (accounts : machine.Accounts program depth start first scratch between)
    (stops : second none = pure none)
    (goesOn : ∀ completion after,
      machine.Accounts program depth (between completion after.store after.session)
        (second (some completion)) after deliver) :
    machine.Accounts program depth start (first >>= second) scratch deliver := by
  intro inOrder
  rw [ends_bind]
  refine (accounts inOrder).weaken ?_ fun _ _ outcome => outcome
  intro result after outcome
  cases result with
  | none =>
      rw [stops]
      exact outcome
  | some completion => exact Accounts.after formed owns outcome (goesOn completion after) inOrder

section

variable (simulates : machine.Simulates program depth execute)
include simulates

/-- Statements that follow one another lead to what follows the last of them. -/
theorem accounts_sequence (goesOn : next ≠ .nowhere)
    (statements : Node.areStatements false inFunction body = true) :
    machine.Accounts program depth
      (State.resume (.through body next) scope store continuation session)
      (Structured.sequence (execute scope) body) ⟨session, store⟩
      (Completion.deliver next scope continuation) := by
  induction body generalizing store session with
  | nil => exact accounts_arrive goesOn
  | cons statement rest ih =>
      have onward : Control.through rest next ≠ .nowhere := by
        cases rest with
        | nil => exact goesOn
        | cons following others => exact Control.noConfusion
      simp only [Node.areStatements, Bool.and_eq_true] at statements
      unfold Structured.sequence
      refine Accounts.bind formed owns (simulates statement (.through rest next) scope store
        continuation session (Node.isExit_of_isStatement statements.1)) rfl ?_
      intro completion after
      cases completion with
      | normal =>
          rw [Completion.deliver_normal onward]
          exact ih statements.2
      | returned value => exact accounts_pure .refl
      | thrown value => exact accounts_pure .refl

/-- The body of a function runs above the call that waits for its value. -/
theorem accounts_enter (goesOn : next ≠ .nowhere) (target : Target) (closure : Closure)
    (arguments : List Value) (scratch : Scratch) :
    machine.Accounts program depth
      ((closure.enter arguments ⟨target, next, scope, continuation⟩).outcome scratch)
      (do
        let inner ← Scope.enter Session.machineAllocator closure.scope.chain
        bindParams inner closure.code.params arguments
        match ← Structured.body (execute inner) closure.code.body with
        | some .normal => do
            Structured.accept target scope .undefined
            return some .normal
        | some (.returned value) => do
            Structured.accept target scope value
            return some .normal
        | other => return other)
      scratch (Completion.deliver next scope continuation) := by
  unfold Closure.enter
  apply accounts_draft
  intro inner entered _
  apply accounts_draft
  intro _ bound _
  unfold Structured.body
  cases emptiness : closure.code.body.emptyBody? with
  | none => exact accounts_fail rfl
  | some empty =>
      cases empty with
      | true =>
          dsimp only
          rw [Draft.outcome_store]
          exact accounts_accept goesOn target .undefined
      | false =>
          dsimp only
          rw [Draft.outcome_store]
          refine Accounts.bind formed owns (simulates closure.code.body .nowhere inner bound.store
            (.call target next scope :: continuation) bound.session
            (Node.isExit_of_emptyBody emptiness)) rfl ?_
          intro completion after
          cases completion with
          | normal => exact accounts_accept goesOn target .undefined
          | returned value => exact accounts_accept goesOn target value
          | thrown value => exact accounts_pure .refl

/-- A call leads to what the function that it enters leads to. -/
theorem accounts_call (goesOn : next ≠ .nowhere) (inverted : Bool) (target : Target) (callee : Node)
    (arguments : List Node) (scratch : Scratch) :
    machine.Accounts program depth
      ((callFrom inverted ⟨target, next, scope, continuation⟩ callee arguments).outcome scratch)
      (Structured.call inverted execute target scope callee arguments) scratch
      (Completion.deliver next scope continuation) := by
  unfold callFrom Structured.call
  apply accounts_draft
  intro value evaluated _
  cases value with
  | builtin identity arity name routine =>
      apply accounts_draft
      intro values passed _
      apply accounts_draft
      intro answer answered _
      rw [Draft.outcome_store]
      exact accounts_accept goesOn target answer
  | function closure =>
      apply accounts_draft
      intro _ noted _
      apply accounts_draft
      intro values passed _
      exact accounts_enter formed owns simulates goesOn target closure values passed
  | _ =>
      apply accounts_draft
      intro _ noted _
      exact accounts_fail rfl

/-- An expression in the place of a statement leads to what follows, unless it enters a call. -/
theorem accounts_expression (goesOn : next ≠ .nowhere) (inverted : Bool) (expression : Node) :
    machine.Accounts program depth
      (proceed (expression.evaluateStatement inverted scope continuation next) next scope store
        continuation session)
      (Structured.expression inverted execute scope expression) ⟨session, store⟩
      (Completion.deliver next scope continuation) := by
  fun_cases Structured.expression inverted execute scope expression with
  | case1 place callee arguments =>
      rw [Node.evaluateStatement, proceed_entered]
      exact accounts_call formed owns simulates goesOn inverted .discard callee arguments _
  | case2 place left inner callee arguments =>
      rw [Node.evaluateStatement]
      apply accounts_proceed
      intro operand evaluated _
      cases operand.address? with
      | none => exact accounts_fail rfl
      | some address =>
          dsimp only
          rw [proceed_entered]
          exact accounts_call formed owns simulates goesOn inverted (.location address) callee
            arguments _
  | case3 =>
      rw [Node.evaluateStatement]
      apply accounts_proceed
      intro operand evaluated _
      exact accounts_arrive goesOn
      all_goals assumption

/-- A declaration leads to what follows, unless it enters a call. -/
theorem accounts_declaration (goesOn : next ≠ .nowhere) (keyword : Tree) (declarators : List Node) :
    machine.Accounts program depth
      (proceed (machine.declaration declarators keyword next scope continuation) next scope store
        continuation session)
      (Structured.declaration machine execute scope keyword declarators) ⟨session, store⟩
      (Completion.deliver next scope continuation) := by
  fun_cases Structured.declaration machine execute scope keyword declarators with
  | case1 place target inner callee arguments =>
      rw [declaration, proceed_entered]
      exact accounts_call formed owns simulates goesOn machine.invertedTruth
        (.choose target.name none) callee arguments _
  | case2 =>
      rw [declaration]
      exact accounts_fail rfl
      all_goals assumption
  | case3 => exact accounts_fail rfl
  | case4 =>
      rw [declaration]
      apply accounts_proceed
      intro _ declared _
      exact accounts_arrive goesOn
      all_goals assumption

/-- A loop leads through its body back to itself, as long as its test says so and the body ends
normally. -/
theorem accounts_whileStatement (goesOn : next ≠ .nowhere) {place : Place} {test body : Node}
    (repeats : body.isExit = false) :
    machine.Accounts program depth
      (machine.stepActive (.whileStatement place test body) next scope store continuation session)
      (Structured.statement machine execute scope (.whileStatement place test body))
      ⟨session, store⟩ (Completion.deliver next scope continuation) := by
  unfold stepActive Structured.statement
  apply accounts_run
  intro truth after _
  cases truth with
  | true =>
      refine Accounts.bind formed owns (simulates body
        (.visit (.whileStatement place test body) next) scope after.store continuation
        after.session repeats) rfl ?_
      intro completion repeated
      cases completion with
      | normal =>
          exact simulates (.whileStatement place test body) next scope repeated.store continuation
            repeated.session rfl
      | returned value => exact accounts_pure .refl
      | thrown value => exact accounts_pure .refl
  | false => exact accounts_arrive goesOn

end

variable (quiet : machine.config.debug = false)
include quiet

omit formed owns in
theorem step_active {node : Node} :
    machine.step (.active node next scope store continuation) session =
      machine.stepActive node next scope store continuation session := by
  unfold step announce
  rw [quiet]
  rfl

omit formed owns in
/-- At the exit of a scope the scope is left. -/
theorem onward_scopeExit {after : Control} :
    machine.Onward
      (Completion.deliver (.visit (.scopeExit id) after) inner (.scope next scope :: continuation)
        completion store session)
      (Completion.deliver next scope continuation completion store session) := by
  cases completion with
  | normal =>
      apply Onward.step rfl
      rw [step_active quiet, ← Completion.deliver_leftScope]
      exact .refl
  | returned value => exact .refl
  | thrown value => exact .refl

/-- The statements of a block run in its scope, which is left after them. -/
theorem accounts_scope (simulates : machine.Simulates program depth execute) {after : Control}
    (statements : Node.areStatements false inFunction body = true) :
    machine.Accounts program depth
      (State.resume (.through body (.visit (.scopeExit id) after)) inner store
        (.scope next scope :: continuation) session)
      (Structured.sequence (execute inner) body) ⟨session, store⟩
      (Completion.deliver next scope continuation) := by
  apply Accounts.delivered (accounts_sequence formed owns simulates Control.noConfusion statements)
  intro completion bound later
  exact onward_scopeExit quiet

/-- What a protected block throws is caught by its clause. -/
theorem accounts_rescue (simulates : machine.Simulates program depth execute) (goesOn : next ≠ .nowhere)
    (clause : handler.isClause false inFunction = true) (exits : handler.OwnsExits) (value : Value) :
    machine.Accounts program depth
      (Continuation.caught handler scope next value store continuation session)
      (Structured.rescue execute scope value handler) ⟨session, store⟩
      (Completion.deliver next scope continuation) := by
  obtain ⟨place, param, body, rfl, -, block⟩ := Node.exists_of_isClause clause
  obtain ⟨inner, body, exit, rfl, statements⟩ := Node.exists_of_isBlock block
  cases body with
  | nil => exact accounts_arrive goesOn
  | cons first rest =>
      have owned : (Node.block inner (first :: rest) exit).ownsExit = true :=
        exits _ (.part .self (by simp [Node.parts]))
      cases exit with
      | none => simp [Node.ownsExit] at owned
      | some id =>
          unfold Continuation.caught Structured.rescue
          apply accounts_lift
          intro entered pushed _
          apply accounts_lift
          intro address declared _
          apply accounts_extend
          intro bound
          exact accounts_scope formed owns quiet simulates statements

omit formed owns in
/-- At the exit of a protected block its handler is left. -/
theorem onward_handlerExit (goesOn : next ≠ .nowhere) :
    machine.Onward
      (Completion.deliver (.visit (.handlerExit id) next) scope
        (.handler handler scope next :: continuation) .normal store session)
      (Completion.deliver next scope continuation .normal store session) := by
  apply Onward.step rfl
  rw [step_active quiet, Completion.deliver_normal goesOn]
  exact .refl

/-- A protected block runs above its handler. -/
theorem accounts_guard (simulates : machine.Simulates program depth execute) (goesOn : next ≠ .nowhere)
    {place : Place} {guarded : Node} {others : List Node} {exit : Nat}
    (block : guarded.isBlock false inFunction = true) (clause : handler.isClause false inFunction = true)
    (exits : (Node.tryStatement place guarded handler others exit).OwnsExits) :
    machine.Accounts program depth
      (machine.stepActive (.tryStatement place guarded handler others exit) next scope store
        continuation session)
      (Structured.guard execute scope handler guarded) ⟨session, store⟩
      (Completion.deliver next scope continuation) := by
  have inside : handler.OwnsExits := fun node within =>
    exits node (Node.Within.trans (.part .self (by simp [Node.parts])) within)
  obtain ⟨inner, body, innerExit, rfl, statements⟩ := Node.exists_of_isBlock block
  cases body with
  | nil => exact accounts_arrive goesOn
  | cons first rest =>
      have owned : (Node.block inner (first :: rest) innerExit).ownsExit = true :=
        exits _ (.part .self (by simp [Node.parts]))
      cases innerExit with
      | none => simp [Node.ownsExit] at owned
      | some id =>
          unfold stepActive Structured.guard
          apply accounts_lift
          intro entered pushed _
          refine Accounts.bind formed owns
            (accounts_scope formed owns quiet simulates statements) rfl ?_
          intro completion after
          cases completion with
          | normal => exact accounts_pure (onward_handlerExit quiet goesOn)
          | returned value => exact accounts_pure .refl
          | thrown value => exact accounts_rescue formed owns quiet simulates goesOn clause inside value

/-- Where the statements inside a statement are accounted for, so is the statement. -/
theorem Simulates.statement (simulates : machine.Simulates program depth execute) :
    machine.Simulates program (depth + 1) (Structured.statement machine execute) := by
  intro node next scope store continuation session notExit inOrder
  have sound := inOrder
  obtain ⟨⟨inFunction, layers, position, -⟩, -⟩ := sound
  have standing := position.standing formed
  have exits := position.ownsExits owns
  have statement := fun notProgram => standing.isStatement notProgram notExit formed
  have goesOn := position.next_ne_nowhere formed owns notExit
  refine Accounts.step formed owns rfl ?_ inOrder
  rw [step_active quiet]
  cases node with
  | program place body =>
      have encloses : (Node.program place body).Encloses next ⟨body, none, next, []⟩ := .program
      have statements : Node.areStatements false inFunction body = true :=
        Node.areStatements_iff.mpr (standing.isStatement_of_encloses formed encloses)
      exact accounts_sequence formed owns simulates (goesOn rfl) statements
  | emptyStatement place => exact accounts_arrive (goesOn rfl)
  | block place body exit =>
      cases body with
      | nil => exact accounts_arrive (goesOn rfl)
      | cons first rest =>
          have statements := statement rfl
          rw [Node.isStatement] at statements
          have owned := exits _ .self
          cases exit with
          | none => simp [Node.ownsExit] at owned
          | some id =>
              unfold stepActive Structured.statement
              apply accounts_lift
              intro inner pushed _
              exact accounts_scope formed owns quiet simulates statements
  | functionDeclaration place name params body =>
      unfold stepActive Structured.statement
      dsimp only
      cases Node.declaredName? (.functionDeclaration place name params body) with
      | none => exact accounts_fail rfl
      | some declared =>
          apply accounts_lift
          intro address afterAddress _
          apply accounts_lift
          intro value afterValue _
          apply accounts_extend
          intro bound
          exact accounts_arrive (goesOn rfl)
  | declaration place declarators keyword =>
      exact accounts_declaration formed owns simulates (goesOn rfl) keyword declarators
  | expressionStatement place expression =>
      exact accounts_expression formed owns simulates (goesOn rfl) machine.invertedTruth expression
  | ifStatement place test consequent alternate =>
      have inner := statement rfl
      simp only [Node.isStatement, Bool.and_eq_true, Bool.or_eq_true] at inner
      unfold stepActive Structured.statement
      apply accounts_run
      intro truth after _
      cases truth with
      | true =>
          exact simulates consequent next scope after.store continuation after.session
            (Node.isExit_of_isStatement inner.1.2)
      | false =>
          dsimp only
          split
          · exact accounts_arrive (goesOn rfl)
          · rename_i present
            exact simulates alternate next scope after.store continuation after.session
              (Node.isExit_of_isStatement (inner.2.resolve_left present))
  | whileStatement place test body =>
      have inner := statement rfl
      simp only [Node.isStatement, Bool.and_eq_true] at inner
      exact accounts_whileStatement formed owns simulates (goesOn rfl)
        (Node.isExit_of_isStatement inner.2)
  | returnStatement place argument =>
      have evaluated : machine.Accounts program depth
          (((argument.value machine.invertedTruth scope).run store >>= fun result =>
            Continuation.returned result.1 result.2 continuation) session)
          (do
            let value ← argument.value machine.invertedTruth scope
            return some (.returned value))
          ⟨session, store⟩ (Completion.deliver next scope continuation) := by
        apply accounts_run
        intro value after _
        exact accounts_pure .refl
      cases argument with
      | absent => exact accounts_pure .refl
      | _ => exact evaluated
  | throwStatement place argument =>
      unfold stepActive Structured.statement
      apply accounts_run
      intro value after _
      exact accounts_pure .refl
  | tryStatement place guarded handler others exit =>
      have inner := statement rfl
      simp only [Node.isStatement, Bool.and_eq_true] at inner
      exact accounts_guard formed owns quiet simulates (goesOn rfl) inner.1 inner.2 exits
  | scopeExit id | handlerExit id => cases notExit
  -- No other node stands as a statement.
  | _ =>
      have inner := statement rfl
      simp [Node.isStatement] at inner

/-- Executing statements to a depth is accounted for. -/
theorem simulates_execute (depth : Nat) :
    machine.Simulates program depth (Structured.execute machine depth) := by
  induction depth with
  | zero =>
      intro node next scope store continuation session _ _
      trivial
  | succ depth ih => exact Simulates.statement formed owns quiet ih

end

end Machine

end ScriptMachine
