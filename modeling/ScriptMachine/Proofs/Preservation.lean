/-
This file follows well-formed programs through the steps of the machine: calls, values returned and thrown,
scopes and handlers left. Main statement: a step from a state in order leads to a state in order, or fails
in one of a few ways.
-/

import ScriptMachine.Proofs.Equation
import ScriptMachine.Proofs.Propriety

namespace ScriptMachine

/-- Pending work binds only names that fit. -/
def Pending.fits (plain : Bool) : Pending → Bool
  | .call (.slot name) _ _ => name.fits plain
  | _ => true

/-- All that is pending binds only names that fit. -/
def Continuation.Fits (plain : Bool) (continuation : Continuation) : Prop :=
  ∀ pending ∈ continuation, pending.fits plain = true

/-- A state in order: an active one stands at a position that its continuation fits, and once the
program has ended nothing is pending. -/
def State.Sound (program : Node) (plain : Bool) : State → Prop
  | .active node next _ store continuation =>
      (∃ inFunction layers, Position program inFunction node next layers ∧
        Stacked program inFunction layers continuation) ∧
      store.Proper program ∧ continuation.Fits plain
  | .halted _ store continuation => continuation = [] ∧ store.Proper program
  | .uncaught value store => store.Proper program ∧ value.Proper program

/-- An action or a draft that leads to a state in order. -/
def Leads {S : Type} (program : Node) (plain : Bool) (start : S) (work : EStateM Fault S State) : Prop :=
  Safe plain start work fun state _ => state.Sound program plain

/-- What evaluation in the place of a statement comes to is in order. -/
def Draft.Affects (program : Node) (plain : Bool) (scratch : Scratch) (work : Draft Effect) : Prop :=
  Safe plain scratch work fun effect final =>
    match effect with
    | .entered state => state.Sound program plain
    | .operand _ => final.store.Proper program

section Events

variable {program : Node} {plain inFunction : Bool} {session : Session} {store : Store} {scope : Scope}
  {layers : List Layer} {continuation : Continuation} {value : Value}

/-- Running a safe draft is safe. -/
theorem Safe.run {A : Type} {draft : Draft A} {good : A → Scratch → Prop}
    (safe : Safe plain ⟨session, store⟩ draft good) :
    Safe plain session (draft.run store) fun result after => good result.1 ⟨after, result.2⟩ := by
  unfold Safe
  rw [ends_run]
  exact safe

/-- Inside a draft an action leads to where it leads. -/
theorem Leads.lift {scratch : Scratch} {work : Action State} (leads : Leads program plain scratch.session work) :
    Leads program plain scratch (liftM work : Draft State) := by
  unfold Leads Safe
  rw [ends_liftAction]
  exact leads

/-- A scope can always be opened. -/
theorem safe_push : Safe plain session scope.push fun _ _ => True := trivial

/-- Extending a store by a proper value keeps it proper. -/
theorem safe_extend {address : Address} (proper : store.Proper program) (good : value.Proper program) :
    Safe plain session (Action.fromExcept (store.extend address value))
      fun bound _ => bound.Proper program := by
  unfold Safe
  rw [ends_fromExcept]
  cases extended : store.extend address value with
  | error fault => exact Store.permitted_of_extend extended
  | ok bound => exact proper.extend good extended

/-- Binding the value of a call keeps a store proper. -/
theorem safe_bindResult {target : Target} {resume : Control} (proper : store.Proper program)
    (fits : (Pending.call target resume scope).fits plain = true) (good : value.Proper program) :
    Safe plain session (Continuation.bindResult target scope value store)
      fun bound _ => bound.Proper program := by
  cases target with
  | slot name => exact Safe.bind (safe_declare fits) fun _ _ _ => safe_extend proper good
  | location address => exact safe_extend proper good
  | discard => exact proper

/-- Control goes on at a position, or ends the run with nothing pending. -/
theorem leads_resume {control : Control} (follows : Follows program inFunction control layers)
    (somewhere : control ≠ .nowhere) (stacked : Stacked program inFunction layers continuation)
    (proper : store.Proper program) (fits : continuation.Fits plain) :
    Leads program plain session (State.resume control scope store continuation) := by
  unfold Leads Safe
  rw [ends_resume]
  cases follows with
  | nowhere => exact absurd rfl somewhere
  | done =>
      cases stacked
      exact ⟨rfl, proper⟩
  | visit position => exact ⟨⟨inFunction, layers, position, stacked⟩, proper, fits⟩

variable (formed : program.isWellFormed plain = true) (owns : program.OwnsExits)
include formed owns

/-- A value is returned to the innermost call, which goes on where it stands. -/
theorem leads_returned (stacked : Stacked program true layers continuation) (proper : store.Proper program)
    (good : value.Proper program) (fits : continuation.Fits plain) :
    Leads program plain session (Continuation.returned value store continuation) := by
  induction continuation generalizing layers with
  | nil => cases stacked
  | cons pending rest ih =>
      obtain ⟨fit, below⟩ := List.forall_mem_cons.mp fits
      cases stacked with
      | call position calls stacked =>
          obtain ⟨follows, somewhere⟩ := position.follows_call formed owns calls
          refine Safe.bind (safe_bindResult proper fit good) fun bound _ kept => ?_
          exact leads_resume follows somewhere stacked kept below
      | scope follows stacked => exact ih stacked below
      | handler position stacked => exact ih stacked below

variable {resume : Control} {clause : Node}

/-- A statement that is done goes on to what follows it. -/
theorem leads_onward {node : Node} (position : Position program inFunction node resume layers)
    (notExit : node.isExit = false) (notFilled : node.isFilledBlock = false)
    (stacked : Stacked program inFunction layers continuation) (proper : store.Proper program)
    (fits : continuation.Fits plain) :
    Leads program plain session (State.resume resume scope store continuation) :=
  leads_resume (position.follows owns notExit) (position.next_ne_nowhere formed owns notExit notFilled) stacked
    proper fits

/-- Leaving a scope pops it, and leaving the body of a function returns undefined. -/
theorem leads_leftScope (stacked : Stacked program inFunction (.scope resume :: layers) continuation)
    (proper : store.Proper program) (fits : continuation.Fits plain) :
    Leads program plain session (Continuation.leftScope store continuation) := by
  cases stacked with
  | scope follows stacked =>
      obtain ⟨-, below⟩ := List.forall_mem_cons.mp fits
      cases resume with
      | nowhere =>
          cases follows
          exact leads_returned formed owns stacked proper trivial below
      | done => exact leads_resume follows Control.noConfusion stacked proper below
      | visit node next => exact leads_resume follows Control.noConfusion stacked proper below

/-- Leaving a protected block pops its handler. -/
theorem leads_leftHandler
    (stacked : Stacked program inFunction (.handler clause resume :: layers) continuation)
    (proper : store.Proper program) (fits : continuation.Fits plain) :
    Leads program plain session (Continuation.leftHandler store continuation) := by
  cases stacked with
  | handler position stacked =>
      exact leads_onward formed owns position rfl rfl stacked proper (List.forall_mem_cons.mp fits).2

/-- A clause is entered in a scope that knows the thrown value. -/
theorem leads_caught {place : Place} {guarded : Node} {others : List Node} {exit : Nat}
    (position : Position program inFunction (.tryStatement place guarded clause others exit) resume layers)
    (stacked : Stacked program inFunction layers continuation) (proper : store.Proper program)
    (good : value.Proper program) (fits : continuation.Fits plain) :
    Leads program plain session (Continuation.caught clause scope resume value store continuation) := by
  have statement := (position.standing formed).isStatement rfl rfl formed
  simp only [Node.isStatement, Bool.and_eq_true] at statement
  obtain ⟨clausePlace, param, body, rfl, named, block⟩ := Node.exists_of_isClause statement.2
  obtain ⟨inner, statements, innerExit, rfl, -⟩ := Node.exists_of_isBlock block
  cases statements with
  | nil => exact leads_onward formed owns position rfl rfl stacked proper fits
  | cons first rest =>
      refine Safe.bind safe_push fun innerScope _ _ => ?_
      refine Safe.bind (safe_declare named) fun address _ _ => ?_
      refine Safe.bind (safe_extend proper good) fun bound _ kept => ?_
      exact leads_resume (.visit (position.enter .clause rfl)) Control.noConfusion
        (.scope (position.follows owns rfl) stacked) kept (List.forall_mem_cons.mpr ⟨rfl, fits⟩)

/-- A value is thrown to the innermost handler, or ends the run. -/
theorem leads_thrown (stacked : Stacked program inFunction layers continuation)
    (proper : store.Proper program) (good : value.Proper program) (fits : continuation.Fits plain) :
    Leads program plain session (Continuation.thrown value store continuation) := by
  induction continuation generalizing inFunction layers with
  | nil => exact ⟨proper, good⟩
  | cons pending rest ih =>
      obtain ⟨-, below⟩ := List.forall_mem_cons.mp fits
      cases stacked with
      | call position calls stacked => exact ih stacked below
      | scope follows stacked => exact ih stacked below
      | handler position stacked => exact leads_caught formed owns position stacked proper good below

end Events

namespace Draft

variable {program : Node} {plain : Bool} {scratch : Scratch} {scope : Scope}

section Calls

variable (proper : scratch.store.Proper program)
include proper

section

variable {node : Node} (inverted : Bool) (formed : node.isExpression plain = true)
  (belongs : ∀ code ∈ node.codes, code.Belongs program)
include formed belongs

/-- Reading an expression gives a proper value. -/
theorem keeps_value : Keeps program plain scratch (node.value inverted scope) (Value.Proper program) :=
  keeps_reading (keeps_evaluate inverted node formed belongs proper)

theorem keeps_truth : Keeps program plain scratch (node.truth inverted scope) fun _ => True :=
  keeps_testing (keeps_evaluate inverted node formed belongs proper)

end

section

variable {arguments : List Node} (inverted : Bool) (formed : Node.areExpressions plain arguments = true)
  (belongs : ∀ code ∈ Node.codesOf arguments, code.Belongs program)
include formed belongs

/-- Arguments are evaluated to proper values. -/
theorem keeps_values : Keeps program plain scratch (Node.values inverted scope arguments)
    fun values => ∀ value ∈ values, value.Proper program := by
  induction arguments generalizing scratch with
  | nil => exact ⟨proper, by simp⟩
  | cons argument rest ih =>
      simp only [Node.areExpressions, Bool.and_eq_true] at formed
      simp only [Node.codesOf, List.forall_mem_append] at belongs
      refine Safe.bind (keeps_value proper inverted formed.1 belongs.1) fun value _ kept => ?_
      refine Safe.bind (ih kept.1 formed.2 belongs.2) fun values _ keeps => ?_
      exact ⟨keeps.1, List.forall_mem_cons.mpr ⟨kept.2, keeps.2⟩⟩

/-- Reading plain arguments keeps the store proper. -/
theorem keeps_plainValues :
    Keeps program plain scratch (Node.plainValues inverted scope arguments) fun _ => True := by
  induction arguments generalizing scratch with
  | nil => exact ⟨proper, trivial⟩
  | cons argument rest ih =>
      simp only [Node.areExpressions, Bool.and_eq_true] at formed
      simp only [Node.codesOf, List.forall_mem_append] at belongs
      refine Safe.bind (keeps_value proper inverted formed.1 belongs.1) fun value next kept => ?_
      have onward : Keeps program plain next (do return value :: (← Node.plainValues inverted scope rest))
          fun _ => True :=
        Safe.bind (ih kept.1 formed.2 belongs.2) fun _ _ keeps => keeps
      cases value with
      | reference identity address => exact absurd kept.2 id
      | _ => exact onward

end

/-- Parameters are bound in turn, each to a proper value. -/
theorem keeps_bindParams {params : List Ident} {arguments : List Value}
    (fits : params.all (Ident.fits plain) = true) (goods : ∀ value ∈ arguments, value.Proper program) :
    Keeps program plain scratch (bindParams scope params arguments) fun _ => True := by
  induction params generalizing scratch arguments with
  | nil => exact ⟨proper, trivial⟩
  | cons param params ih =>
      simp only [List.all_cons, Bool.and_eq_true] at fits
      refine Safe.bind (keeps_action proper (safe_declare fits.1)) fun address _ kept => ?_
      have head : (arguments.headD .undefined).Proper program := by
        cases arguments with
        | nil => trivial
        | cons first rest => exact goods first (by simp)
      refine Safe.bind (keeps_extend kept.1 head) fun _ _ keeps => ?_
      exact ih keeps.1 fits.2 fun value member => goods value (List.mem_of_mem_tail member)

/-- The routines that a program starts with answer with data. -/
theorem keeps_routine {routine : Routine} {arguments : List Value} (own : routine.isOwn = true) :
    Keeps program plain scratch (liftM (routine.call arguments)) (Value.Proper program) := by
  refine keeps_action proper ?_
  cases routine with
  | print | describe => exact trivial
  | ownPropertyTest => exact rfl
  | answer value => cases own
  | answerData data => cases own

variable (formed : program.isWellFormed plain = true) (owns : program.OwnsExits) {site : CallSite}
  (stacked : Stacked program true [] site.pending) (fits : Continuation.Fits plain site.pending)
include formed owns stacked fits

/-- Entering a function binds its parameters in a scope of its own, at the beginning of its body. -/
theorem leads_closure {closure : Closure} {arguments : List Value} (good : closure.code.Belongs program)
    (goods : ∀ value ∈ arguments, value.Proper program) :
    Leads program plain scratch (closure.enter arguments site) := by
  obtain ⟨inFunction, node, next, layers, position, member⟩ := good
  have callable := position.codes_wellFormed formed closure.code member
  simp only [Code.isWellFormed, Bool.and_eq_true] at callable
  obtain ⟨place, statements, exit, block, -⟩ := Node.exists_of_isBlock callable.2
  have entered : Keeps program plain scratch
      (liftM (Scope.enter Session.machineAllocator closure.scope.chain)) fun _ => True := ⟨proper, trivial⟩
  refine Safe.bind entered fun scope _ held => ?_
  refine Safe.bind (keeps_bindParams held.1 callable.1 goods) fun _ last kept => ?_
  cases emptiness : closure.code.body.emptyBody? with
  | none => simp [block, Node.emptyBody?] at emptiness
  | some empty =>
      cases empty with
      | true => exact Leads.lift (leads_returned formed owns stacked kept.1 trivial fits)
      | false =>
          have body := position.functionBody member emptiness
          exact @Leads.lift _ _ last _ (leads_resume (.visit body) Control.noConfusion stacked kept.1 fits)

/-- A call is answered at once, or its function is entered, or the callee is not callable. -/
theorem leads_callFrom (inverted : Bool) {callee : Node} {arguments : List Node}
    (calleeFormed : callee.isExpression plain = true)
    (argumentsFormed : Node.areExpressions plain arguments = true)
    (belongs : ∀ code ∈ callee.codes ++ Node.codesOf arguments, code.Belongs program) :
    Leads program plain scratch (callFrom inverted site callee arguments) := by
  rw [List.forall_mem_append] at belongs
  refine Safe.bind (keeps_value proper inverted calleeFormed belongs.1) ?_
  rintro value next ⟨held, good⟩
  cases value with
  | builtin identity arity name routine =>
      refine Safe.bind (keeps_plainValues held inverted argumentsFormed belongs.2) fun values _ kept => ?_
      refine Safe.bind (keeps_routine kept.1 good) fun answer _ answered => ?_
      exact Leads.lift (leads_returned formed owns stacked answered.1 answered.2 fits)
  | function closure =>
      refine Safe.bind (keeps_note held _ _) fun _ _ kept => ?_
      refine Safe.bind (keeps_values kept.1 inverted argumentsFormed belongs.2) fun values _ keeps => ?_
      exact leads_closure keeps.1 formed owns stacked fits good keeps.2
  | _ => exact Safe.bind (keeps_note held _ _) fun _ _ _ => rfl

end Calls

section Statements

variable (machine : Machine) (proper : scratch.store.Proper program)
include proper

/-- A missing expression stands for undefined. -/
theorem keeps_initialValue {init : Node} (admitted : init.isAbsent = true ∨ init.isExpression plain = true)
    (belongs : ∀ code ∈ init.codes, code.Belongs program) :
    Keeps program plain scratch (machine.initialValue scope init) (Value.Proper program) := by
  unfold Machine.initialValue
  split
  · exact ⟨proper, trivial⟩
  · rename_i present
    exact keeps_value proper _ (admitted.resolve_left present) belongs

/-- Declarators are bound in turn, each to a proper value. -/
theorem keeps_declareAll {keyword : Tree} {declarators : List Node}
    (formed : Node.areDeclarators plain declarators = true)
    (belongs : ∀ code ∈ Node.codesOf declarators, code.Belongs program) :
    Keeps program plain scratch (machine.declareAll scope keyword declarators) fun _ => True := by
  induction declarators generalizing scratch with
  | nil => exact ⟨proper, trivial⟩
  | cons declarator rest ih =>
      cases declarator with
      | declarator place target init =>
          simp only [Node.areDeclarators, Bool.and_eq_true, Bool.or_eq_true] at formed
          simp only [Node.codesOf, Node.codes, List.forall_mem_append] at belongs
          rw [Machine.declareAll_cons]
          refine Safe.bind (keeps_initialValue machine proper formed.1.2 belongs.1) fun value _ held => ?_
          refine Safe.bind (keeps_note held.1 _ _) fun _ _ kept => ?_
          refine Safe.bind (keeps_action kept.1 (safe_declare formed.1.1)) fun address _ keeps => ?_
          refine Safe.bind (keeps_extend keeps.1 held.2) fun _ _ stays => ?_
          exact ih stays.1 formed.2 belongs.2
      | _ => simp [Node.areDeclarators] at formed

variable (formed : program.isWellFormed plain = true) (owns : program.OwnsExits) {site : Node} {resume : Control}
  {inFunction : Bool} {layers : List Layer} {continuation : Continuation}
  (position : Position program inFunction site resume layers) (calls : site.mayCall = true)
  (stacked : Stacked program inFunction layers continuation) (fits : continuation.Fits plain)
include formed owns position calls stacked fits

/-- An expression statement is a call, assigns the value of a call, or is evaluated in place. -/
theorem affects_evaluateStatement (inverted : Bool) {expression : Node}
    (expressionFormed : expression.isExpression plain = true)
    (belongs : ∀ code ∈ expression.codes, code.Belongs program) :
    Affects program plain scratch (expression.evaluateStatement inverted scope continuation resume) := by
  unfold Node.evaluateStatement
  split
  · simp only [Node.isExpression, Bool.and_eq_true] at expressionFormed
    simp only [Node.codes] at belongs
    refine Safe.bind (leads_callFrom proper formed owns (.call position calls stacked) ?_ inverted
      expressionFormed.1 expressionFormed.2 belongs) fun _ _ sound => sound
    exact List.forall_mem_cons.mpr ⟨rfl, fits⟩
  · simp only [Node.isExpression, Bool.and_eq_true] at expressionFormed
    rw [Node.codes, List.forall_mem_append, Node.codes] at belongs
    refine Safe.bind (keeps_evaluate inverted _ expressionFormed.1 belongs.1 proper) ?_
    rintro operand next ⟨held, denotes⟩
    cases operand with
    | location address =>
        refine Safe.bind (leads_callFrom held formed owns (.call position calls stacked) ?_ inverted
          expressionFormed.2.1 expressionFormed.2.2 belongs.2) fun _ _ sound => sound
        exact List.forall_mem_cons.mpr ⟨rfl, fits⟩
    | value operand =>
        cases operand with
        | reference identity address => exact absurd denotes id
        | _ => exact rfl
  · exact Safe.bind (keeps_evaluate inverted expression expressionFormed belongs proper) fun _ _ kept => kept.1

/-- A declaration calls for the value of its only declarator, or binds its declarators in turn. -/
theorem affects_declaration {declarators : List Node} {keyword : Tree}
    (declared : Node.areDeclarators plain declarators = true) (filled : declarators.isEmpty = false)
    (belongs : ∀ code ∈ Node.codesOf declarators, code.Belongs program) :
    Affects program plain scratch (machine.declaration declarators keyword resume scope continuation) := by
  unfold Machine.declaration
  split
  · simp only [Node.areDeclarators, Node.isAbsent, Node.isExpression, Bool.and_eq_true,
      Bool.false_or] at declared
    simp only [Node.codesOf, Node.codes, List.append_nil] at belongs
    refine Safe.bind (leads_callFrom proper formed owns (.call position calls stacked) ?_
      machine.invertedTruth declared.1.2.1 declared.1.2.2 belongs) fun _ _ sound => sound
    refine List.forall_mem_cons.mpr ⟨?_, fits⟩
    unfold Target.choose
    split
    · exact declared.1.1
    · rfl
  · exact rfl
  · cases filled
  · exact Safe.bind (keeps_declareAll machine proper declared belongs) fun _ _ kept => kept.1

end Statements

end Draft

variable {tree : Tree} {fault : Fault}

theorem Tree.fault_of_position (failed : tree.position? = .error fault) : fault = .malformed := by
  cases tree <;> cases failed <;> rfl

theorem Tree.fault_of_span (failed : tree.span? = .error fault) : fault = .malformed := by
  unfold Tree.span? at failed
  split at failed
  · cases failed
  · cases failed
  · split at failed
    · cases failed
    · cases failed
      rfl
  · cases failed
    rfl

/-- A failure in two parts is one of the first part or one of the second. -/
theorem error_of_bind {A B : Type} {first : Except Fault A} {second : A → Except Fault B}
    (failed : first >>= second = .error fault) :
    first = .error fault ∨ ∃ result, first = .ok result ∧ second result = .error fault := by
  cases first with
  | error other =>
      cases failed
      exact .inl rfl
  | ok result => exact .inr ⟨result, rfl, failed⟩

/-- A range that cannot be read is the only reason for an excerpt to fail. -/
theorem State.fault_of_excerpt {state : State} {source : Option String}
    (failed : state.excerpt source = .error fault) : fault = .malformed := by
  cases state with
  | active node next scope store continuation =>
      rcases error_of_bind failed with unread | ⟨span, -, unplaced⟩
      · exact Tree.fault_of_span unread
      · split at unplaced
        · rcases error_of_bind unplaced with start | ⟨lower, -, unplaced⟩
          · exact Tree.fault_of_position start
          · rcases error_of_bind unplaced with stop | ⟨upper, -, unplaced⟩
            · exact Tree.fault_of_position stop
            · cases unplaced
        · cases unplaced
  | halted scope store continuation => cases failed
  | uncaught value store => cases failed

namespace Machine

variable {program : Node} {plain inFunction : Bool} {session : Session} {store : Store} {scope : Scope}
  {layers : List Layer} {continuation : Continuation} (machine : Machine)

/-- A statement goes on where evaluation in its place leaves it. -/
theorem leads_proceed {draft : Draft Effect} {resume : Control}
    (affects : draft.Affects program plain ⟨session, store⟩)
    (follows : Follows program inFunction resume layers) (somewhere : resume ≠ .nowhere)
    (stacked : Stacked program inFunction layers continuation) (fits : continuation.Fits plain) :
    Leads program plain session (Machine.proceed draft resume scope store continuation) := by
  refine Safe.bind (Safe.run affects) ?_
  rintro ⟨effect, arrived⟩ after inOrder
  cases effect with
  | entered state => exact inOrder
  | operand operand => exact leads_resume follows somewhere stacked inOrder fits

/-- Announcing a step fails only if a range cannot be read. -/
theorem safe_announce (quiet : plain = true → machine.config.debug = false) (state : State) :
    Safe plain session (machine.announce state) fun _ _ => True := by
  rw [Machine.announce_eq]
  split
  · rename_i debugging
    have loose : plain = false := by
      cases plain with
      | false => rfl
      | true => simp [quiet rfl] at debugging
    unfold Safe
    rw [ends_bind, ends_fromExcept]
    cases read : state.excerpt machine.source with
    | error fault =>
        rw [State.fault_of_excerpt read, loose]
        exact rfl
    | ok shown => exact trivial
  · exact trivial

variable (formed : program.isWellFormed plain = true) (owns : program.OwnsExits)
include formed owns

section

variable {next : Control} (stacked : Stacked program inFunction layers continuation)
  (proper : store.Proper program) (fits : continuation.Fits plain)
include stacked proper fits

/-- A choice or a loop goes on inside the layers where it stands. -/
theorem leads_tested {node test : Node} (position : Position program inFunction node next layers)
    (tests : node.test? = some test) (expression : test.isExpression plain = true)
    (belongs : ∀ code ∈ test.codes, code.Belongs program) :
    Leads program plain session (machine.stepActive node next scope store continuation) := by
  rw [machine.stepActive_of_test _ _ _ _ tests]
  refine Safe.bind (Safe.run (Draft.keeps_truth proper machine.invertedTruth expression belongs)) ?_
  rintro ⟨truth, arrived⟩ after ⟨kept, -⟩
  obtain ⟨follows, somewhere⟩ := position.follows_selected formed owns tests truth
  exact leads_resume follows somewhere stacked kept fits

/-- A step from a position leads to a position that its continuation fits. -/
theorem leads_stepActive {node : Node} (position : Position program inFunction node next layers) :
    Leads program plain session (machine.stepActive node next scope store continuation) := by
  have belongs : ∀ code ∈ node.codes, code.Belongs program :=
    fun code member => ⟨inFunction, node, next, layers, position, member⟩
  have statement := fun notProgram notExit =>
    (position.standing formed).isStatement notProgram notExit formed
  have waiting : ∀ pending : Pending, pending.fits plain = true →
      Continuation.Fits plain (pending :: continuation) :=
    fun pending fit => List.forall_mem_cons.mpr ⟨fit, fits⟩
  cases node with
  | program place body =>
      cases body with
      | nil => exact leads_onward formed owns position rfl rfl stacked proper fits
      | cons first rest =>
          exact leads_resume (.visit (position.enter .program rfl)) Control.noConfusion stacked proper fits
  | emptyStatement place => exact leads_onward formed owns position rfl rfl stacked proper fits
  | block place body exit =>
      cases body with
      | nil => exact leads_onward formed owns position rfl rfl stacked proper fits
      | cons first rest =>
          refine Safe.bind safe_push fun inner _ _ => ?_
          exact leads_resume (.visit (position.enter .block rfl)) Control.noConfusion
            (.scope (position.follows owns rfl) stacked) proper (waiting _ rfl)
  | scopeExit id =>
      obtain ⟨rest, rfl⟩ := position.layers_of_scopeExit formed
      exact leads_leftScope formed owns stacked proper fits
  | handlerExit id =>
      obtain ⟨clause, rest, rfl⟩ := position.layers_of_handlerExit formed
      exact leads_leftHandler formed owns stacked proper fits
  | functionDeclaration place name params body =>
      have statement := statement rfl rfl
      simp only [Node.isStatement, Bool.and_eq_true] at statement
      obtain ⟨ident, rfl, named⟩ := Node.exists_of_isIdentifier statement.1.1
      refine Safe.bind (safe_declare named) fun address middle _ => ?_
      have closed : Safe plain middle ((Code.ofDeclaration place (.identifier ident) params body).close scope)
          fun value _ => value.Proper program := belongs _ (by simp [Node.codes])
      refine Safe.bind closed fun value _ good => ?_
      refine Safe.bind (safe_extend proper good) fun bound _ kept => ?_
      exact leads_onward formed owns position rfl rfl stacked kept fits
  | declaration place declarators keyword =>
      have statement := statement rfl rfl
      simp only [Node.isStatement, Bool.and_eq_true, Bool.not_eq_true'] at statement
      exact leads_proceed (Draft.affects_declaration machine proper formed owns position rfl stacked fits
        statement.2 statement.1 (by simpa [Node.codes] using belongs)) (position.follows owns rfl)
        (position.next_ne_nowhere formed owns rfl rfl) stacked fits
  | expressionStatement place expression =>
      have statement := statement rfl rfl
      exact leads_proceed (Draft.affects_evaluateStatement proper formed owns position rfl stacked fits
        machine.invertedTruth (by simpa [Node.isStatement] using statement)
        (by simpa [Node.codes] using belongs)) (position.follows owns rfl)
        (position.next_ne_nowhere formed owns rfl rfl) stacked fits
  | ifStatement place test consequent alternate =>
      have statement := statement rfl rfl
      simp only [Node.isStatement, Bool.and_eq_true] at statement
      exact machine.leads_tested formed owns stacked proper fits position rfl statement.1.1
        (by simpa [Node.codes] using belongs)
  | whileStatement place test body =>
      have statement := statement rfl rfl
      simp only [Node.isStatement, Bool.and_eq_true] at statement
      exact machine.leads_tested formed owns stacked proper fits position rfl statement.1
        (by simpa [Node.codes] using belongs)
  | returnStatement place argument =>
      have statement := statement rfl rfl
      simp only [Node.isStatement, Bool.and_eq_true, Bool.or_eq_true] at statement
      obtain ⟨rfl, admitted⟩ := statement
      rw [Machine.stepActive_returnStatement]
      refine Safe.bind (Safe.run (Draft.keeps_initialValue machine proper admitted
        (by simpa [Node.codes] using belongs))) fun _ _ kept => ?_
      exact leads_returned formed owns stacked kept.1 kept.2 fits
  | throwStatement place argument =>
      have statement := statement rfl rfl
      simp only [Node.isStatement] at statement
      refine Safe.bind (Safe.run (Draft.keeps_value proper machine.invertedTruth statement
        (by simpa [Node.codes] using belongs))) fun _ _ kept => ?_
      exact leads_thrown formed owns stacked kept.1 kept.2 fits
  | tryStatement place guarded handler others exit =>
      have statement := statement rfl rfl
      simp only [Node.isStatement, Bool.and_eq_true] at statement
      obtain ⟨inner, body, innerExit, rfl, -⟩ := Node.exists_of_isBlock statement.1
      cases body with
      | nil => exact leads_onward formed owns position rfl rfl stacked proper fits
      | cons first rest =>
          refine Safe.bind safe_push fun innerScope _ _ => ?_
          exact leads_resume (.visit (position.enter .guarded rfl)) Control.noConfusion
            (.scope (.visit position.handlerExit) (.handler position stacked)) proper
            (List.forall_mem_cons.mpr ⟨rfl, waiting _ rfl⟩)
  -- No other node stands as a statement.
  | _ =>
      have statement := statement rfl rfl
      simp [Node.isStatement] at statement

end

/-- A step from a state in order leads to a state in order. Only while debugging does it look at
source ranges, which a plain program may have got wrong. -/
theorem leads_step (quiet : plain = true → machine.config.debug = false) {state : State}
    (active : state.isDone = false) (sound : state.Sound program plain) :
    Leads program plain session (machine.step state) := by
  cases state with
  | active node next scope store continuation =>
      obtain ⟨⟨inFunction, layers, position, stacked⟩, proper, fits⟩ := sound
      refine Safe.bind (machine.safe_announce quiet _) fun _ _ _ => ?_
      exact machine.leads_stepActive formed owns stacked proper fits position
  | halted scope store continuation => cases active
  | uncaught value store => cases active

end Machine

end ScriptMachine
