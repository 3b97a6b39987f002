/-
This file takes the steps that call apart: a statement requests a call, and the request is answered. Main
statement: a step of a statement that calls comes to the answer to its request.
-/

import ScriptMachine.Proofs.Conduct
import ScriptMachine.Proofs.Simulation

namespace ScriptMachine

/-- Who takes the value of a call: nobody, what stands on the left of an assignment, or a name that is
declared. -/
inductive Taker where
  | nobody
  | operand (left : Node)
  | slot (name : Name)

/-- The place that takes the value is known before the call. -/
def Taker.target (taker : Taker) (inverted : Bool) (scope : Scope) : Draft Target :=
  match taker with
  | .nobody => pure .discard
  | .operand left => do
      match (← left.evaluate inverted scope).address? with
      | none => Draft.fail (.badWrite .notReference)
      | some address => pure (.location address)
  | .slot name => pure (.choose name none)

/-- A call as a statement makes it. -/
structure Calling where
  taker : Taker
  callee : Node
  arguments : List Node

/-- The statements that call: a call alone, an assignment of the value of a call, and a declaration with a
call for its only initial value. -/
def Node.calling? : Node → Option Calling
  | .expressionStatement _ (.call _ callee arguments) => some ⟨.nobody, callee, arguments⟩
  | .expressionStatement _ (.assignment _ .assign left (.call _ callee arguments)) =>
      some ⟨.operand left, callee, arguments⟩
  | .declaration _ [.declarator _ ident (.call _ callee arguments)] _ =>
      some ⟨.slot ident.name, callee, arguments⟩
  | _ => none

/-- A call that is ready to be made: it is known what is called, and all arguments have values. -/
inductive Request where
  | builtin (routine : Routine) (values : List Value)
  | closure (closure : Closure) (values : List Value)

/-- What is called is found out before the arguments. -/
def Calling.prepare (calling : Calling) (inverted : Bool) (scope : Scope) : Draft Request := do
  match ← calling.callee.value inverted scope with
  | .builtin _ _ _ routine =>
      return .builtin routine (← Node.plainValues inverted scope calling.arguments)
  | .function closure => do
      Action.note .machine fun session =>
        "calling JS function " ++ (Value.function closure).shown ++ " in context of " ++
          session.shownScope closure.scope
      return .closure closure (← Node.values inverted scope calling.arguments)
  | value => do
      Action.note .machine fun _ => "not callable: " ++ value.shown
      Draft.fail .notCallable

/-- All that a statement does before its call. -/
def Calling.request (calling : Calling) (inverted : Bool) (scope : Scope) :
    Draft (Target × Request) := do
  let target ← calling.taker.target inverted scope
  return (target, ← calling.prepare inverted scope)

/-- The one call that a step makes: a built-in function is run, or the body of a closure is entered. -/
def Request.answer (request : Request) (site : CallSite) : Draft State :=
  match request with
  | .builtin routine values => do
      let answer ← routine.call values
      Continuation.returned answer (← Draft.store) site.pending
  | .closure called values => called.enter values site

/-- A call prepares a request and answers it. -/
theorem callFrom_eq_answer (calling : Calling) (inverted : Bool) (site : CallSite) :
    callFrom inverted site calling.callee calling.arguments =
      calling.prepare inverted site.scope >>= fun request => request.answer site := by
  rw [callFrom_eq]
  unfold Calling.prepare
  rw [bind_assoc]
  congr 1
  funext value
  cases value with
  | builtin identity arity name routine => simp only [CallSite.apply, Request.answer, bind_assoc, pure_bind]
  | function closure => simp only [CallSite.apply, Request.answer, bind_assoc, pure_bind]
  | _ =>
      simp only [CallSite.apply, bind_assoc]
      rfl

/-- The left side of an assignment is evaluated before the call, and has to be an address. -/
theorem Node.evaluateStatement_assigned (inverted : Bool) (scope : Scope) (continuation : Continuation)
    (next : Control) (place inner : Place) (left callee : Node) (arguments : List Node) :
    (Node.assignment place .assign left (.call inner callee arguments)).evaluateStatement inverted scope
        continuation next = (do
      return .entered (← Calling.request ⟨.operand left, callee, arguments⟩ inverted scope >>=
        fun (target, request) => request.answer ⟨target, next, scope, continuation⟩)) := by
  rw [Node.evaluateStatement]
  unfold Calling.request Taker.target
  simp only [bind_assoc]
  congr 1
  funext operand
  cases operand.address? with
  | none => rfl
  | some address =>
      simp only [pure_bind, callFrom_eq_answer ⟨.operand left, callee, arguments⟩, bind_assoc]

/-- A step of a statement that calls makes its request and comes to the answer. -/
theorem Machine.stepActive_eq_answer (machine : Machine) {node : Node} {calling : Calling}
    (calls : node.calling? = some calling) (next : Control) (scope : Scope) (store : Store)
    (continuation : Continuation) (session : Session) :
    machine.stepActive node next scope store continuation session =
      Draft.outcome (calling.request machine.invertedTruth scope >>= fun (target, request) =>
        request.answer ⟨target, next, scope, continuation⟩) ⟨session, store⟩ := by
  have answered := fun target => callFrom_eq_answer calling machine.invertedTruth
    ⟨target, next, scope, continuation⟩
  unfold Node.calling? at calls
  split at calls
  · cases calls
    refine (proceed_entered _).trans ?_
    rw [answered .discard]
    simp only [Calling.request, Taker.target, pure_bind, bind_assoc]
  · cases calls
    show proceed (Node.evaluateStatement _ _ _ _ _) next scope store continuation session = _
    rw [Node.evaluateStatement_assigned, proceed_entered]
  · cases calls
    refine (proceed_entered _).trans ?_
    rw [answered (.choose _ none)]
    simp only [Calling.request, Taker.target, pure_bind, bind_assoc]
  · cases calls

/-- A function that is about to be entered is in order, and so are its arguments. -/
def Account.Ready (account : Account) (world : account.World) : Request → Prop
  | .builtin .. => True
  | .closure called values =>
      account.Good world (.function called) ∧ ∀ value ∈ values, account.Good world value

namespace Regime

variable (regime : Regime) (inverted : Bool) {world : regime.World} {scratch : Scratch} {scope : Scope}
  {calling : Calling}

/-- Taking the target keeps the regime. -/
theorem keeps_target {taker : Taker} (holds : regime.Holds world scratch)
    (sees : ∀ left, taker = .operand left → regime.Sees world scope left) :
    regime.Keeps world scratch (taker.target inverted scope) fun _ _ => True := by
  cases taker with
  | nobody => exact regime.keeps_pure holds trivial
  | operand left =>
      refine regime.keeps_bind (regime.evaluate inverted left holds (sees left rfl)) ?_
      intro later next operand _ held _
      cases operand.address? with
      | none => exact regime.keeps_fail held
      | some address => exact regime.keeps_pure held trivial
  | slot name => exact regime.keeps_pure holds trivial

/-- Preparing a request keeps the regime. -/
theorem keeps_prepare (holds : regime.Holds world scratch)
    (sees : regime.Sees world scope calling.callee)
    (given : ∀ argument ∈ calling.arguments, regime.Sees world scope argument) :
    regime.Keeps world scratch (calling.prepare inverted scope) regime.Ready := by
  refine regime.keeps_bind (regime.keeps_value inverted holds sees) ?_
  intro later next value passed held good
  have seen := fun argument member => regime.sees_later passed (given argument member)
  cases value with
  | builtin identity arity name routine =>
      refine regime.keeps_bind (regime.keeps_plainValues inverted held seen) ?_
      intro last final values _ kept _
      exact regime.keeps_pure kept trivial
  | function closure =>
      refine regime.keeps_bind (regime.keeps_action held (regime.makes_note held.frames _ _)) ?_
      intro noted after _ onward kept _
      refine regime.keeps_bind (regime.keeps_values inverted kept
        fun argument member => regime.sees_later onward (seen argument member)) ?_
      intro last final values further keeps goods
      exact regime.keeps_pure keeps ⟨regime.good_later (regime.later_trans onward further) good, goods⟩
  | _ =>
      refine regime.keeps_bind (regime.keeps_action held (regime.makes_note held.frames _ _)) ?_
      intro noted after _ _ kept _
      exact regime.keeps_fail kept

/-- Making a request keeps a regime. -/
theorem keeps_request {node : Node} (calls : node.calling? = some calling)
    (holds : regime.Holds world scratch) (sees : regime.Sees world scope node) :
    regime.Keeps world scratch (calling.request inverted scope) fun later result =>
      regime.Ready later result.2 := by
  have parts : (∀ left, calling.taker = .operand left → regime.Sees world scope left) ∧
      regime.Sees world scope calling.callee ∧
      ∀ argument ∈ calling.arguments, regime.Sees world scope argument := by
    unfold Node.calling? at calls
    split at calls
    · cases calls
      have call := regime.sees_operand sees List.mem_cons_self
      exact ⟨fun _ impossible => Taker.noConfusion impossible, regime.sees_operand call List.mem_cons_self,
        fun argument member => regime.sees_operand call (List.mem_cons_of_mem _ member)⟩
    · cases calls
      have assignment := regime.sees_operand sees List.mem_cons_self
      have call := regime.sees_operand assignment (List.mem_cons_of_mem _ List.mem_cons_self)
      refine ⟨?_, regime.sees_operand call List.mem_cons_self,
        fun argument member => regime.sees_operand call (List.mem_cons_of_mem _ member)⟩
      rintro left ⟨⟩
      exact regime.sees_operand assignment List.mem_cons_self
    · cases calls
      have declarator := regime.sees_operand sees List.mem_cons_self
      have call := regime.sees_operand declarator List.mem_cons_self
      exact ⟨fun _ impossible => Taker.noConfusion impossible, regime.sees_operand call List.mem_cons_self,
        fun argument member => regime.sees_operand call (List.mem_cons_of_mem _ member)⟩
    · cases calls
  obtain ⟨left, callee, arguments⟩ := parts
  refine regime.keeps_bind (regime.keeps_target inverted holds left) ?_
  intro later next target passed held _
  refine regime.keeps_bind (regime.keeps_prepare inverted held (regime.sees_later passed callee)
    fun argument member => regime.sees_later passed (arguments argument member)) ?_
  intro last final request _ kept ready
  exact regime.keeps_pure kept ready

end Regime

end ScriptMachine
