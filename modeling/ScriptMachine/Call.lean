/-
This file calls functions. A call is entered from a statement: built-in functions answer at once,
and the body of a closure runs in a frame of its own before the caller goes on.
-/

import ScriptMachine.Evaluation
import ScriptMachine.Event

namespace ScriptMachine

/-- What a call needs to know about the statement it is entered from. -/
structure CallSite where
  target : Target
  resume : Control
  scope : Scope
  continuation : Continuation

/-- The caller waits for the value of the call. -/
def CallSite.pending (site : CallSite) : Continuation :=
  .call site.target site.resume site.scope :: site.continuation

def Node.values (inverted : Bool) (scope : Scope) : List Node → Draft (List Value)
  | [] => pure []
  | argument :: rest => do
      let value ← argument.value inverted scope
      return value :: (← Node.values inverted scope rest)

/-- A reference is no argument for a built-in function, and is noticed before the arguments after
it are evaluated. -/
def Node.plainValues (inverted : Bool) (scope : Scope) : List Node → Draft (List Value)
  | [] => pure []
  | argument :: rest => do
      match ← argument.value inverted scope with
      | .reference .. => Draft.fail .malformed
      | value => return value :: (← Node.plainValues inverted scope rest)

/-- Every parameter is bound in turn, to undefined once the arguments are used up. -/
def bindParams (scope : Scope) : List Ident → List Value → Draft Unit
  | [], _ => pure ()
  | param :: params, arguments => do
      Draft.extend (← scope.declare param.name) (arguments.headD .undefined)
      bindParams scope params arguments.tail

/-- A body without statements returns undefined at once. -/
def Closure.enter (closure : Closure) (arguments : List Value) (site : CallSite) : Draft State := do
  let scope ← Scope.enter Session.machineAllocator closure.scope.chain
  bindParams scope closure.code.params arguments
  match closure.code.body.emptyBody? with
  | none => Draft.fail .malformed
  | some true => Continuation.returned .undefined (← Draft.store) site.pending
  | some false =>
      State.resume (.visit closure.code.body .nowhere) scope (← Draft.store) site.pending

/-- The callee is evaluated before the arguments. -/
def callFrom (inverted : Bool) (site : CallSite) (callee : Node) (arguments : List Node) :
    Draft State := do
  match ← callee.value inverted site.scope with
  | .builtin _ _ _ routine => do
      let values ← Node.plainValues inverted site.scope arguments
      let answer ← routine.call values
      Continuation.returned answer (← Draft.store) site.pending
  | .function closure => do
      Action.note .machine fun session =>
        "calling JS function " ++ (Value.function closure).shown ++ " in context of " ++
          session.shownScope closure.scope
      let values ← Node.values inverted site.scope arguments
      closure.enter values site
  | value => do
      Action.note .machine fun _ => "not callable: " ++ value.shown
      Draft.fail .notCallable

/-- What evaluation in the place of a statement comes to. -/
inductive Effect where
  | operand (operand : Operand)
  | entered (state : State)

/-- An expression that stands as a statement may be a call, or assign the value of one to an
address that is resolved before the call. -/
def Node.evaluateStatement (inverted : Bool) (scope : Scope) (continuation : Continuation)
    (resume : Control) : Node → Draft Effect
  | .call _ callee arguments =>
      return .entered (← callFrom inverted ⟨.discard, resume, scope, continuation⟩ callee arguments)
  | .assignment _ .assign left (.call _ callee arguments) => do
      match (← left.evaluate inverted scope).address? with
      | none => Draft.fail (.badWrite .notReference)
      | some address =>
          let site := ⟨.location address, resume, scope, continuation⟩
          return .entered (← callFrom inverted site callee arguments)
  | node => return .operand (← node.evaluate inverted scope)

end ScriptMachine
