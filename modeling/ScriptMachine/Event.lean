/-
This file delivers control events to continuations: a value returned, a scope left, a protected
block left, a value thrown.
-/

import ScriptMachine.State

namespace ScriptMachine

/-- Whether a body has nothing to run. A body that is a single statement counts as something, and
most nodes have no body to ask for. -/
def Node.emptyBody? : Node → Option Bool
  | .program _ body | .block _ body _ => some body.isEmpty
  | .whileStatement _ _ body | .functionDeclaration _ _ _ body | .functionExpression _ _ _ body
  | .catchClause _ _ body => some body.isAbsent
  | _ => none

/-- The part of a node that stands as its body, where that is a single node. -/
def Node.ownBody? : Node → Option Node
  | .whileStatement _ _ body | .functionDeclaration _ _ _ body | .functionExpression _ _ _ body
  | .catchClause _ _ body => some body
  | _ => none

namespace Continuation

/-- The value of a call is bound in the caller's frame or at an address, or dropped. -/
def bindResult (target : Target) (scope : Scope) (value : Value) (store : Store) :
    Action Store := do
  match target with
  | .slot name => Action.fromExcept (store.extend (← scope.declare name) value)
  | .location address => Action.fromExcept (store.extend address value)
  | .discard => pure store

/-- A returned value goes to the innermost call, past all scopes and handlers. -/
def returned (value : Value) (store : Store) : Continuation → Action State
  | [] => throw (.unreachable .returnToHalt)
  | .call target resume scope :: rest => do
      let bound ← bindResult target scope value store
      State.resume resume scope bound rest
  | _ :: rest => returned value store rest

/-- Control that falls off a body leaves the innermost scope. Falling off the body of a function
returns undefined from it. -/
def leftScope (store : Store) : Continuation → Action State
  | [] => throw (.unreachable .scopeExitToHalt)
  | .scope .nowhere _ :: rest => returned .undefined store rest
  | .scope resume outer :: rest => State.resume resume outer store rest
  | _ :: rest => leftScope store rest

/-- Control that falls off a protected block goes on after the innermost handler. -/
def leftHandler (store : Store) : Continuation → Action State
  | [] => throw (.unreachable .handlerExitToHalt)
  | .handler _ scope resume :: rest => State.resume resume scope store rest
  | _ :: rest => leftHandler store rest

/-- The parameter of a clause is bound in a new frame, and the body of the clause is entered at its
first statement. -/
def enterClause (param : Ident) (body : Node) (scope : Scope) (resume : Control) (thrown : Value)
    (store : Store) (rest : Continuation) : Action State := do
  let inner ← scope.push
  let bound ← Action.fromExcept (store.extend (← inner.declare param.name) thrown)
  match body.sequence? with
  | some (first :: following, exit) =>
      State.resume (.visit first (.through following (.exiting exit resume))) inner bound
        (.scope resume scope :: rest)
  | _ => throw .malformed

/-- A clause with an empty body is passed over. -/
def caught (clause : Node) (scope : Scope) (resume : Control) (thrown : Value) (store : Store)
    (rest : Continuation) : Action State :=
  match clause.ownBody?.bind Node.emptyBody? with
  | none => throw .malformed
  | some true => State.resume resume scope store rest
  | some false =>
      match clause with
      | .catchClause _ param body => enterClause param body scope resume thrown store rest
      | _ => throw .malformed

/-- A thrown value goes to the innermost handler, past all calls and scopes. Without a handler it
ends the run. -/
def thrown (value : Value) (store : Store) : Continuation → Action State
  | [] => do
      Action.warn .continuation ("unhandled exception! " ++ value.shown)
      return .uncaught value store
  | .handler clause scope resume :: rest => caught clause scope resume value store rest
  | _ :: rest => thrown value store rest

end Continuation

inductive Event where
  | returned (value : Value)
  | leftScope
  | leftHandler
  | thrown (value : Value)

def Event.deliver (event : Event) (continuation : Continuation) (store : Store) : Action State :=
  match event with
  | .returned value => Continuation.returned value store continuation
  | .leftScope => Continuation.leftScope store continuation
  | .leftHandler => Continuation.leftHandler store continuation
  | .thrown value => Continuation.thrown value store continuation

namespace Continuation

/-- Whether the innermost call keeps the value that is returned to it. -/
def bindsReturned : Continuation → Bool
  | [] => false
  | .call .discard _ _ :: _ => false
  | .call .. :: _ => true
  | _ :: rest => bindsReturned rest

def bindsLeftScope : Continuation → Bool
  | [] => false
  | .scope .nowhere _ :: rest => bindsReturned rest
  | .scope .. :: _ => false
  | _ :: rest => bindsLeftScope rest

def bindsThrown : Continuation → Bool
  | [] => false
  | .handler clause _ _ :: _ => clause.ownBody?.bind Node.emptyBody? == some false
  | _ :: rest => bindsThrown rest

end Continuation

/-- Whether delivering an event binds a value, and so makes a new version of the store. -/
def Event.binds (event : Event) (continuation : Continuation) : Bool :=
  match event with
  | .returned _ => continuation.bindsReturned
  | .leftScope => continuation.bindsLeftScope
  | .leftHandler => false
  | .thrown _ => continuation.bindsThrown

end ScriptMachine
