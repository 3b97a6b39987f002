/-
This file evaluates programs by recursion on their trees: a statement completes normally, returns or
throws, and there are neither links between statements nor continuations. Expressions are evaluated,
and frames and addresses taken, as in the steps of the machine.
-/

import ScriptMachine.Machine

namespace ScriptMachine

/-- How a statement completes. -/
inductive Completion where
  | normal
  | returned (value : Value)
  | thrown (value : Value)

/-- Work on a statement completes, unless it goes deeper than it may. -/
abbrev Course := Draft (Option Completion)

namespace Structured

/-- Statements run in order, up to the first that does not complete normally. -/
def sequence (execute : Node → Course) : List Node → Course
  | [] => return some .normal
  | statement :: rest => do
      match ← execute statement with
      | some .normal => sequence execute rest
      | other => return other

/-- The statement that made a call takes its value. -/
def accept (target : Target) (scope : Scope) (value : Value) : Draft Unit := do
  match target with
  | .slot name => Draft.extend (← scope.declare name) value
  | .location address => Draft.extend address value
  | .discard => pure ()

/-- A body without statements is not entered. -/
def body (execute : Node → Course) (node : Node) : Course :=
  match node.emptyBody? with
  | none => Draft.fail .malformed
  | some true => return some .normal
  | some false => execute node

/-- A call completes normally once its value has been taken. Falling off the body of a function
returns undefined, and what the body throws the call throws. -/
def call (inverted : Bool) (execute : Scope → Node → Course) (target : Target) (scope : Scope)
    (callee : Node) (arguments : List Node) : Course := do
  match ← callee.value inverted scope with
  | .builtin _ _ _ routine => do
      let values ← Node.plainValues inverted scope arguments
      accept target scope (← routine.call values)
      return some .normal
  | .function closure => do
      Action.note .machine fun session =>
        "calling JS function " ++ (Value.function closure).shown ++ " in context of " ++
          session.shownScope closure.scope
      let values ← Node.values inverted scope arguments
      let inner ← Scope.enter Session.machineAllocator closure.scope.chain
      bindParams inner closure.code.params values
      match ← body (execute inner) closure.code.body with
      | some .normal => do
          accept target scope .undefined
          return some .normal
      | some (.returned value) => do
          accept target scope value
          return some .normal
      | other => return other
  | value => do
      Action.note .machine fun _ => "not callable: " ++ value.shown
      Draft.fail .notCallable

/-- An expression in the place of a statement may be a call, or assign the value of one. -/
def expression (inverted : Bool) (execute : Scope → Node → Course) (scope : Scope) : Node → Course
  | .call _ callee arguments => call inverted execute .discard scope callee arguments
  | .assignment _ .assign left (.call _ callee arguments) => do
      match (← left.evaluate inverted scope).address? with
      | none => Draft.fail (.badWrite .notReference)
      | some address => call inverted execute (.location address) scope callee arguments
  | node => do
      let _ ← node.evaluate inverted scope
      return some .normal

/-- A declaration may have a call for its only initial value. -/
def declaration (machine : Machine) (execute : Scope → Node → Course) (scope : Scope)
    (keyword : Tree) : List Node → Course
  | [.declarator _ target (.call _ callee arguments)] =>
      call machine.invertedTruth execute (.choose target.name none) scope callee arguments
  | .declarator _ _ (.call ..) :: _ => Draft.refuse .callAmongDeclarators
  | [] => Draft.fail .malformed
  | declarators => do
      machine.declareAll scope keyword declarators
      return some .normal

/-- A clause with statements binds the thrown value in a frame of its own. -/
def rescue (execute : Scope → Node → Course) (scope : Scope) (value : Value) : Node → Course
  | .catchClause _ _ (.block _ [] _) => return some .normal
  | .catchClause _ param (.block _ statements _) => do
      let inner ← scope.push
      Draft.extend (← inner.declare param.name) value
      sequence (execute inner) statements
  | _ => Draft.fail .malformed

/-- A protected block without statements is passed over. -/
def guard (execute : Scope → Node → Course) (scope : Scope) (handler : Node) : Node → Course
  | .block _ [] _ => return some .normal
  | .block _ statements _ => do
      let inner ← scope.push
      match ← sequence (execute inner) statements with
      | some (.thrown value) => rescue execute scope value handler
      | other => return other
  | _ => Draft.fail .malformed

/-- A statement, given how the statements inside it and the functions it calls are executed. -/
def statement (machine : Machine) (execute : Scope → Node → Course) (scope : Scope) (node : Node) :
    Course :=
  match node with
  | .program _ statements => sequence (execute scope) statements
  | .emptyStatement _ => return some .normal
  | .block _ statements _ =>
      if statements.isEmpty then return some .normal
      else do
        let inner ← scope.push
        sequence (execute inner) statements
  | .functionDeclaration place name params body =>
      match node.declaredName? with
      | none => Draft.fail .malformed
      | some declared => do
          let address ← scope.declare declared
          let value ← (Code.ofDeclaration place name params body).close scope
          Draft.extend address value
          return some .normal
  | .declaration _ declarators keyword => declaration machine execute scope keyword declarators
  | .expressionStatement _ inner => expression machine.invertedTruth execute scope inner
  | .ifStatement _ test consequent alternate => do
      match ← test.truth machine.invertedTruth scope with
      | true => execute scope consequent
      | false => if alternate.isAbsent then return some .normal else execute scope alternate
  | .whileStatement _ test inner => do
      match ← test.truth machine.invertedTruth scope with
      | true =>
          match ← execute scope inner with
          | some .normal => execute scope node
          | other => return other
      | false => return some .normal
  | .returnStatement _ .absent => return some (.returned .undefined)
  | .returnStatement _ argument => do
      let value ← argument.value machine.invertedTruth scope
      return some (.returned value)
  | .throwStatement _ argument => do
      let value ← argument.value machine.invertedTruth scope
      return some (.thrown value)
  | .tryStatement _ guarded handler _ _ => guard execute scope handler guarded
  | _ => Draft.refuse (.stepping node.kindText)

/-- Statements are executed to a depth that counts nesting, repetition and calls. -/
def execute (machine : Machine) : Nat → Scope → Node → Course
  | 0, _, _ => return none
  | depth + 1, scope, node => statement machine (execute machine depth) scope node

/-- What is left of a program that has run. -/
structure Ending where
  store : Store
  uncaught : Option Value

/-- A program ends when it completes normally. A value that it throws is reported, and there is
nothing that it could return to. -/
def conclude : Option Completion × Store → Action (Option Ending)
  | (none, _) => return none
  | (some .normal, store) => return some ⟨store, none⟩
  | (some (.returned _), _) => throw (.unreachable .returnToHalt)
  | (some (.thrown value), store) => do
      Action.warn .continuation ("unhandled exception! " ++ value.shown)
      return some ⟨store, some value⟩

/-- A program runs in the scope of new globals. -/
def run (machine : Machine) (depth : Nat) (program : Node) : Action (Option Ending) := do
  Action.reset Session.machineAllocator
  let scope ← Scope.enter Session.machineAllocator []
  let (_, globals) ← (Globals.install scope).run .empty
  modify fun session => { session with globals := some scope }
  conclude (← (execute machine depth scope program).run globals)

end Structured

end ScriptMachine
