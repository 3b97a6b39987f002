/-
This file holds the machine: it loads programs, makes their initial states, and takes steps. Main
statement: a run that has ended stays as it is.
-/

import ScriptMachine.Call
import ScriptMachine.Config
import ScriptMachine.Node.Outline
import ScriptMachine.Node.Reader

namespace ScriptMachine

/-- A machine has its settings and the source text that ranges point into. -/
structure Machine where
  config : Config
  source : Option String

namespace Machine

def invertedTruth (machine : Machine) : Bool := machine.config.invertedTruth

/-- An outline is noted line by line until a line fails. -/
def noteOutline : Outline → Action Unit
  | [] => pure ()
  | line :: rest => do
      let text ← Action.fromExcept line
      Action.note .node fun _ => text
      noteOutline rest

/-- An outline is made only where its lines would be kept. -/
def outline (source : Option String) (indent : Int) (node : Node) (links : Links) : Action Unit := do
  if (← get).verbose then noteOutline (node.outline source indent links)

def readTree (tree : Tree) : Action Node :=
  match tree.read 0 with
  | .ok node _ => pure node
  | .error fault _ => throw fault

/-- A program is read, linked to the end of the run, and outlined on demand. -/
def load (machine : Machine) (tree : Tree) : Action Node := do
  let program ← readTree tree
  if !program.isProgram then throw (.mistyped (.notProgram program.label))
  let links ← Action.fromExcept (program.linked .done)
  if machine.config.outline then outline machine.source 0 program links
  return program

/-- A run starts with new globals, and its addresses are counted anew. -/
def initialState (program : Node) : Action State := do
  Action.reset Session.machineAllocator
  let scope ← Scope.enter Session.machineAllocator []
  let (_, store) ← (Globals.install scope).run .empty
  modify fun session => { session with globals := some scope }
  State.resume (.visit program .done) scope store []

/-- Before a step, the statement and the pending work are noted. -/
def announce (machine : Machine) (state : State) : Action Unit := do
  if machine.config.debug then
    let shown ← match state with
      | .active node _ _ _ _ => Action.fromExcept (node.excerpt machine.source)
      | .halted .. | .uncaught .. => pure state.kindText
    Action.note .machine fun _ =>
      "State.next called, current stmt = " ++ state.kindText ++ " [" ++ shown ++
        "], kont stack = " ++ " ".intercalate state.pendingLabels

/-- Declarators are bound in turn, without a value to undefined. -/
def declareAll (machine : Machine) (scope : Scope) (keyword : Tree) : List Node → Draft Unit
  | [] => pure ()
  | .declarator _ target init :: rest => do
      let value ← if init.isAbsent then pure .undefined else init.value machine.invertedTruth scope
      Action.note .machine fun _ =>
        keyword.shown ++ " " ++ target.name.shown ++ " = " ++ value.shown
      Draft.extend (← scope.declare target.name) value
      declareAll machine scope keyword rest
  | _ => Draft.fail .malformed

/-- A call may initialize the only declarator of a declaration. -/
def declaration (machine : Machine) (declarators : List Node) (keyword : Tree) (next : Control)
    (scope : Scope) (continuation : Continuation) : Draft Effect := do
  match declarators with
  | [.declarator _ target (.call _ callee arguments)] =>
      let site := ⟨.choose target.name none, next, scope, continuation⟩
      return .entered (← callFrom machine.invertedTruth site callee arguments)
  | .declarator _ _ (.call ..) :: _ => Draft.refuse .callAmongDeclarators
  | [] => Draft.fail .malformed
  | declarators => do
      machine.declareAll scope keyword declarators
      return .operand (.value .undefined)

/-- A statement that entered no call goes on with the store it arrived at. -/
def proceed (draft : Draft Effect) (next : Control) (scope : Scope) (store : Store)
    (continuation : Continuation) : Action State := do
  match ← draft.run store with
  | (.entered state, _) => pure state
  | (.operand _, arrived) => State.resume next scope arrived continuation

/-- One step of an active state. -/
def stepActive (machine : Machine) (node : Node) (next : Control) (scope : Scope) (store : Store)
    (continuation : Continuation) : Action State := do
  match node with
  | .program .. | .emptyStatement _ => State.resume (node.next next) scope store continuation
  | .block _ body _ =>
      if body.isEmpty then State.resume next scope store continuation
      else State.resume (node.next next) (← scope.push) store (.scope next scope :: continuation)
  | .scopeExit _ => Continuation.leftScope store continuation
  | .handlerExit _ => Continuation.leftHandler store continuation
  | .functionDeclaration place name params body =>
      match node.declaredName? with
      | none => throw .malformed
      | some declared =>
          let address ← scope.declare declared
          let value ← (Code.ofDeclaration place name params body).close scope
          State.resume next scope (← Action.fromExcept (store.extend address value)) continuation
  | .declaration _ declarators keyword =>
      proceed (machine.declaration declarators keyword next scope continuation) next scope store
        continuation
  | .expressionStatement _ expression =>
      proceed (expression.evaluateStatement machine.invertedTruth scope continuation next) next
        scope store continuation
  | .ifStatement _ test consequent alternate =>
      match ← (test.truth machine.invertedTruth scope).run store with
      | (true, arrived) => State.resume (.visit consequent next) scope arrived continuation
      | (false, arrived) =>
          if alternate.isAbsent then State.resume next scope arrived continuation
          else State.resume (.visit alternate next) scope arrived continuation
  | .whileStatement _ test body =>
      match ← (test.truth machine.invertedTruth scope).run store with
      | (true, arrived) =>
          State.resume (.visit body (.visit node next)) scope arrived continuation
      | (false, arrived) => State.resume next scope arrived continuation
  | .returnStatement _ .absent => Continuation.returned .undefined store continuation
  | .returnStatement _ argument =>
      let (value, arrived) ← (argument.value machine.invertedTruth scope).run store
      Continuation.returned value arrived continuation
  | .throwStatement _ argument =>
      let (value, arrived) ← (argument.value machine.invertedTruth scope).run store
      Continuation.thrown value arrived continuation
  | .tryStatement _ guarded handler _ exit =>
      match guarded.emptyBody? with
      | none => throw .malformed
      | some true => State.resume next scope store continuation
      | some false =>
          State.resume (node.next next) (← scope.push) store
            (.scope (.visit (.handlerExit exit) next) scope :: .handler handler scope next ::
              continuation)
  | _ => throw (.unsupported (.stepping node.kindText))

/-- One step. A run that has ended takes none. -/
def step (machine : Machine) (state : State) : Action State := do
  machine.announce state
  match state with
  | .active node next scope store continuation =>
      machine.stepActive node next scope store continuation
  | .halted .. | .uncaught .. => throw (.unreachable .finished)

/-- How far a run has come: the states seen so far, and the last of them. -/
structure Progress where
  count : Nat
  state : State

/-- At most the given number of steps is taken, and none after the end of the run. -/
def advance (machine : Machine) : Nat → Progress → Action Progress
  | 0, progress => pure progress
  | steps + 1, progress =>
      if progress.state.isDone then pure progress
      else do
        let next ← machine.step progress.state
        advance machine steps ⟨progress.count + 1, next⟩

/-- A run begins with its initial state. -/
def begin (machine : Machine) (tree : Tree) : Action Progress := do
  let program ← machine.load tree
  return ⟨1, ← initialState program⟩

/-- A run takes at most the given number of steps. -/
def run (machine : Machine) (steps : Nat) (tree : Tree) : Action Progress := do
  machine.advance steps (← machine.begin tree)

/-- The value of a global in the store of a state. -/
def globalValue (store : Store) (globals : Scope) (name : Name) : Action Value := do
  return store.get (← globals.resolve name)

theorem advance_of_isDone (machine : Machine) (steps : Nat) {progress : Progress}
    (done : progress.state.isDone) : machine.advance steps progress = pure progress := by
  cases steps with
  | zero => rfl
  | succ steps => simp [advance, done]

end Machine

end ScriptMachine
