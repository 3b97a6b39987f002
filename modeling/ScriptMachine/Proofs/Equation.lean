/-
This file restates definitions of the machine in the form in which they are reasoned about.
-/

import ScriptMachine.Machine

namespace ScriptMachine

/-- What is no property is refused in the place of one. -/
theorem Node.exists_evaluateProperties_eq_throw (inverted : Bool) {node : Node}
    (notProperty : ∀ place key value, node ≠ .property place key value) (rest : List Node) :
    ∃ fault, ∀ scope object,
      Node.evaluateProperties inverted scope object (node :: rest) = throw fault := by
  cases node with
  | property place key value => exact absurd rfl (notProperty place key value)
  | literal place tree =>
      cases tree with
      | record shape fields =>
          cases shape with
          | attributes =>
              cases kind : fields.lookup "kind" with
              | none => exact ⟨.malformed, fun _ _ => by simp only [Node.evaluateProperties, kind]; rfl⟩
              | some held =>
                  exact ⟨.unsupported (.evaluating held.shown),
                    fun _ _ => by simp only [Node.evaluateProperties, kind]; rfl⟩
          | dictionary => exact ⟨.malformed, fun _ _ => rfl⟩
      | _ => exact ⟨.malformed, fun _ _ => rfl⟩
  | _ => exact ⟨.malformed, fun _ _ => rfl⟩

namespace Node

section

variable (inverted : Bool) (scope : Scope) (place : Place)

theorem evaluate_member (holder selector : Node) (computed : Bool) :
    (Node.member place holder selector computed).evaluate inverted scope =
      holder.value inverted scope >>= fun held => match held with
        | .object found => selector.value inverted scope >>= found.select
        | _ => Draft.fail (.mistyped .notObject) := by
  rw [Node.evaluate]
  unfold Node.value
  rw [bind_assoc]
  congr 1
  funext operand
  congr 1
  funext held
  cases held with
  | object found => simp only [bind_assoc]
  | _ => rfl

theorem evaluate_binary (operator : BinaryOperator) (left right : Node) :
    (Node.binary place operator left right).evaluate inverted scope =
      left.value inverted scope >>= fun leftValue =>
        right.value inverted scope >>= fun rightValue => operator.perform leftValue rightValue := by
  rw [Node.evaluate]
  simp only [Node.value, bind_assoc]

theorem evaluate_unary (operator : UnaryOperator) (argument : Node) :
    (Node.unary place operator argument).evaluate inverted scope =
      argument.value inverted scope >>= fun value => do
        return .value (← operator.apply inverted value) := by
  rw [Node.evaluate]
  simp only [Node.value, bind_assoc]

theorem evaluate_logical (operator : Tree) (left right : Node) :
    (Node.logical place operator left right).evaluate inverted scope =
      left.truth inverted scope >>= fun _ => right.truth inverted scope >>= fun _ =>
        Draft.refuse (.logicalOperator operator.shown) := by
  rw [Node.evaluate]
  simp only [Node.truth, Node.value, bind_assoc]

/-- A call on the right side of an assignment fails like any other one. -/
theorem evaluate_assignment (left right : Node) :
    (Node.assignment place .assign left right).evaluate inverted scope =
      left.evaluate inverted scope >>= fun target => right.value inverted scope >>= fun value => do
        target.write value
        return .value value := by
  rw [Node.evaluate]
  congr 1
  funext target
  cases right with
  | call => rfl
  | _ => simp only [Node.isCall, Bool.false_eq_true, if_false, Node.value, bind_assoc]

theorem evaluateProperties_cons (object : Object) (name : Name) (value : Node) (rest : List Node) :
    Node.evaluateProperties inverted scope object (.property place name value :: rest) = (do
      let held ← value.value inverted scope
      Draft.extend (← object.properties.declare name) held
      Node.evaluateProperties inverted scope object rest) := by
  rw [Node.evaluateProperties, Node.value, bind_assoc]

end

end Node

/-- What a call does once its callee has a value. -/
def CallSite.apply (site : CallSite) (inverted : Bool) (arguments : List Node) :
    Value → Draft State
  | .builtin _ _ _ routine => do
      let values ← Node.plainValues inverted site.scope arguments
      let answer ← routine.call values
      Continuation.returned answer (← Draft.store) site.pending
  | .function closure => do
      Action.note .machine fun session =>
        "calling JS function " ++ (Value.function closure).shown ++ " in context of " ++
          session.shownScope closure.scope
      let values ← Node.values inverted site.scope arguments
      closure.enter values site
  | value => do
      Action.note .machine fun _ => "not callable: " ++ value.shown
      Draft.fail .notCallable

theorem callFrom_eq (inverted : Bool) (site : CallSite) (callee : Node) (arguments : List Node) :
    callFrom inverted site callee arguments =
      callee.value inverted site.scope >>= site.apply inverted arguments := rfl

/-- The test of a choice or of a loop. -/
def Node.test? : Node → Option Node
  | .ifStatement _ test _ _ | .whileStatement _ test _ => some test
  | _ => none

/-- Where a choice or a loop goes on once its test has come out. -/
def Node.selected (node : Node) (next : Control) (truth : Bool) : Control :=
  match node, truth with
  | .ifStatement _ _ consequent _, true => .visit consequent next
  | .ifStatement _ _ _ alternate, false => if alternate.isAbsent then next else .visit alternate next
  | .whileStatement _ _ body, true => .visit body (.visit node next)
  | _, _ => next

namespace Machine

variable (machine : Machine) (scope : Scope)

/-- The value that a declarator or a return statement is given. -/
def initialValue (init : Node) : Draft Value :=
  if init.isAbsent then pure .undefined else init.value machine.invertedTruth scope

/-- A declarator has a value before it is bound. -/
theorem declareAll_cons (keyword : Tree) (place : Place) (target : Ident) (init : Node)
    (rest : List Node) :
    machine.declareAll scope keyword (.declarator place target init :: rest) = (do
      let value ← machine.initialValue scope init
      Action.note .machine fun _ =>
        keyword.shown ++ " " ++ target.name.shown ++ " = " ++ value.shown
      Draft.extend (← scope.declare target.name) value
      machine.declareAll scope keyword rest) := by
  rw [declareAll, initialValue]
  cases init.isAbsent <;> rfl

variable (next : Control) (store : Store) (continuation : Continuation)

/-- What a function returns is the value of an initializer, undefined where there is none. -/
theorem stepActive_returnStatement (place : Place) (argument : Node) :
    machine.stepActive (.returnStatement place argument) next scope store continuation =
      (machine.initialValue scope argument).run store >>= fun result =>
        Continuation.returned result.1 result.2 continuation := by
  cases argument <;> rfl

/-- Choices and loops go on where their test selects. -/
theorem stepActive_of_test {node test : Node} (tests : node.test? = some test) :
    machine.stepActive node next scope store continuation =
      (test.truth machine.invertedTruth scope).run store >>= fun result =>
        State.resume (node.selected next result.1) scope result.2 continuation := by
  cases node with
  | ifStatement place test consequent alternate =>
      cases tests
      rw [stepActive]
      congr 1
      funext result
      obtain ⟨truth, arrived⟩ := result
      cases truth with
      | true => rfl
      | false =>
          dsimp only [Node.selected]
          split <;> rfl
  | whileStatement place test body =>
      cases tests
      rw [stepActive]
      congr 1
      funext result
      obtain ⟨truth, arrived⟩ := result
      cases truth <;> rfl
  | _ => cases tests

end Machine

/-- The source text that an announcement shows, or the kind of a state without a node. -/
def State.excerpt (state : State) (source : Option String) : Except Fault String :=
  match state with
  | .active node .. => node.excerpt source
  | .halted .. | .uncaught .. => .ok state.kindText

theorem Machine.announce_eq (machine : Machine) (state : State) :
    machine.announce state = if machine.config.debug then (do
      let shown ← Action.fromExcept (state.excerpt machine.source)
      Action.note .machine fun _ =>
        "State.next called, current stmt = " ++ state.kindText ++ " [" ++ shown ++
          "], kont stack = " ++ " ".intercalate state.pendingLabels)
      else pure () := by
  cases state <;> rfl

end ScriptMachine
