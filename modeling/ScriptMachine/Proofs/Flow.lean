/-
This file draws the ways that control takes through the statements of any program: on in the scope where
it is, or into a scope that is opened for a row of statements.
-/

import ScriptMachine.Proofs.Equation
import ScriptMachine.Proofs.Position

namespace ScriptMachine

/-- The parts of a node that are evaluated when it is evaluated or executed itself. -/
def Node.operands : Node → List Node
  | .expressionStatement _ part | .declarator _ _ part | .returnStatement _ part
  | .throwStatement _ part | .unary _ _ part | .property _ _ part | .ifStatement _ part _ _
  | .whileStatement _ part _ => [part]
  | .declaration _ parts _ | .object _ parts => parts
  | .binary _ _ left right | .logical _ _ left right | .assignment _ _ left right
  | .member _ left right _ => [left, right]
  | .call _ callee arguments => callee :: arguments
  | _ => []

/-- The functions of a list are those of its nodes. -/
theorem Node.mem_codesOf {nodes : List Node} {code : Code} :
    code ∈ Node.codesOf nodes ↔ ∃ node ∈ nodes, code ∈ node.codes := by
  induction nodes with
  | nil => simp [Node.codesOf]
  | cons node rest ih => simp [Node.codesOf, ih]

/-- A node makes values of the functions that its operands make values of. -/
theorem Node.mem_codes_of_operand {node part : Node} (operand : part ∈ node.operands) {code : Code}
    (made : code ∈ part.codes) : code ∈ node.codes := by
  cases node with
  | declaration | object => exact Node.mem_codesOf.mpr ⟨part, operand, made⟩
  | call place callee arguments =>
      rw [Node.codes, List.mem_append, Node.mem_codesOf]
      rcases List.mem_cons.mp operand with rfl | argument
      · exact .inl made
      · exact .inr ⟨part, argument, made⟩
  | binary | logical | assignment | member =>
      rw [Node.codes, List.mem_append]
      rcases List.mem_cons.mp operand with rfl | last
      · exact .inl made
      · obtain rfl := List.mem_singleton.mp last
        exact .inr made
  | expressionStatement | declarator | returnStatement | throwStatement | unary | property
  | ifStatement | whileStatement =>
      obtain rfl := List.mem_singleton.mp operand
      exact made
  | _ => cases operand

theorem Node.mem_parts_of_operand {node part : Node} (operand : part ∈ node.operands) :
    part ∈ node.parts := by
  cases node with
  | ifStatement | whileStatement => simp_all [Node.operands, Node.parts]
  | absent | scopeExit | handlerExit | program | block | emptyStatement | functionDeclaration
  | catchClause | tryStatement | identifier | literal | array | functionExpression => cases operand
  | _ => exact operand

/-- The names that a statement declares in the scope where it stands. -/
def Node.declares : Node → List Name
  | .functionDeclaration _ name _ _ => name.declaredName?.toList
  | .declaration _ declarators _ => declarators.filterMap Node.declaredName?
  | _ => []

/-- Control goes on in the same scope. What follows an exit is not there any more. -/
inductive Control.Flows : Control → Control → Prop where
  | next {node : Node} (next : Control) (inside : node.isExit = false) :
      Flows (.visit node next) next
  | program (place : Place) (body : List Node) (next : Control) :
      Flows (.visit (.program place body) next) (.through body next)
  | consequent (place : Place) (test consequent alternate : Node) (next : Control) :
      Flows (.visit (.ifStatement place test consequent alternate) next) (.visit consequent next)
  | alternate (place : Place) (test consequent : Node) {alternate : Node} (next : Control)
      (present : alternate.isAbsent = false) :
      Flows (.visit (.ifStatement place test consequent alternate) next) (.visit alternate next)
  | loop (place : Place) (test body : Node) (next : Control) :
      Flows (.visit (.whileStatement place test body) next)
        (.visit body (.visit (.whileStatement place test body) next))
  | protectedExit (place : Place) (guarded handler : Node) (others : List Node) (exit : Nat)
      (next : Control) :
      Flows (.visit (.tryStatement place guarded handler others exit) next)
        (.visit (.handlerExit exit) next)

theorem Node.mem_operands_of_test {node test : Node} (tests : node.test? = some test) :
    test ∈ node.operands := by
  cases node with
  | ifStatement | whileStatement =>
      cases tests
      exact List.mem_cons_self
  | _ => cases tests

/-- What a test selects stands in the same scope. -/
theorem Control.flows_selected {node test : Node} (tests : node.test? = some test) (next : Control)
    (truth : Bool) : Control.Flows (.visit node next) (node.selected next truth) := by
  cases node with
  | ifStatement place test consequent alternate =>
      cases truth with
      | true => exact .consequent ..
      | false =>
          unfold Node.selected
          dsimp only
          split
          · exact .next next rfl
          · rename_i present
            exact .alternate _ _ _ _ (by simpa using present)
  | whileStatement place test body =>
      cases truth with
      | true => exact .loop ..
      | false => exact .next next rfl
  | _ => cases tests

/-- Control that enters a body goes through its statements and then on. What has no statements to go
through is passed over. -/
def Node.enterBody (body : Node) (after : Control) : Control :=
  match body.sequence? with
  | some (statements, exit) => .through statements (.exiting exit after)
  | none => after

/-- Control enters a scope that is opened for a body, and that knows some names first. -/
inductive Control.Opens : Control → List Ident → Control → Prop where
  | block (place : Place) {body : List Node} (exit : Option Nat) (next : Control)
      (filled : body.isEmpty = false) :
      Opens (.visit (.block place body exit) next) [] (.through body (.exiting exit next))
  | guarded (place : Place) {guarded : Node} (handler : Node) (others : List Node) (exit : Nat)
      (next : Control) (filled : guarded.emptyBody? = some false) :
      Opens (.visit (.tryStatement place guarded handler others exit) next) []
        (guarded.enterProtected exit next)
  | clause (place clausePlace : Place) (guarded : Node) (param : Ident) {body : Node}
      (others : List Node) (exit : Nat) (next : Control) (filled : body.emptyBody? = some false) :
      Opens (.visit (.tryStatement place guarded (.catchClause clausePlace param body) others exit) next)
        [param] (body.enterBody next)

/-- A check that every node passes that control is still to visit, with everything within it. -/
def Control.Every (check : Node → Bool) : Control → Prop
  | .visit node next => node.Every check ∧ next.Every check
  | _ => True

namespace Control

variable {check : Node → Bool} {control next further : Control}

theorem every_through {statements : List Node} (listed : ∀ statement ∈ statements, statement.Every check)
    (after : next.Every check) : (through statements next).Every check := by
  induction statements with
  | nil => exact after
  | cons statement rest ih =>
      obtain ⟨first, others⟩ := List.forall_mem_cons.mp listed
      exact ⟨first, ih others⟩

theorem every_exit (exits : ∀ node, node.isExit = true → check node = true) {node : Node}
    (exit : node.isExit = true) : node.Every check := by
  refine Node.every_iff.mpr ⟨exits node exit, ?_⟩
  cases node with
  | scopeExit | handlerExit => exact fun part member => absurd member List.not_mem_nil
  | _ => cases exit

/-- A check that exits pass, too, holds of the whole way through a body. -/
theorem every_body (exits : ∀ node, node.isExit = true → check node = true) {body : List Node}
    (listed : ∀ statement ∈ body, statement.Every check) (after : next.Every check)
    (exit : Option Nat) : (through body (exiting exit next)).Every check := by
  refine every_through listed ?_
  cases exit with
  | none => exact after
  | some id => exact ⟨every_exit exits rfl, after⟩

/-- Every part of a checked visit is checked. -/
theorem every_part {node part : Node} (every : (visit node next).Every check)
    (member : part ∈ node.parts) : part.Every check :=
  (Node.every_iff.mp every.1).2 part member

/-- The checks follow the flow. -/
theorem Flows.every (exits : ∀ node, node.isExit = true → check node = true)
    (flows : control.Flows further) (every : control.Every check) : further.Every check := by
  cases flows with
  | next next inside => exact every.2
  | program place body next => exact every_through (fun _ => every_part every) every.2
  | consequent place test consequent alternate next =>
      exact ⟨every_part every (by simp [Node.parts]), every.2⟩
  | @alternate place test consequent alternate next present =>
      exact ⟨every_part every (by simp [Node.parts]), every.2⟩
  | loop place test body next => exact ⟨every_part every (by simp [Node.parts]), every⟩
  | protectedExit place guarded handler others exit next =>
      exact ⟨every_exit exits rfl, every.2⟩

/-- What is entered passes the check, and so does the clause that a parameter belongs to. -/
theorem Opens.every (exits : ∀ node, node.isExit = true → check node = true) {params : List Ident}
    (opens : control.Opens params further) (every : control.Every check) :
    further.Every check ∧
      ∀ param ∈ params, ∃ place body, check (.catchClause place param body) = true := by
  have sequence : ∀ {body : Node} {statements : List Node} {exit : Option Nat}, body.Every check →
      body.sequence? = some (statements, exit) → ∀ statement ∈ statements, statement.Every check := by
    intro body statements exit whole found
    cases body with
    | program | block =>
        cases found
        exact (Node.every_iff.mp whole).2
    | _ => cases found
  cases opens with
  | block place exit next filled =>
      exact ⟨every_body exits (fun _ => every_part every) every.2 exit,
        fun param member => absurd member List.not_mem_nil⟩
  | @guarded place guarded handler others exit next filled =>
      refine ⟨?_, fun param member => absurd member List.not_mem_nil⟩
      have whole : guarded.Every check := every_part every (by simp [Node.parts])
      unfold Node.enterProtected
      split
      · exact every.2
      · exact every.2
      · rename_i first rest inner found
        obtain ⟨leading, others⟩ := List.forall_mem_cons.mp (sequence whole found)
        have leaving : (visit (.handlerExit exit) next).Every check :=
          ⟨every_exit exits rfl, every.2⟩
        exact ⟨leading, every_body exits others leaving inner⟩
  | @clause place clausePlace guarded param body others exit next filled =>
      have whole : (Node.catchClause clausePlace param body).Every check :=
        every_part every (by simp [Node.parts])
      have clause := Node.every_iff.mp whole
      constructor
      · unfold Node.enterBody
        split
        · rename_i statements inner found
          exact every_body exits (sequence (clause.2 body List.mem_cons_self) found) every.2 inner
        · exact every.2
      · intro other member
        obtain rfl := List.mem_singleton.mp member
        exact ⟨clausePlace, body, clause.1⟩

end Control

end ScriptMachine
