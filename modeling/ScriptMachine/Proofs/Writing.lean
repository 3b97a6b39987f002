/-
This file says what linking writes. Main statements: linking a statement that can be linked makes a list of
writes one after the other, and where no number is written twice, every write is there in the end.
-/

import ScriptMachine.Node.Link
import ScriptMachine.Proofs.Parts

namespace ScriptMachine

namespace Links

/-- Writes are made one after the other. -/
def setAll (links : Links) (writes : List (Node × Successor)) : Links :=
  writes.foldl (fun links write => links.set write.1 write.2) links

variable {links : Links} {writes : List (Node × Successor)} {node : Node} {next : Successor}

@[simp] theorem setAll_cons (links : Links) (write : Node × Successor) (rest : List (Node × Successor)) :
    links.setAll (write :: rest) = (links.set write.1 write.2).setAll rest := rfl

theorem setAll_append (links : Links) (first second : List (Node × Successor)) :
    links.setAll (first ++ second) = (links.setAll first).setAll second := List.foldl_append

/-- A node whose number is not written keeps its successor. -/
theorem next_setAll_of_forall_ne (elsewhere : ∀ write ∈ writes, node.place.id ≠ write.1.place.id) :
    (links.setAll writes).next node = links.next node := by
  induction writes generalizing links with
  | nil => rfl
  | cons write rest ih =>
      obtain ⟨first, others⟩ := List.forall_mem_cons.mp elsewhere
      rw [setAll_cons, ih others, next_set_of_ne first]

/-- A node holds what was written to it, if nothing else is written under its number. -/
theorem next_setAll_of_mem (distinct : (writes.map fun write => write.1.place.id).Nodup)
    (member : (node, next) ∈ writes) : (links.setAll writes).next node = next := by
  induction writes generalizing links with
  | nil => cases member
  | cons write rest ih =>
      rw [List.map_cons, List.nodup_cons] at distinct
      rw [setAll_cons]
      rcases List.mem_cons.mp member with rfl | later
      · have elsewhere : ∀ write ∈ rest, node.place.id ≠ write.1.place.id := by
          intro write among same
          apply distinct.1
          rw [same]
          exact List.mem_map_of_mem among
        rw [next_setAll_of_forall_ne elsewhere, next_set_self rfl]
      · exact ih distinct.2 later

end Links

mutual
/-- Linking fails on an absent statement and on parts that have no body to link. -/
def Node.linkable : Node → Bool
  | .absent => false
  | .program _ body | .block _ body _ => Node.allLinkable body
  | .ifStatement _ _ consequent alternate =>
      consequent.linkable && (alternate.isAbsent || alternate.linkable)
  | .whileStatement _ _ body => body.linkable
  | .functionDeclaration _ _ _ body => body.linkable
  | .tryStatement _ guarded handler _ _ =>
      handler.bodyLinkable && guarded.linkable && guarded.hasProtectedBody
  | _ => true

/-- The body of a handler is linked, the handler itself is not. -/
def Node.bodyLinkable : Node → Bool
  | .catchClause _ _ body => body.linkable
  | .whileStatement _ _ body => body.linkable
  | .functionDeclaration _ _ _ body => body.linkable
  | .functionExpression _ _ _ body => body.linkable
  | _ => false

def Node.allLinkable : List Node → Bool
  | [] => true
  | statement :: rest => statement.linkable && Node.allLinkable rest
end

theorem Node.allLinkable_iff {body : List Node} :
    Node.allLinkable body = true ↔ ∀ statement ∈ body, statement.linkable = true := by
  induction body with
  | nil => simp [Node.allLinkable]
  | cons statement rest ih => simp [Node.allLinkable, ih]

/-- The exit point of a body is written before its statements are. -/
def Successor.leaving (exit : Option Nat) (next : Successor) : List (Node × Successor) :=
  exit.toList.map fun id => (.scopeExit id, next)

mutual
/-- What linking a statement writes, in order: nodes and the successors that they are given. -/
def Node.writes (node : Node) (next : Successor) : List (Node × Successor) :=
  match node with
  | .absent => []
  | .program _ body => Node.writesOf body next ++ [(node, .first body next)]
  | .block _ body exit =>
      Successor.leaving exit next ++
        (Node.writesOf body (.exiting exit next) ++ [(node, .first body next)])
  | .ifStatement _ _ consequent alternate =>
      consequent.writes next ++ (alternate.writes next ++ [(node, next)])
  | .whileStatement _ _ body => body.writes (.visit node) ++ [(node, next)]
  | .functionDeclaration _ _ _ body => body.writes .nowhere ++ [(node, next)]
  | .returnStatement .. | .throwStatement .. => [(node, .nowhere)]
  | .tryStatement _ guarded handler _ exit =>
      handler.bodyWrites next ++ (guarded.writes (.visit (.handlerExit exit)) ++
        [(.handlerExit exit, next), (node, guarded.entry next)])
  | _ => [(node, next)]

def Node.bodyWrites (handler : Node) (next : Successor) : List (Node × Successor) :=
  match handler with
  | .catchClause _ _ body | .whileStatement _ _ body | .functionDeclaration _ _ _ body
  | .functionExpression _ _ _ body => body.writes next
  | _ => []

def Node.writesOf (body : List Node) (next : Successor) : List (Node × Successor) :=
  match body with
  | [] => []
  | statement :: rest => Node.writesOf rest next ++ statement.writes (.first rest next)
end

theorem Node.eq_absent {node : Node} (absent : node.isAbsent = true) : node = .absent := by
  cases node with
  | absent => rfl
  | _ => cases absent

mutual
/-- Linking makes the writes of a statement that can be linked, and fails on any other. -/
theorem Node.link_eq (node : Node) (next : Successor) (links : Links) :
    node.link next links =
      if node.linkable then .ok (links.setAll (node.writes next)) else .error .malformed := by
  cases node with
  | absent => rfl
  | program _ body =>
      rw [Node.link, Node.linkAll_eq, Node.linkable, Node.writes, Links.setAll_append]
      split <;> rfl
  | block _ body exit =>
      have left : links.leave exit next = links.setAll (Successor.leaving exit next) := by
        cases exit <;> rfl
      rw [Node.link, Node.linkAll_eq, Node.linkable, Node.writes, Links.setAll_append,
        Links.setAll_append, left]
      split <;> rfl
  | ifStatement _ _ consequent alternate =>
      have second := Node.link_eq alternate next (links.setAll (consequent.writes next))
      rw [Node.link, Node.link_eq consequent, Node.linkable, Node.writes, Links.setAll_append,
        Links.setAll_append]
      cases consequent.linkable with
      | false => rfl
      | true =>
          cases missing : alternate.isAbsent with
          | true =>
              obtain rfl := Node.eq_absent missing
              rfl
          | false =>
              simp only [if_true, bind, Except.bind, Bool.false_eq_true, if_false, second,
                Bool.true_and, Bool.false_or]
              cases alternate.linkable <;> rfl
  | whileStatement _ _ body | functionDeclaration _ _ _ body =>
      rw [Node.link, Node.link_eq body, Node.linkable, Node.writes, Links.setAll_append]
      split <;> rfl
  | tryStatement _ guarded handler _ exit =>
      rw [Node.link, Node.linkBody_eq handler, Node.linkable, Node.writes, Links.setAll_append,
        Links.setAll_append]
      cases handler.bodyLinkable with
      | false => rfl
      | true =>
          simp only [if_true, bind, Except.bind, Node.link_eq guarded, Bool.true_and]
          cases guarded.linkable with
          | false => rfl
          | true => cases guarded.hasProtectedBody <;> rfl
  | _ => rfl

/-- Linking a handler makes the writes of its body. -/
theorem Node.linkBody_eq (handler : Node) (next : Successor) (links : Links) :
    handler.linkBody next links =
      if handler.bodyLinkable then .ok (links.setAll (handler.bodyWrites next))
      else .error .malformed := by
  cases handler with
  | catchClause _ _ body | whileStatement _ _ body | functionDeclaration _ _ _ body
  | functionExpression _ _ _ body =>
      exact Node.link_eq body next links
  | _ => rfl

/-- Linking a body makes its writes. -/
theorem Node.linkAll_eq (body : List Node) (next : Successor) (links : Links) :
    Node.linkAll body next links =
      if Node.allLinkable body then .ok (links.setAll (Node.writesOf body next))
      else .error .malformed := by
  match body with
  | [] => rfl
  | statement :: rest =>
      rw [Node.linkAll, Node.linkAll_eq rest, Node.allLinkable, Node.writesOf, Links.setAll_append]
      cases Node.allLinkable rest with
      | false => rw [Bool.and_false]; rfl
      | true =>
          rw [Bool.and_true]
          exact Node.link_eq statement _ _
end

/-- The body of a function expression can be linked. -/
def Node.linksFunction : Node → Bool
  | .functionExpression _ _ _ body => body.linkable
  | _ => true

mutual
/-- What linking the functions of a tree writes, in order. -/
def Node.functionWrites : Node → List (Node × Successor)
  | .absent | .scopeExit _ | .handlerExit _ | .emptyStatement _ | .identifier _ | .literal .. => []
  | .program _ parts | .block _ parts _ | .declaration _ parts _ | .object _ parts
  | .array _ parts => Node.functionWritesOf parts
  | .expressionStatement _ part | .declarator _ _ part | .returnStatement _ part
  | .throwStatement _ part | .catchClause _ _ part | .unary _ _ part | .property _ _ part =>
      part.functionWrites
  | .functionDeclaration _ first _ second | .whileStatement _ first second
  | .binary _ _ first second | .logical _ _ first second | .assignment _ _ first second
  | .member _ first second _ => first.functionWrites ++ second.functionWrites
  | .ifStatement _ test consequent alternate =>
      test.functionWrites ++ (consequent.functionWrites ++ alternate.functionWrites)
  | .tryStatement _ guarded handler others _ =>
      guarded.functionWrites ++ (handler.functionWrites ++ Node.functionWritesOf others)
  | .call _ callee arguments => callee.functionWrites ++ Node.functionWritesOf arguments
  | .functionExpression _ name _ body =>
      name.functionWrites ++ (body.functionWrites ++ body.writes .nowhere)

def Node.functionWritesOf : List Node → List (Node × Successor)
  | [] => []
  | node :: rest => node.functionWrites ++ Node.functionWritesOf rest
end

mutual
/-- The functions of a tree are linked if each of them can be linked. -/
theorem Node.linkFunctions_eq (node : Node) (links : Links) (each : node.Every Node.linksFunction) :
    node.linkFunctions links = .ok (links.setAll node.functionWrites) := by
  have parts := (Node.every_iff.mp each).2
  match node with
  | .absent | .scopeExit _ | .handlerExit _ | .emptyStatement _ | .identifier _ | .literal .. => rfl
  | .program _ inner | .block _ inner _ | .declaration _ inner _ | .object _ inner
  | .array _ inner => exact Node.linkFunctionsOf_eq inner links parts
  | .expressionStatement _ part | .declarator _ _ part | .returnStatement _ part
  | .throwStatement _ part | .catchClause _ _ part | .unary _ _ part | .property _ _ part =>
      exact Node.linkFunctions_eq part links (parts part List.mem_cons_self)
  | .functionDeclaration _ first _ second | .whileStatement _ first second
  | .binary _ _ first second | .logical _ _ first second | .assignment _ _ first second
  | .member _ first second _ =>
      rw [Node.linkFunctions, Node.linkFunctions_eq first links (parts first (by simp [Node.parts])),
        Node.functionWrites, Links.setAll_append]
      exact Node.linkFunctions_eq second _ (parts second (by simp [Node.parts]))
  | .ifStatement _ test consequent alternate =>
      have second := Node.linkFunctions_eq consequent (links.setAll test.functionWrites)
        (parts consequent (by simp [Node.parts]))
      rw [Node.linkFunctions, Node.linkFunctions_eq test links (parts test (by simp [Node.parts])),
        Node.functionWrites, Links.setAll_append, Links.setAll_append]
      simp only [bind, Except.bind, second]
      exact Node.linkFunctions_eq alternate _ (parts alternate (by simp [Node.parts]))
  | .tryStatement _ guarded handler others _ =>
      have second := Node.linkFunctions_eq handler (links.setAll guarded.functionWrites)
        (parts handler (by simp [Node.parts]))
      rw [Node.linkFunctions,
        Node.linkFunctions_eq guarded links (parts guarded (by simp [Node.parts])),
        Node.functionWrites, Links.setAll_append, Links.setAll_append]
      simp only [bind, Except.bind, second]
      exact Node.linkFunctionsOf_eq others _ fun part member => parts part (by simp [Node.parts, member])
  | .call _ callee arguments =>
      rw [Node.linkFunctions, Node.linkFunctions_eq callee links (parts callee (by simp [Node.parts])),
        Node.functionWrites, Links.setAll_append]
      exact Node.linkFunctionsOf_eq arguments _ fun part member =>
        parts part (by simp [Node.parts, member])
  | .functionExpression _ name _ body =>
      have linkable : body.linkable = true := each _ .self
      have second := Node.linkFunctions_eq body (links.setAll name.functionWrites)
        (parts body (by simp [Node.parts]))
      rw [Node.linkFunctions, Node.linkFunctions_eq name links (parts name (by simp [Node.parts])),
        Node.functionWrites, Links.setAll_append, Links.setAll_append]
      simp only [bind, Except.bind, second]
      rw [Node.link_eq, if_pos linkable]

/-- Linking the functions makes their writes. -/
theorem Node.linkFunctionsOf_eq (nodes : List Node) (links : Links)
    (each : ∀ node ∈ nodes, node.Every Node.linksFunction) :
    Node.linkFunctionsOf nodes links = .ok (links.setAll (Node.functionWritesOf nodes)) := by
  match nodes with
  | [] => rfl
  | node :: rest =>
      obtain ⟨first, others⟩ := List.forall_mem_cons.mp each
      rw [Node.linkFunctionsOf, Node.linkFunctions_eq node links first, Node.functionWritesOf,
        Links.setAll_append]
      exact Node.linkFunctionsOf_eq rest _ others
end

/-- Linking a tree whose functions can be linked writes to them first, and fails only on the tree itself. -/
theorem Node.linked_eq {root : Node} (next : Successor) (each : root.Every Node.linksFunction) :
    root.linked next =
      if root.linkable then .ok (Links.empty.setAll (root.functionWrites ++ root.writes next))
      else .error .malformed := by
  rw [Links.setAll_append, ← Node.link_eq, Node.linked, Node.linkFunctions_eq root .empty each]
  rfl

end ScriptMachine
