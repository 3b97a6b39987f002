/-
This file renames the variables of programs. Declared names, parameters and the names that expressions
look up are renamed, keys of properties are not. Main statement: a renamed statement has the shape of
the statement, so that control flows through it in the same way.
-/

import ScriptMachine.Machine

namespace ScriptMachine

/-- A renaming keeps different names apart and leaves the globals of the machine alone. No name becomes
empty, since an empty name counts as false. -/
structure Renaming where
  text : String → String
  injective : ∀ {first second : String}, text first = text second → first = second
  nonempty : ∀ {name : String}, name ≠ "" → text name ≠ ""
  fixed : ∀ name ∈ ["print", "undefined", "%ObjectPrototype%"], text name = name

namespace Renaming

variable (names : Renaming)

/-- What is empty is no name to rename. -/
def spelled (name : String) : String := if name = "" then "" else names.text name

/-- Only texts are renamed. -/
def written : Tree → Tree
  | .text value => .text (names.spelled value)
  | tree => tree

def key : Key → Key
  | .text value => .text (names.spelled value)
  | key => key

def name (name : Name) : Name := ⟨names.written name.written, name.occurrence⟩

def ident (ident : Ident) : Ident := ⟨ident.place, names.name ident.name⟩

def idents (idents : List Ident) : List Ident := idents.map names.ident

mutual
/-- The name after a dot is a literal, so it is left alone, as is the key of a property. -/
def node : Node → Node
  | .absent => .absent
  | .scopeExit id => .scopeExit id
  | .handlerExit id => .handlerExit id
  | .program place body => .program place (nodes body)
  | .block place body exit => .block place (nodes body) exit
  | .emptyStatement place => .emptyStatement place
  | .expressionStatement place expression => .expressionStatement place (node expression)
  | .declarator place target init => .declarator place (names.ident target) (node init)
  | .declaration place declarators keyword => .declaration place (nodes declarators) keyword
  | .functionDeclaration place name params body =>
      .functionDeclaration place (node name) (names.idents params) (node body)
  | .returnStatement place argument => .returnStatement place (node argument)
  | .ifStatement place test consequent alternate =>
      .ifStatement place (node test) (node consequent) (node alternate)
  | .whileStatement place test body => .whileStatement place (node test) (node body)
  | .throwStatement place argument => .throwStatement place (node argument)
  | .catchClause place param body => .catchClause place (names.ident param) (node body)
  | .tryStatement place guarded handler others exit =>
      .tryStatement place (node guarded) (node handler) (nodes others) exit
  | .identifier ident => .identifier (names.ident ident)
  | .literal place value => .literal place value
  | .binary place operator left right => .binary place operator (node left) (node right)
  | .unary place operator argument => .unary place operator (node argument)
  | .logical place operator left right => .logical place operator (node left) (node right)
  | .assignment place operator left right => .assignment place operator (node left) (node right)
  | .call place callee arguments => .call place (node callee) (nodes arguments)
  | .member place holder selector computed => .member place (node holder) (node selector) computed
  | .property place key value => .property place key (node value)
  | .object place properties => .object place (nodes properties)
  | .array place elements => .array place (nodes elements)
  | .functionExpression place name params body =>
      .functionExpression place (node name) (names.idents params) (node body)

def nodes : List Node → List Node
  | [] => []
  | first :: rest => node first :: nodes rest
end

def code (code : Code) : Code :=
  ⟨code.kind, code.id, names.written code.name, names.idents code.params,
    names.node code.body⟩

def control : Control → Control
  | .nowhere => .nowhere
  | .done => .done
  | .visit node next => .visit (names.node node) (control next)

/-- What a frame for names binds is renamed. -/
def slot (slot : Slot) : Slot := ⟨names.key slot.key, names.written slot.written, slot.address⟩

/-- Only functions are made of names. -/
def value : Value → Value
  | .function closure => .function ⟨closure.identity, names.code closure.code, closure.scope⟩
  | value => value

/-- No name becomes empty. -/
theorem spelled_eq_empty {name : String} : names.spelled name = "" ↔ name = "" := by
  unfold spelled
  constructor
  · intro vanishes
    by_cases empty : name = ""
    · exact empty
    · rw [if_neg empty] at vanishes
      exact absurd vanishes (names.nonempty empty)
  · intro empty
    rw [if_pos empty]

/-- Different names stay different. -/
theorem spelled_injective {first second : String} (same : names.spelled first = names.spelled second) :
    first = second := by
  by_cases empty : first = ""
  · have vanishes : names.spelled second = "" := by
      rw [← same]
      exact names.spelled_eq_empty.mpr empty
    rw [empty, names.spelled_eq_empty.mp vanishes]
  · have present : second ≠ "" := fun vanishes =>
      empty (names.spelled_eq_empty.mp (same.trans (names.spelled_eq_empty.mpr vanishes)))
    unfold spelled at same
    rw [if_neg empty, if_neg present] at same
    exact names.injective same

/-- Different keys stay different. -/
theorem key_injective {first second : Key} (same : names.key first = names.key second) :
    first = second := by
  cases first <;> cases second <;> simp_all [key]
  exact names.spelled_injective same

/-- A name that counts as false goes on doing so. -/
theorem truthy_written (tree : Tree) : (names.written tree).truthy = tree.truthy := by
  cases tree with
  | text value =>
      have empty : (names.spelled value).isEmpty = value.isEmpty := by
        rw [Bool.eq_iff_iff, String.isEmpty_iff, String.isEmpty_iff]
        exact names.spelled_eq_empty
      simp only [written, Tree.truthy, empty]
  | _ => rfl

/-- The key of a renamed name is the renamed key. -/
theorem key_name (name : Name) : (names.name name).key = name.key.map names.key := by
  obtain ⟨tree, occurrence⟩ := name
  cases tree with
  | float value =>
      have kept : names.key (.ofFloat occurrence value) = .ofFloat occurrence value := by
        unfold Key.ofFloat
        dsimp only
        split
        · rfl
        · split <;> rfl
      simp only [Renaming.name, written, Name.key, Except.map, kept]
  | _ => rfl

/-- Names that the machine needs are not renamed. -/
theorem spelled_fixed {name : String} (member : name ∈ ["print", "undefined", "%ObjectPrototype%"]) :
    names.spelled name = name := by
  have kept := names.fixed name member
  unfold spelled
  split
  · rename_i empty
    exact empty.symm
  · exact kept

end Renaming

/-- What the names of one run are called in another one, where nothing stands for the same names. -/
abbrev Naming := Option Renaming

namespace Naming

def apply {A : Type} (naming : Naming) (renamed : Renaming → A → A) (value : A) : A :=
  match naming with
  | none => value
  | some names => renamed names value

variable (naming : Naming)

def written (tree : Tree) : Tree := naming.apply Renaming.written tree

def key (key : Key) : Key := naming.apply Renaming.key key

def name (name : Name) : Name := naming.apply Renaming.name name

def ident (ident : Ident) : Ident := naming.apply Renaming.ident ident

def idents (idents : List Ident) : List Ident := naming.apply Renaming.idents idents

def node (node : Node) : Node := naming.apply Renaming.node node

def nodes (nodes : List Node) : List Node := naming.apply Renaming.nodes nodes

def code (code : Code) : Code := naming.apply Renaming.code code

def control (control : Control) : Control := naming.apply Renaming.control control

def slot (slot : Slot) : Slot := naming.apply Renaming.slot slot

/-- Different keys stay different, whether names change or not. -/
theorem key_injective {first second : Key} (same : naming.key first = naming.key second) :
    first = second := by
  cases naming with
  | none => exact same
  | some names => exact names.key_injective same

@[simp] theorem key_none (key : Key) : Naming.key none key = key := rfl

@[simp] theorem name_none (name : Name) : Naming.name none name = name := rfl

@[simp] theorem code_none (code : Code) : Naming.code none code = code := rfl

theorem key_name (name : Name) : (naming.name name).key = name.key.map naming.key := by
  cases naming with
  | none => cases named : name.key <;> exact named
  | some names => exact names.key_name name

@[simp] theorem written_name (name : Name) : (naming.name name).written = naming.written name.written := by
  cases naming <;> rfl

@[simp] theorem truthy_written (tree : Tree) : (naming.written tree).truthy = tree.truthy := by
  cases naming with
  | none => rfl
  | some names => exact names.truthy_written tree

/-- The key of the prototype is not renamed. -/
theorem key_prototype : naming.key (.text "%ObjectPrototype%") = .text "%ObjectPrototype%" := by
  cases naming with
  | none => rfl
  | some names => exact congrArg Key.text (names.spelled_fixed (by simp))

@[simp] theorem name_ident (ident : Ident) : (naming.ident ident).name = naming.name ident.name := by
  cases naming <;> rfl

@[simp] theorem idents_nil : naming.idents [] = [] := by
  cases naming <;> rfl

@[simp] theorem idents_cons (ident : Ident) (rest : List Ident) :
    naming.idents (ident :: rest) = naming.ident ident :: naming.idents rest := by
  cases naming <;> rfl

@[simp] theorem nodes_nil : naming.nodes [] = [] := by
  cases naming <;> rfl

@[simp] theorem nodes_cons (node : Node) (rest : List Node) :
    naming.nodes (node :: rest) = naming.node node :: naming.nodes rest := by
  cases naming <;> rfl

@[simp] theorem params_code (code : Code) : (naming.code code).params = naming.idents code.params := by
  cases naming <;> rfl

@[simp] theorem body_code (code : Code) : (naming.code code).body = naming.node code.body := by
  cases naming <;> rfl

/-- A node keeps its kind and its place, and its parts are renamed. -/
theorem node_eq (node : Node) : naming.node node = match node with
    | .absent => .absent
    | .scopeExit id => .scopeExit id
    | .handlerExit id => .handlerExit id
    | .program place body => .program place (naming.nodes body)
    | .block place body exit => .block place (naming.nodes body) exit
    | .emptyStatement place => .emptyStatement place
    | .expressionStatement place expression => .expressionStatement place (naming.node expression)
    | .declarator place target init => .declarator place (naming.ident target) (naming.node init)
    | .declaration place declarators keyword => .declaration place (naming.nodes declarators) keyword
    | .functionDeclaration place name params body =>
        .functionDeclaration place (naming.node name) (naming.idents params) (naming.node body)
    | .returnStatement place argument => .returnStatement place (naming.node argument)
    | .ifStatement place test consequent alternate =>
        .ifStatement place (naming.node test) (naming.node consequent) (naming.node alternate)
    | .whileStatement place test body => .whileStatement place (naming.node test) (naming.node body)
    | .throwStatement place argument => .throwStatement place (naming.node argument)
    | .catchClause place param body => .catchClause place (naming.ident param) (naming.node body)
    | .tryStatement place guarded handler others exit =>
        .tryStatement place (naming.node guarded) (naming.node handler) (naming.nodes others) exit
    | .identifier ident => .identifier (naming.ident ident)
    | .literal place value => .literal place value
    | .binary place operator left right =>
        .binary place operator (naming.node left) (naming.node right)
    | .unary place operator argument => .unary place operator (naming.node argument)
    | .logical place operator left right =>
        .logical place operator (naming.node left) (naming.node right)
    | .assignment place operator left right =>
        .assignment place operator (naming.node left) (naming.node right)
    | .call place callee arguments => .call place (naming.node callee) (naming.nodes arguments)
    | .member place holder selector computed =>
        .member place (naming.node holder) (naming.node selector) computed
    | .property place key value => .property place key (naming.node value)
    | .object place properties => .object place (naming.nodes properties)
    | .array place elements => .array place (naming.nodes elements)
    | .functionExpression place name params body =>
        .functionExpression place (naming.node name) (naming.idents params) (naming.node body) := by
  cases naming with
  | none => cases node <;> rfl
  | some names => cases node <;> rfl

@[simp] theorem place_node (node : Node) : (naming.node node).place = node.place := by
  rw [node_eq]
  cases node with
  | identifier ident => cases naming <;> rfl
  | _ => rfl

@[simp] theorem kind?_node (node : Node) : (naming.node node).kind? = node.kind? := by
  rw [node_eq]
  cases node <;> rfl

/-- An excerpt of the source does not show renamed names. -/
theorem excerpt_node (node : Node) (source : Option String) :
    (naming.node node).excerpt source = node.excerpt source := by
  unfold Node.excerpt Node.kindText
  rw [place_node, kind?_node]

@[simp] theorem isAbsent_node (node : Node) : (naming.node node).isAbsent = node.isAbsent := by
  rw [node_eq]
  cases node <;> rfl

@[simp] theorem isEmpty_nodes (nodes : List Node) : (naming.nodes nodes).isEmpty = nodes.isEmpty := by
  cases nodes <;> simp

/-- Only calls are renamed to calls. -/
theorem call_of_node {node callee : Node} {place : Place} {arguments : List Node}
    (called : naming.node node = .call place callee arguments) :
    ∃ inner others, node = .call place inner others := by
  rw [node_eq] at called
  cases node with
  | call spot inner others =>
      cases called
      exact ⟨inner, others, rfl⟩
  | _ => cases called

/-- Only assignments are renamed to assignments. -/
theorem assignment_of_node {node left right : Node} {place : Place} {operator : AssignmentOperator}
    (assigned : naming.node node = .assignment place operator left right) :
    ∃ target source, node = .assignment place operator target source ∧ naming.node source = right := by
  rw [node_eq] at assigned
  cases node with
  | assignment spot operator target source =>
      cases assigned
      exact ⟨target, source, rfl, rfl⟩
  | _ => cases assigned

/-- Only declarators are renamed to declarators. -/
theorem declarator_of_node {node init : Node} {place : Place} {target : Ident}
    (declares : naming.node node = .declarator place target init) :
    ∃ ident source, node = .declarator place ident source ∧ naming.node source = init := by
  rw [node_eq] at declares
  cases node with
  | declarator spot ident source =>
      cases declares
      exact ⟨ident, source, rfl, rfl⟩
  | _ => cases declares

theorem sequence?_node (node : Node) :
    (naming.node node).sequence? = node.sequence?.map fun body => (naming.nodes body.1, body.2) := by
  rw [node_eq]
  cases node <;> rfl

@[simp] theorem emptyBody?_node (node : Node) : (naming.node node).emptyBody? = node.emptyBody? := by
  rw [node_eq]
  cases node <;> simp [Node.emptyBody?]

theorem ownBody?_node (node : Node) :
    (naming.node node).ownBody? = node.ownBody?.map naming.node := by
  rw [node_eq]
  cases node <;> rfl

/-- An anonymous function expression has no name to rename. -/
theorem declaredName?_node (node : Node) :
    (naming.node node).declaredName? = node.declaredName?.map naming.name := by
  fun_induction Node.declaredName? node with
  | case1 ident =>
      rw [node_eq]
      exact congrArg some (naming.name_ident ident)
  | case2 place target init =>
      rw [node_eq]
      exact congrArg some (naming.name_ident target)
  | case3 place name params body ih =>
      rw [node_eq]
      exact ih
  | case4 place params body => cases naming <;> rfl
  | case5 place name params body named ih =>
      rw [node_eq]
      dsimp only
      rw [Node.declaredName?]
      · exact ih
      · intro absent
        rw [node_eq] at absent
        cases name with
        | absent => exact named rfl
        | _ => cases absent
  | case6 node noIdentifier noDeclarator noDeclaration _ noExpression =>
      rw [node_eq]
      cases node with
      | identifier ident => exact (noIdentifier _ rfl).elim
      | declarator place target init => exact (noDeclarator _ _ _ rfl).elim
      | functionDeclaration place name params body => exact (noDeclaration _ _ _ _ rfl).elim
      | functionExpression place name params body => exact (noExpression _ _ _ _ rfl).elim
      | _ => rfl

theorem codeName_node (node : Node) : (naming.node node).codeName = naming.written node.codeName := by
  unfold Node.codeName
  rw [declaredName?_node]
  cases node.declaredName? with
  | none => cases naming <;> rfl
  | some name => exact naming.written_name name

/-- A function expression is renamed with its code. -/
theorem code_ofExpression (place : Place) (name : Node) (params : List Ident) (body : Node) :
    naming.code (.ofExpression place name params body) =
      .ofExpression place (naming.node name) (naming.idents params) (naming.node body) := by
  have named := naming.codeName_node (.functionExpression place name params body)
  rw [node_eq] at named
  unfold Code.ofExpression
  dsimp only at named ⊢
  rw [named]
  cases naming <;> rfl

/-- A function declaration is renamed with its code. -/
theorem code_ofDeclaration (place : Place) (name : Node) (params : List Ident) (body : Node) :
    naming.code (.ofDeclaration place name params body) =
      .ofDeclaration place (naming.node name) (naming.idents params) (naming.node body) := by
  have named := naming.codeName_node (.functionDeclaration place name params body)
  rw [node_eq] at named
  unfold Code.ofDeclaration
  dsimp only at named ⊢
  rw [named]
  cases naming <;> rfl

/-- What is no property is refused in the place of one, whatever it is called. -/
theorem evaluateProperties_node {node : Node}
    (notProperty : ∀ place key value, node ≠ .property place key value) (inverted : Bool) (scope : Scope)
    (object : Object) (rest others : List Node) :
    Node.evaluateProperties inverted scope object (naming.node node :: others) =
      Node.evaluateProperties inverted scope object (node :: rest) := by
  rw [node_eq]
  cases node with
  | property place key value => exact absurd rfl (notProperty place key value)
  | literal place tree =>
      cases tree with
      | record shape fields => cases shape <;> simp only [Node.evaluateProperties]
      | _ => rfl
  | _ => rfl

@[simp] theorem control_nowhere : naming.control .nowhere = .nowhere := by
  cases naming <;> rfl

@[simp] theorem control_done : naming.control .done = .done := by
  cases naming <;> rfl

@[simp] theorem control_visit (node : Node) (next : Control) :
    naming.control (.visit node next) = .visit (naming.node node) (naming.control next) := by
  cases naming <;> rfl

@[simp] theorem control_through (body : List Node) (next : Control) :
    naming.control (.through body next) = .through (naming.nodes body) (naming.control next) := by
  induction body with
  | nil => simp
  | cons statement rest ih => simp [ih]

@[simp] theorem control_exiting (exit : Option Nat) (next : Control) :
    naming.control (.exiting exit next) = .exiting exit (naming.control next) := by
  cases exit with
  | none => rfl
  | some id =>
      unfold Control.exiting
      dsimp only
      rw [control_visit, node_eq]

/-- Protected blocks are entered alike under other names. -/
theorem control_enterProtected (guarded : Node) (exit : Nat) (next : Control) :
    naming.control (guarded.enterProtected exit next) =
      (naming.node guarded).enterProtected exit (naming.control next) := by
  unfold Node.enterProtected
  rw [sequence?_node]
  match guarded.sequence? with
  | none | some ([], _) => simp
  | some (first :: rest, inner) => simp [node_eq naming (.handlerExit exit)]

/-- What follows a renamed statement is what follows the statement, renamed. -/
theorem control_next (node : Node) (following : Control) :
    naming.control (node.next following) = (naming.node node).next (naming.control following) := by
  rw [node_eq]
  cases node with
  | program place body => exact naming.control_through body following
  | block place body exit => simp [Node.next]
  | tryStatement place guarded handler others exit =>
      exact naming.control_enterProtected guarded exit following
  | returnStatement place argument => exact naming.control_nowhere
  | throwStatement place argument => exact naming.control_nowhere
  | _ => rfl

end Naming

end ScriptMachine
