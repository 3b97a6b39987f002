/-
This file says which programs are well formed: every part is present and of a kind that belongs in
its position, bodies are blocks, a program stands only at the root, and functions alone return. A
plain program moreover has texts for names, and literals that denote values.
-/

import ScriptMachine.Value

namespace ScriptMachine

/-- A literal denotes null, a truth value, a text or a double. An integer has to round to a finite
double. -/
def Tree.denotes : Tree → Bool
  | .null | .bool _ | .float _ | .text _ => true
  | .int value => !(Float.ofScientific value.natAbs false 0).isInf
  | .list _ | .record .. => false

def Name.isText (name : Name) : Bool :=
  match name.written with
  | .text _ => true
  | _ => false

/-- Names are texts where a plain program is asked for. -/
def Name.fits (plain : Bool) (name : Name) : Bool := !plain || name.isText

def Ident.fits (plain : Bool) (ident : Ident) : Bool := ident.name.fits plain

def Node.isIdentifier (plain : Bool) : Node → Bool
  | .identifier ident => ident.fits plain
  | _ => false

mutual
/-- What may stand as an expression. The elements of an array are never evaluated, so nothing is
asked of them. -/
def Node.isExpression (plain : Bool) : Node → Bool
  | .identifier ident => ident.fits plain
  | .literal _ value => !plain || value.denotes
  | .binary _ _ left right | .logical _ _ left right | .assignment _ _ left right =>
      left.isExpression plain && right.isExpression plain
  | .unary _ _ argument => argument.isExpression plain
  | .call _ callee arguments => callee.isExpression plain && Node.areExpressions plain arguments
  | .member _ holder selector _ => holder.isExpression plain && selector.isExpression plain
  | .object _ properties => Node.areProperties plain properties
  | .array .. => true
  | .functionExpression _ name params body =>
      (name.isAbsent || name.isIdentifier plain) && params.all (Ident.fits plain) &&
        body.isBlock plain true
  | _ => false

def Node.areExpressions (plain : Bool) : List Node → Bool
  | [] => true
  | expression :: rest => expression.isExpression plain && Node.areExpressions plain rest

def Node.areProperties (plain : Bool) : List Node → Bool
  | [] => true
  | .property _ key value :: rest =>
      key.fits plain && value.isExpression plain && Node.areProperties plain rest
  | _ => false

/-- A declarator may go without an initial value. -/
def Node.areDeclarators (plain : Bool) : List Node → Bool
  | [] => true
  | .declarator _ target init :: rest =>
      target.fits plain && (init.isAbsent || init.isExpression plain) &&
        Node.areDeclarators plain rest
  | _ => false

/-- What may stand as a statement, inside a function or outside of all functions. -/
def Node.isStatement (plain inFunction : Bool) : Node → Bool
  | .block _ body _ => Node.areStatements plain inFunction body
  | .emptyStatement _ => true
  | .expressionStatement _ expression => expression.isExpression plain
  | .declaration _ declarators _ => !declarators.isEmpty && Node.areDeclarators plain declarators
  | .functionDeclaration _ name params body =>
      name.isIdentifier plain && params.all (Ident.fits plain) && body.isBlock plain true
  | .returnStatement _ argument =>
      inFunction && (argument.isAbsent || argument.isExpression plain)
  | .ifStatement _ test consequent alternate =>
      test.isExpression plain && consequent.isStatement plain inFunction &&
        (alternate.isAbsent || alternate.isStatement plain inFunction)
  | .whileStatement _ test body => test.isExpression plain && body.isStatement plain inFunction
  | .throwStatement _ argument => argument.isExpression plain
  | .tryStatement _ guarded handler _ _ =>
      guarded.isBlock plain inFunction && handler.isClause plain inFunction
  | _ => false

def Node.areStatements (plain inFunction : Bool) : List Node → Bool
  | [] => true
  | statement :: rest =>
      statement.isStatement plain inFunction && Node.areStatements plain inFunction rest

def Node.isBlock (plain inFunction : Bool) : Node → Bool
  | .block _ body _ => Node.areStatements plain inFunction body
  | _ => false

def Node.isClause (plain inFunction : Bool) : Node → Bool
  | .catchClause _ param body => param.fits plain && body.isBlock plain inFunction
  | _ => false
end

/-- A well-formed program, whose names and literals are also looked at where it has to be plain. -/
def Node.isWellFormed (plain : Bool) : Node → Bool
  | .program _ body => Node.areStatements plain false body
  | _ => false

/-- The code of a function that may be called. -/
def Code.isWellFormed (plain : Bool) (code : Code) : Bool :=
  code.params.all (Ident.fits plain) && code.body.isBlock plain true

variable {plain inFunction : Bool} {node : Node}

theorem Node.areStatements_iff {statements : List Node} :
    Node.areStatements plain inFunction statements = true ↔
      ∀ statement ∈ statements, statement.isStatement plain inFunction = true := by
  induction statements with
  | nil => simp [Node.areStatements]
  | cons statement rest ih => simp [Node.areStatements, ih]

/-- An identifier of the grammar is an identifier node. -/
theorem Node.exists_of_isIdentifier (identifier : node.isIdentifier plain = true) :
    ∃ ident, node = .identifier ident ∧ ident.fits plain = true := by
  cases node with
  | identifier ident => exact ⟨ident, rfl, identifier⟩
  | _ => simp [Node.isIdentifier] at identifier

theorem Node.exists_of_isBlock (block : node.isBlock plain inFunction = true) :
    ∃ place body exit, node = .block place body exit ∧
      Node.areStatements plain inFunction body = true := by
  cases node with
  | block place body exit => exact ⟨place, body, exit, rfl, block⟩
  | _ => simp [Node.isBlock] at block

/-- A clause of the grammar is a catch clause. -/
theorem Node.exists_of_isClause (clause : node.isClause plain inFunction = true) :
    ∃ place param body, node = .catchClause place param body ∧ param.fits plain = true ∧
      body.isBlock plain inFunction = true := by
  cases node with
  | catchClause place param body =>
      exact ⟨place, param, body, rfl, by simpa [Node.isClause] using clause⟩
  | _ => simp [Node.isClause] at clause

/-- A block is a statement. -/
theorem Node.isStatement_of_isBlock (block : node.isBlock plain inFunction = true) :
    node.isStatement plain inFunction = true := by
  obtain ⟨place, body, exit, rfl, statements⟩ := Node.exists_of_isBlock block
  simpa [Node.isStatement] using statements

/-- A literal that denotes has a value. -/
theorem Tree.literal_of_denotes {tree : Tree} (denotes : tree.denotes = true) :
    ∃ value, tree.literal = .ok value := by
  cases tree with
  | int value =>
      have finite : (Float.ofScientific value.natAbs false 0).isInf = false := by
        simpa [Tree.denotes] using denotes
      simp [Tree.literal, numberOfInt, finite, Except.map]
  | list items => simp [Tree.denotes] at denotes
  | record shape fields => simp [Tree.denotes] at denotes
  | null | bool | float | text => simp [Tree.literal]

mutual
/-- The functions that a node makes values of while it is evaluated or executed itself, the
statements inside it apart. -/
def Node.codes : Node → List Code
  | .functionExpression place name params body => [.ofExpression place name params body]
  | .functionDeclaration place name params body => [.ofDeclaration place name params body]
  | .expressionStatement _ part | .declarator _ _ part | .returnStatement _ part
  | .throwStatement _ part | .unary _ _ part | .property _ _ part | .ifStatement _ part _ _
  | .whileStatement _ part _ => part.codes
  | .declaration _ parts _ | .object _ parts => Node.codesOf parts
  | .binary _ _ left right | .logical _ _ left right | .assignment _ _ left right
  | .member _ left right _ => left.codes ++ right.codes
  | .call _ callee arguments => callee.codes ++ Node.codesOf arguments
  | _ => []

def Node.codesOf : List Node → List Code
  | [] => []
  | node :: rest => node.codes ++ Node.codesOf rest
end

/-- The code of a node that is a function. -/
def Node.code? : Node → Option Code
  | .functionExpression place name params body => some (.ofExpression place name params body)
  | .functionDeclaration place name params body => some (.ofDeclaration place name params body)
  | _ => none

mutual
/-- An expression makes values of function expressions only, and they may be called. -/
theorem Node.codes_of_isExpression {plain : Bool} (node : Node)
    (formed : node.isExpression plain = true) :
    ∀ code ∈ node.codes, code.kind = .functionExpression ∧ code.isWellFormed plain = true := by
  intro code member
  match node with
  | .identifier _ | .literal .. | .array .. => simp [Node.codes] at member
  | .binary _ _ left right | .logical _ _ left right | .assignment _ _ left right
  | .member _ left right _ =>
      simp only [Node.isExpression, Bool.and_eq_true] at formed
      simp only [Node.codes, List.mem_append] at member
      rcases member with inLeft | inRight
      · exact Node.codes_of_isExpression left formed.1 code inLeft
      · exact Node.codes_of_isExpression right formed.2 code inRight
  | .unary _ _ argument =>
      exact Node.codes_of_isExpression argument (by simpa [Node.isExpression] using formed) code
        (by simpa [Node.codes] using member)
  | .call _ callee arguments =>
      simp only [Node.isExpression, Bool.and_eq_true] at formed
      simp only [Node.codes, List.mem_append] at member
      rcases member with inCallee | inArguments
      · exact Node.codes_of_isExpression callee formed.1 code inCallee
      · exact Node.codes_of_areExpressions arguments formed.2 code inArguments
  | .object _ properties =>
      exact Node.codes_of_areProperties properties (by simpa [Node.isExpression] using formed) code
        (by simpa [Node.codes] using member)
  | .functionExpression _ name params body =>
      simp only [Node.isExpression, Bool.and_eq_true] at formed
      simp only [Node.codes, List.mem_singleton] at member
      simp [member, Code.isWellFormed, Code.ofExpression, formed.1.2, formed.2]
  | .absent | .scopeExit _ | .handlerExit _ | .program .. | .block .. | .emptyStatement _
  | .expressionStatement .. | .declarator .. | .declaration .. | .functionDeclaration ..
  | .returnStatement .. | .ifStatement .. | .whileStatement .. | .throwStatement ..
  | .catchClause .. | .tryStatement .. | .property .. => simp [Node.isExpression] at formed

/-- Every function within expressions is well formed. -/
theorem Node.codes_of_areExpressions {plain : Bool} (nodes : List Node)
    (formed : Node.areExpressions plain nodes = true) :
    ∀ code ∈ Node.codesOf nodes, code.kind = .functionExpression ∧ code.isWellFormed plain = true := by
  intro code member
  match nodes with
  | [] => simp [Node.codesOf] at member
  | node :: rest =>
      simp only [Node.areExpressions, Bool.and_eq_true] at formed
      simp only [Node.codesOf, List.mem_append] at member
      rcases member with inNode | inRest
      · exact Node.codes_of_isExpression node formed.1 code inNode
      · exact Node.codes_of_areExpressions rest formed.2 code inRest

theorem Node.codes_of_areProperties {plain : Bool} (nodes : List Node)
    (formed : Node.areProperties plain nodes = true) :
    ∀ code ∈ Node.codesOf nodes, code.kind = .functionExpression ∧ code.isWellFormed plain = true := by
  intro code member
  match nodes with
  | [] => simp [Node.codesOf] at member
  | .property _ key value :: rest =>
      simp only [Node.areProperties, Bool.and_eq_true] at formed
      simp only [Node.codesOf, Node.codes, List.mem_append] at member
      rcases member with inValue | inRest
      · exact Node.codes_of_isExpression value formed.1.2 code inValue
      · exact Node.codes_of_areProperties rest formed.2 code inRest
end

/-- Every function within declarators is well formed. -/
theorem Node.codes_of_areDeclarators {declarators : List Node}
    (formed : Node.areDeclarators plain declarators = true) :
    ∀ code ∈ Node.codesOf declarators, code.kind = .functionExpression ∧ code.isWellFormed plain = true := by
  induction declarators with
  | nil => simp [Node.codesOf]
  | cons declarator rest ih =>
      cases declarator with
      | declarator place target init =>
          simp only [Node.areDeclarators, Bool.and_eq_true, Bool.or_eq_true] at formed
          intro code member
          simp only [Node.codesOf, Node.codes, List.mem_append] at member
          rcases member with inInit | inRest
          · rcases formed.1.2 with absent | expression
            · cases init <;> simp_all [Node.isAbsent, Node.codes]
            · exact Node.codes_of_isExpression init expression code inInit
          · exact ih formed.2 code inRest
      | _ => simp [Node.areDeclarators] at formed

/-- A statement makes values of function expressions and of itself only, and they may be called. -/
theorem Node.codes_of_isStatement (formed : node.isStatement plain inFunction = true) :
    ∀ code ∈ node.codes, (node.code? = some code ∨ code.kind = .functionExpression) ∧
      code.isWellFormed plain = true := by
  intro code member
  have evaluated : ∀ expression : Node, expression.isExpression plain = true → code ∈ expression.codes →
      (node.code? = some code ∨ code.kind = .functionExpression) ∧ code.isWellFormed plain = true := by
    intro expression formed member
    obtain ⟨kind, callable⟩ := Node.codes_of_isExpression expression formed code member
    exact ⟨.inr kind, callable⟩
  cases node with
  | expressionStatement place expression =>
      exact evaluated expression (by simpa [Node.isStatement] using formed)
        (by simpa [Node.codes] using member)
  | declaration place declarators keyword =>
      simp only [Node.isStatement, Bool.and_eq_true] at formed
      obtain ⟨kind, callable⟩ := Node.codes_of_areDeclarators formed.2 code
        (by simpa [Node.codes] using member)
      exact ⟨.inr kind, callable⟩
  | functionDeclaration place name params body =>
      simp only [Node.isStatement, Bool.and_eq_true] at formed
      simp only [Node.codes, List.mem_singleton] at member
      subst member
      exact ⟨.inl rfl, by simp [Code.isWellFormed, Code.ofDeclaration, formed.1.2, formed.2]⟩
  | returnStatement place argument =>
      simp only [Node.isStatement, Bool.and_eq_true, Bool.or_eq_true] at formed
      rcases formed.2 with absent | expression
      · cases argument <;> simp_all [Node.isAbsent, Node.codes]
      · exact evaluated argument expression (by simpa [Node.codes] using member)
  | ifStatement place test consequent alternate =>
      simp only [Node.isStatement, Bool.and_eq_true] at formed
      exact evaluated test formed.1.1 (by simpa [Node.codes] using member)
  | whileStatement place test body =>
      simp only [Node.isStatement, Bool.and_eq_true] at formed
      exact evaluated test formed.1 (by simpa [Node.codes] using member)
  | throwStatement place argument =>
      exact evaluated argument (by simpa [Node.isStatement] using formed)
        (by simpa [Node.codes] using member)
  | _ => simp [Node.codes, Node.isStatement] at member formed

end ScriptMachine
