/-
This file describes the positions of a program: which statements stand where, what follows each of
them, and which pending work the constructs around it call for. Main statements: the statements of a
well-formed program stand at positions that fit them, and what follows a statement stands inside the
same constructs.
-/

import ScriptMachine.Event
import ScriptMachine.Proofs.Grammar
import ScriptMachine.Proofs.Numbering

namespace ScriptMachine

/-- The pending work that a construct calls for while control is inside it. -/
inductive Layer where
  | scope (resume : Control)
  | handler (clause : Node) (resume : Control)

/-- A row of statements directly inside a statement: the exit that they flow into, what comes after
it, and the layers that the construct puts around them. -/
structure Region where
  body : List Node
  exit : Option Nat
  after : Control
  layers : List Layer

/-- The rows of statements inside a statement, given what follows it. A protected block is left
through the exit of its try statement, and its handler lies below its scope. The body of a clause is
left to what follows the try statement. -/
inductive Node.Encloses (next : Control) : Node → Region → Prop where
  | program {place : Place} {body : List Node} :
      Encloses next (.program place body) ⟨body, none, next, []⟩
  | block {place : Place} {body : List Node} {exit : Option Nat} :
      Encloses next (.block place body exit) ⟨body, exit, next, [.scope next]⟩
  | consequent {place : Place} {test consequent alternate : Node} :
      Encloses next (.ifStatement place test consequent alternate) ⟨[consequent], none, next, []⟩
  | alternate {place : Place} {test consequent alternate : Node}
      (present : alternate.isAbsent = false) :
      Encloses next (.ifStatement place test consequent alternate) ⟨[alternate], none, next, []⟩
  | loop {place : Place} {test body : Node} :
      Encloses next (.whileStatement place test body)
        ⟨[body], none, .visit (.whileStatement place test body) next, []⟩
  | guarded {place inner : Place} {body : List Node} {innerExit : Option Nat} {handler : Node}
      {others : List Node} {exit : Nat} :
      Encloses next (.tryStatement place (.block inner body innerExit) handler others exit)
        ⟨body, innerExit, .visit (.handlerExit exit) next,
          [.scope (.visit (.handlerExit exit) next), .handler handler next]⟩
  | clause {place clausePlace inner : Place} {guarded : Node} {param : Ident} {body : List Node}
      {innerExit : Option Nat} {others : List Node} {exit : Nat} :
      Encloses next
        (.tryStatement place guarded (.catchClause clausePlace param (.block inner body innerExit))
          others exit)
        ⟨body, innerExit, next, [.scope next]⟩

/-- Where a statement or an exit of a program stands: inside a function or not, before which
control, and inside which layers. The body of a function begins anew, with nothing after it. -/
inductive Position (program : Node) : Bool → Node → Control → List Layer → Prop where
  | root : Position program false program .done []
  | inside {inFunction : Bool} {node : Node} {next : Control} {layers : List Layer}
      {region : Region} {before : List Node} {statement : Node} {rest : List Node} :
      Position program inFunction node next layers → node.Encloses next region →
      region.body = before ++ statement :: rest →
      Position program inFunction statement (.through rest (.exiting region.exit region.after))
        (region.layers ++ layers)
  | scopeExit {inFunction : Bool} {node : Node} {next : Control} {layers : List Layer}
      {region : Region} {id : Nat} :
      Position program inFunction node next layers → node.Encloses next region →
      region.exit = some id →
      Position program inFunction (.scopeExit id) region.after (region.layers ++ layers)
  | handlerExit {inFunction : Bool} {place : Place} {guarded handler : Node} {others : List Node}
      {exit : Nat} {next : Control} {layers : List Layer} :
      Position program inFunction (.tryStatement place guarded handler others exit) next layers →
      Position program inFunction (.handlerExit exit) next (.handler handler next :: layers)
  | functionBody {inFunction : Bool} {node : Node} {next : Control} {layers : List Layer}
      {code : Code} :
      Position program inFunction node next layers → code ∈ node.codes →
      code.body.emptyBody? = some false → Position program true code.body .nowhere []

/-- Exits are the only positions after which the layers change. -/
def Node.isExit : Node → Bool
  | .scopeExit _ | .handlerExit _ => true
  | _ => false

variable {plain inFunction : Bool} {node : Node} {next : Control} {region : Region}

/-- A statement is no exit. -/
theorem Node.isExit_of_isStatement (statement : node.isStatement plain inFunction = true) :
    node.isExit = false := by
  cases node with
  | scopeExit id | handlerExit id => simp [Node.isStatement] at statement
  | _ => rfl

/-- What a well-formed program has at a position. -/
inductive Standing (plain : Bool) (program : Node) : Bool → Node → Prop where
  | program : Standing plain program false program
  | statement {inFunction : Bool} {node : Node} (formed : node.isStatement plain inFunction = true) :
      Standing plain program inFunction node
  | scopeExit {inFunction : Bool} (id : Nat) : Standing plain program inFunction (.scopeExit id)
  | handlerExit {inFunction : Bool} (id : Nat) : Standing plain program inFunction (.handlerExit id)

/-- The statements of a region are as well formed as the statement around them. -/
theorem Node.isStatement_of_encloses (formed : node.isStatement plain inFunction = true)
    (encloses : node.Encloses next region) :
    ∀ statement ∈ region.body, statement.isStatement plain inFunction = true := by
  cases encloses with
  | program => simp [Node.isStatement] at formed
  | block => exact Node.areStatements_iff.mp (by simpa [Node.isStatement] using formed)
  | consequent =>
      simp only [Node.isStatement, Bool.and_eq_true] at formed
      simpa using formed.1.2
  | alternate present =>
      simp only [Node.isStatement, Bool.and_eq_true, Bool.or_eq_true] at formed
      simpa [present] using formed.2
  | loop =>
      simp only [Node.isStatement, Bool.and_eq_true] at formed
      simpa using formed.2
  | guarded =>
      simp only [Node.isStatement, Node.isBlock, Bool.and_eq_true] at formed
      exact Node.areStatements_iff.mp formed.1
  | clause =>
      simp only [Node.isStatement, Node.isClause, Node.isBlock, Bool.and_eq_true] at formed
      exact Node.areStatements_iff.mp formed.2.2

mutual
/-- Every function that a node makes a value of lies within the node. -/
theorem Node.exists_of_mem_codes (node : Node) :
    ∀ code ∈ node.codes, ∃ function, node.Within function ∧ function.code? = some code := by
  intro code member
  cases node with
  | functionExpression place name params body | functionDeclaration place name params body =>
      simp only [Node.codes, List.mem_singleton] at member
      subst member
      exact ⟨_, .self, rfl⟩
  | expressionStatement _ part | declarator _ _ part | returnStatement _ part | throwStatement _ part
  | unary _ _ part | property _ _ part | ifStatement _ part _ _ | whileStatement _ part _ =>
      obtain ⟨function, inside, made⟩ :=
        Node.exists_of_mem_codes part code (by simpa [Node.codes] using member)
      exact ⟨function, Node.Within.trans (.part .self (by simp [Node.parts])) inside, made⟩
  | declaration _ parts _ | object _ parts =>
      obtain ⟨part, listed, function, inside, made⟩ :=
        Node.exists_of_mem_codesOf parts code (by simpa [Node.codes] using member)
      exact ⟨function, Node.Within.trans (.part .self (by simpa [Node.parts] using listed)) inside, made⟩
  | binary _ _ left right | logical _ _ left right | assignment _ _ left right | member _ left right _ =>
      simp only [Node.codes, List.mem_append] at member
      rcases member with inLeft | inRight
      · obtain ⟨function, inside, made⟩ := Node.exists_of_mem_codes left code inLeft
        exact ⟨function, Node.Within.trans (.part .self (by simp [Node.parts])) inside, made⟩
      · obtain ⟨function, inside, made⟩ := Node.exists_of_mem_codes right code inRight
        exact ⟨function, Node.Within.trans (.part .self (by simp [Node.parts])) inside, made⟩
  | call _ callee arguments =>
      simp only [Node.codes, List.mem_append] at member
      rcases member with inCallee | inArguments
      · obtain ⟨function, inside, made⟩ := Node.exists_of_mem_codes callee code inCallee
        exact ⟨function, Node.Within.trans (.part .self (by simp [Node.parts])) inside, made⟩
      · obtain ⟨part, listed, function, inside, made⟩ :=
          Node.exists_of_mem_codesOf arguments code inArguments
        exact ⟨function, Node.Within.trans (.part .self (by simp [Node.parts, listed])) inside, made⟩
  | _ =>
      simp [Node.codes] at member

theorem Node.exists_of_mem_codesOf (nodes : List Node) :
    ∀ code ∈ Node.codesOf nodes,
      ∃ node ∈ nodes, ∃ function, node.Within function ∧ function.code? = some code := by
  intro code member
  match nodes with
  | [] => simp [Node.codesOf] at member
  | node :: rest =>
      simp only [Node.codesOf, List.mem_append] at member
      rcases member with inNode | inRest
      · exact ⟨node, by simp, Node.exists_of_mem_codes node code inNode⟩
      · obtain ⟨part, listed, inside⟩ := Node.exists_of_mem_codesOf rest code inRest
        exact ⟨part, by simp [listed], inside⟩
end

/-- An exit makes no value of a function. -/
theorem Node.isExit_of_mem_codes {code : Code} (made : code ∈ node.codes) : node.isExit = false := by
  cases node with
  | scopeExit id | handlerExit id => simp [Node.codes] at made
  | _ => rfl

/-- A function's body is one of its parts. -/
theorem Node.body_mem_parts {function : Node} {code : Code} (made : function.code? = some code) :
    code.body ∈ function.parts := by
  cases function with
  | functionExpression | functionDeclaration =>
      cases made
      exact List.mem_cons_of_mem _ List.mem_cons_self
  | _ => cases made

/-- The body of a function lies within every node that makes a value of the function. -/
theorem Node.within_of_mem_codes (node : Node) (code : Code) (made : code ∈ node.codes) :
    node.Within code.body := by
  obtain ⟨function, inside, isCode⟩ := Node.exists_of_mem_codes node code made
  exact .part inside (Node.body_mem_parts isCode)

theorem Node.within_guarded (place : Place) (guarded handler : Node) (others : List Node)
    (exit : Nat) : Node.Within (.tryStatement place guarded handler others exit) guarded :=
  .part .self (by simp [Node.parts])

theorem Node.within_clauseBody (place clause : Place) (guarded body : Node) (param : Ident)
    (others : List Node) (exit : Nat) :
    Node.Within (.tryStatement place guarded (.catchClause clause param body) others exit) body := by
  let handler := Node.catchClause clause param body
  have around : handler ∈ Node.parts (.tryStatement place guarded handler others exit) := by
    simp [Node.parts]
  have inside : body ∈ handler.parts := by simp [handler, Node.parts]
  exact .part (.part .self around) inside

/-- The statements of a region lie within the statement around them. -/
theorem Node.within_of_encloses (encloses : node.Encloses next region) :
    ∀ statement ∈ region.body, node.Within statement := by
  intro statement listed
  cases encloses with
  | program | block => exact .part .self listed
  | consequent | alternate present | loop => exact .part .self (by simp_all [Node.parts])
  | guarded => exact .part (Node.within_guarded ..) listed
  | clause => exact .part (Node.within_clauseBody ..) listed

section

variable {plain inFunction : Bool} {program node : Node} {next : Control} {layers : List Layer}

/-- The functions of a standing node are well formed. -/
theorem Standing.codes_wellFormed (formed : program.isWellFormed plain = true)
    (standing : Standing plain program inFunction node) :
    ∀ code ∈ node.codes, code.isWellFormed plain = true := by
  intro code member
  cases standing with
  | program => cases program <;> simp_all [Node.isWellFormed, Node.codes]
  | statement nodeFormed => exact (Node.codes_of_isStatement nodeFormed code member).2
  | scopeExit id => simp [Node.codes] at member
  | handlerExit id => simp [Node.codes] at member

/-- What stands at a position makes values of function expressions, or of itself if it is a function. -/
theorem Standing.code_of_mem_codes (formed : program.isWellFormed plain = true)
    (standing : Standing plain program inFunction node) :
    ∀ code ∈ node.codes, node.code? = some code ∨ code.kind = .functionExpression := by
  intro code member
  cases standing with
  | program => cases program <;> simp_all [Node.isWellFormed, Node.codes]
  | statement nodeFormed => exact (Node.codes_of_isStatement nodeFormed code member).1
  | scopeExit id => simp [Node.codes] at member
  | handlerExit id => simp [Node.codes] at member

/-- What stands at a position is a statement, unless it is the program or an exit. -/
theorem Standing.isStatement (standing : Standing plain program inFunction node)
    (notProgram : node.isProgram = false) (notExit : node.isExit = false)
    (formed : program.isWellFormed plain = true) : node.isStatement plain inFunction = true := by
  cases standing with
  | program => cases program <;> simp_all [Node.isWellFormed, Node.isProgram]
  | statement nodeFormed => exact nodeFormed
  | scopeExit id => cases notExit
  | handlerExit id => cases notExit

/-- The statements inside what stands at a position are well formed. -/
theorem Standing.isStatement_of_encloses {region : Region}
    (formed : program.isWellFormed plain = true)
    (standing : Standing plain program inFunction node) (encloses : node.Encloses next region) :
    ∀ statement ∈ region.body, statement.isStatement plain inFunction = true := by
  cases standing with
  | program =>
      cases encloses with
      | program => exact Node.areStatements_iff.mp formed
      | _ => simp [Node.isWellFormed] at formed
  | statement nodeFormed => exact Node.isStatement_of_encloses nodeFormed encloses
  | scopeExit id => cases encloses
  | handlerExit id => cases encloses

/-- A position holds a statement, the program, or an exit. -/
theorem Position.standing (formed : program.isWellFormed plain = true)
    (position : Position program inFunction node next layers) :
    Standing plain program inFunction node := by
  induction position with
  | root => exact .program
  | @inside inFunction node next layers region before statement rest _ encloses split
      ih =>
      have listed : statement ∈ region.body := by simp [split]
      exact .statement
        (ih.isStatement_of_encloses formed encloses statement listed)
  | scopeExit => exact .scopeExit _
  | handlerExit => exact .handlerExit _
  | @functionBody inFunction node next layers code _ member _ ih =>
      have callable := ih.codes_wellFormed formed code member
      simp only [Code.isWellFormed, Bool.and_eq_true] at callable
      exact .statement (Node.isStatement_of_isBlock callable.2)

/-- The functions made at a position may be called. -/
theorem Position.codes_wellFormed (formed : program.isWellFormed plain = true)
    (position : Position program inFunction node next layers) :
    ∀ code ∈ node.codes, code.isWellFormed plain = true :=
  (position.standing formed).codes_wellFormed formed

/-- What stands at a position is a part of the program, unless it is an exit. -/
theorem Position.within (position : Position program inFunction node next layers)
    (notExit : node.isExit = false) : program.Within node := by
  induction position with
  | root => exact .self
  | @inside inFunction node next layers region before statement rest _ encloses split
      ih =>
      have inside := Node.within_of_encloses encloses statement (by simp [split])
      exact (ih (by cases encloses <;> rfl)).trans inside
  | scopeExit => cases notExit
  | handlerExit => cases notExit
  | @functionBody inFunction node next layers code _ member _ ih =>
      have inside := Node.within_of_mem_codes node code member
      exact (ih (Node.isExit_of_mem_codes member)).trans inside

/-- Blocks at positions own the right exits when the program does. -/
theorem Position.ownsExits (owns : program.OwnsExits)
    (position : Position program inFunction node next layers) : node.OwnsExits := by
  cases exit : node.isExit with
  | false => exact fun inner deeper => owns inner ((position.within exit).trans deeper)
  | true =>
      cases node with
      | scopeExit id | handlerExit id =>
          exact Node.every_iff.mpr ⟨rfl, fun part member => absurd member List.not_mem_nil⟩
      | _ => cases exit

end

end ScriptMachine
