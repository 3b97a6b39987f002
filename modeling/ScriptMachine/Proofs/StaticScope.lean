/-
This file compares the scopes of a run with the scopes that its program is written in. Main statement:
wherever control stands, pending work goes on or a function was made, there is one frame for every
static scope around that place, and it binds names that are declared there.
-/

import ScriptMachine.Proofs.Exploration

namespace ScriptMachine

/-- The names that a statement declares in the scope where it stands, also under a branch or a loop. -/
def Node.declaredDirectly : Node → List Name
  | .ifStatement _ _ consequent alternate =>
      consequent.declaredDirectly ++ alternate.declaredDirectly
  | .whileStatement _ _ body => body.declaredDirectly
  | node => node.declares

/-- The scopes that a program is written in. -/
inductive StaticScope where
  | program (body : List Node)
  | block (body : List Node)
  | params (code : Code)
  | clause (param : Ident) (body : List Node)

def StaticScope.names : StaticScope → List Name
  | .program body =>
      ["print", "undefined", "%ObjectPrototype%"].map Name.ofText ++ body.flatMap Node.declaredDirectly
  | .block body => body.flatMap Node.declaredDirectly
  | .params code => code.params.map Ident.name
  | .clause param body => param.name :: body.flatMap Node.declaredDirectly

def StaticScope.Declares (scope : StaticScope) (key : Key) : Prop :=
  ∃ name ∈ scope.names, name.key = .ok key

/-- The rows of statements inside a statement, with the scope that is opened for them, if any, and the
exit that they flow into. -/
inductive Node.Nests : Node → List StaticScope → List Node → Option Nat → Prop where
  | block (place : Place) (body : List Node) (exit : Option Nat) :
      Nests (.block place body exit) [.block body] body exit
  | consequent (place : Place) (test consequent alternate : Node) :
      Nests (.ifStatement place test consequent alternate) [] [consequent] none
  | alternate (place : Place) (test consequent : Node) {alternate : Node}
      (present : alternate.isAbsent = false) :
      Nests (.ifStatement place test consequent alternate) [] [alternate] none
  | loop (place : Place) (test body : Node) : Nests (.whileStatement place test body) [] [body] none
  | guarded (place inner : Place) (body : List Node) (innerExit : Option Nat) (handler : Node)
      (others : List Node) (exit : Nat) :
      Nests (.tryStatement place (.block inner body innerExit) handler others exit) [.block body] body
        innerExit
  | clause (place clausePlace inner : Place) (guarded : Node) (param : Ident) (body : List Node)
      (innerExit : Option Nat) (others : List Node) (exit : Nat) :
      Nests (.tryStatement place guarded
          (.catchClause clausePlace param (.block inner body innerExit)) others exit)
        [.clause param body] body innerExit

/-- The static scopes around a statement of a program, from the inside. The exit of a block counts as
inside of it, and the exit of a try statement as outside. -/
inductive Enclosed (program : Node) : Node → List StaticScope → Prop where
  | program {place : Place} {body : List Node} (root : program = .program place body) :
      Enclosed program program [.program body]
  | statement {place : Place} {body : List Node} {statement : Node}
      (root : program = .program place body) (member : statement ∈ body) :
      Enclosed program statement [.program body]
  | nested {node statement : Node} {scopes opened : List StaticScope} {body : List Node}
      {exit : Option Nat} (around : Enclosed program node scopes)
      (nests : node.Nests opened body exit) (member : statement ∈ body) :
      Enclosed program statement (opened ++ scopes)
  | scopeExit {node : Node} {scopes opened : List StaticScope} {body : List Node} {id : Nat}
      (around : Enclosed program node scopes) (nests : node.Nests opened body (some id)) :
      Enclosed program (.scopeExit id) (opened ++ scopes)
  | handlerExit {place : Place} {guarded handler : Node} {others : List Node} {exit : Nat}
      {scopes : List StaticScope}
      (around : Enclosed program (.tryStatement place guarded handler others exit) scopes) :
      Enclosed program (.handlerExit exit) scopes
  | functionBody {node : Node} {scopes : List StaticScope} {code : Code}
      (around : Enclosed program node scopes) (made : code ∈ node.codes) :
      Enclosed program code.body (.params code :: scopes)

variable {node : Node}

theorem Node.mem_declaredDirectly {name : Name} (declared : name ∈ node.declares) :
    name ∈ node.declaredDirectly := by
  cases node with
  | declaration | functionDeclaration => exact declared
  | _ => cases declared

/-- What nests encloses a region. -/
theorem Node.Nests.exists_encloses {opened : List StaticScope} {body : List Node} {exit : Option Nat}
    (nests : node.Nests opened body exit) : ∃ region, node.Encloses .done region ∧ region.body = body := by
  cases nests with
  | block => exact ⟨_, .block, rfl⟩
  | consequent => exact ⟨_, .consequent, rfl⟩
  | alternate _ _ _ present => exact ⟨_, .alternate present, rfl⟩
  | loop => exact ⟨_, .loop, rfl⟩
  | guarded => exact ⟨_, .guarded, rfl⟩
  | clause => exact ⟨_, .clause, rfl⟩

namespace Enclosed

variable {program node : Node} {scopes : List StaticScope} {plain : Bool}

/-- What is enclosed is a statement, the program, or an exit. -/
theorem standing (enclosed : Enclosed program node scopes)
    (formed : program.isWellFormed plain = true) :
    ∃ inFunction, Standing plain program inFunction node := by
  induction enclosed with
  | program root => exact ⟨false, .program⟩
  | statement root member =>
      subst root
      exact ⟨false, .statement (Node.areStatements_iff.mp formed _ member)⟩
  | nested _ nests member ih =>
      obtain ⟨inFunction, standing⟩ := ih
      obtain ⟨region, encloses, rfl⟩ := nests.exists_encloses
      exact ⟨inFunction, .statement (standing.isStatement_of_encloses formed encloses _ member)⟩
  | scopeExit => exact ⟨false, .scopeExit _⟩
  | handlerExit => exact ⟨false, .handlerExit _⟩
  | functionBody _ made ih =>
      obtain ⟨inFunction, standing⟩ := ih
      have callable := standing.codes_wellFormed formed _ made
      simp only [Code.isWellFormed, Bool.and_eq_true] at callable
      exact ⟨true, .statement (Node.isStatement_of_isBlock callable.2)⟩

/-- What is enclosed lies within the program, unless it is an exit. -/
theorem within (enclosed : Enclosed program node scopes) (notExit : node.isExit = false) :
    program.Within node := by
  induction enclosed with
  | program root => exact .self
  | statement root member =>
      subst root
      exact .part .self member
  | nested _ nests member ih =>
      obtain ⟨region, encloses, rfl⟩ := nests.exists_encloses
      have inside := Node.within_of_encloses encloses _ member
      exact (ih (by cases encloses <;> rfl)).trans inside
  | scopeExit => cases notExit
  | handlerExit => cases notExit
  | @functionBody node scopes code _ made ih =>
      have around : node.isExit = false := by
        cases node with
        | scopeExit id | handlerExit id => simp [Node.codes] at made
        | _ => rfl
      exact (ih around).trans (Node.within_of_mem_codes node code made)

/-- The innermost of the static scopes declares what a statement declares. -/
theorem declares (enclosed : Enclosed program node scopes)
    (formed : program.isWellFormed plain = true) {name : Name}
    (declared : name ∈ node.declaredDirectly) :
    ∃ first rest, scopes = first :: rest ∧ name ∈ first.names := by
  induction enclosed with
  | program root =>
      subst root
      cases declared
  | statement root member =>
      exact ⟨_, _, rfl, List.mem_append_right _ (List.mem_flatMap.mpr ⟨_, member, declared⟩)⟩
  | nested _ nests member ih =>
      cases nests with
      | block | guarded => exact ⟨_, _, rfl, List.mem_flatMap.mpr ⟨_, member, declared⟩⟩
      | clause =>
          exact ⟨_, _, rfl, List.mem_cons_of_mem _ (List.mem_flatMap.mpr ⟨_, member, declared⟩)⟩
      | consequent =>
          obtain rfl := List.mem_singleton.mp member
          exact ih (List.mem_append_left _ declared)
      | alternate =>
          obtain rfl := List.mem_singleton.mp member
          exact ih (List.mem_append_right _ declared)
      | loop =>
          obtain rfl := List.mem_singleton.mp member
          exact ih declared
  | scopeExit => cases declared
  | handlerExit => cases declared
  | functionBody around made =>
      obtain ⟨inFunction, standing⟩ := around.standing formed
      have callable := standing.codes_wellFormed formed _ made
      simp only [Code.isWellFormed, Bool.and_eq_true] at callable
      obtain ⟨place, body, exit, isBlock, -⟩ := Node.exists_of_isBlock callable.2
      rw [isBlock] at declared
      cases declared

/-- Only the program itself stands as a program. -/
theorem root {place : Place} {body : List Node}
    (enclosed : Enclosed program (.program place body) scopes)
    (formed : program.isWellFormed plain = true) :
    program = .program place body ∧ scopes = [.program body] := by
  have noStatement : ∀ {inFunction}, (Node.program place body).isStatement plain inFunction ≠ true := by
    intro inFunction statement
    simp [Node.isStatement] at statement
  generalize same : Node.program place body = node at enclosed noStatement
  cases enclosed with
  | program root =>
      cases same.trans root
      exact ⟨rfl, rfl⟩
  | statement root member =>
      subst root
      exact absurd (Node.areStatements_iff.mp formed _ member) noStatement
  | nested around nests member =>
      obtain ⟨inFunction, standing⟩ := around.standing formed
      obtain ⟨region, encloses, rfl⟩ := nests.exists_encloses
      exact absurd (standing.isStatement_of_encloses formed encloses _ member) noStatement
  | scopeExit => cases same
  | handlerExit => cases same
  | functionBody around made =>
      obtain ⟨inFunction, standing⟩ := around.standing formed
      have callable := standing.codes_wellFormed formed _ made
      simp only [Code.isWellFormed, Bool.and_eq_true] at callable
      exact absurd (Node.isStatement_of_isBlock callable.2) noStatement

end Enclosed

/-- The static scopes around the place where control stands. What follows the body of a function is
still in the scope of its parameters. -/
def Control.Enclosed (program : Node) : Control → List StaticScope → Prop
  | .nowhere, scopes => ∃ node outer code, ScriptMachine.Enclosed program node outer ∧
      code ∈ node.codes ∧ scopes = .params code :: outer
  | .done, scopes => ∃ place body, program = .program place body ∧ scopes = [.program body]
  | .visit node _, scopes => ScriptMachine.Enclosed program node scopes

/-- The static scopes around what follows a node. -/
def Node.leave : Node → List StaticScope → List StaticScope
  | .scopeExit _, scopes => scopes.tail
  | _, scopes => scopes

/-- Control and everything that follows it stand inside their static scopes. -/
def Control.Lies (program : Node) : Control → List StaticScope → Prop
  | .visit node next, scopes =>
      ScriptMachine.Enclosed program node scopes ∧ next.Lies program (node.leave scopes)
  | control, scopes => control.Enclosed program scopes

namespace Control

variable {program : Node} {control next : Control} {scopes : List StaticScope}

/-- Where control lies, it is enclosed. -/
theorem Lies.enclosed (lies : control.Lies program scopes) : control.Enclosed program scopes := by
  cases control with
  | nowhere | done => exact lies
  | visit node next => exact lies.1

/-- Control past a node lies where it did. -/
theorem Lies.onward {node : Node} (lies : (visit node next).Lies program scopes)
    (inside : node.isExit = false) : next.Lies program scopes := by
  have after := lies.2
  cases node with
  | scopeExit => cases inside
  | _ => exact after

/-- A row of statements lies where each of them does, and what follows it. -/
theorem lies_through {body : List Node}
    (enclosed : ∀ statement ∈ body, ScriptMachine.Enclosed program statement scopes)
    (inside : ∀ statement ∈ body, statement.isExit = false) (after : next.Lies program scopes) :
    (through body next).Lies program scopes := by
  induction body with
  | nil => exact after
  | cons statement rest ih =>
      obtain ⟨first, others⟩ := List.forall_mem_cons.mp enclosed
      obtain ⟨firstInside, othersInside⟩ := List.forall_mem_cons.mp inside
      refine ⟨first, ?_⟩
      have same : statement.leave scopes = scopes := by
        cases statement with
        | scopeExit => cases firstInside
        | _ => rfl
      rw [same]
      exact ih others othersInside

section

variable {plain : Bool} (formed : program.isWellFormed plain = true)
include formed
variable {node : Node} {body : List Node} {exit : Option Nat}

/-- A nested body lies in the scopes its holder opens. -/
theorem lies_nested {opened : List StaticScope} (enclosed : ScriptMachine.Enclosed program node scopes)
    (nests : node.Nests opened body exit) (after : next.Lies program (opened ++ scopes)) :
    (through body next).Lies program (opened ++ scopes) := by
  refine lies_through (fun statement member => .nested enclosed nests member) ?_ after
  intro statement member
  obtain ⟨inFunction, standing⟩ := enclosed.standing formed
  obtain ⟨region, encloses, rfl⟩ := nests.exists_encloses
  exact Node.isExit_of_isStatement (standing.isStatement_of_encloses formed encloses statement member)

/-- Control that goes on in the same scope stays inside the same static scopes. -/
theorem Lies.flows (lies : control.Lies program scopes) {further : Control}
    (flows : control.Flows further) : further.Lies program scopes := by
  cases flows with
  | next next inside => exact lies.onward inside
  | program place body next =>
      obtain ⟨root, rfl⟩ := lies.1.root formed
      refine lies_through (fun statement member => .statement root member) ?_ (lies.onward rfl)
      intro statement member
      rw [root] at formed
      exact Node.isExit_of_isStatement (Node.areStatements_iff.mp formed statement member)
  | consequent place test consequent alternate next =>
      exact lies_nested formed lies.1 (.consequent ..) (lies.onward rfl)
  | alternate place test consequent next present =>
      exact lies_nested formed lies.1 (.alternate _ _ _ present) (lies.onward rfl)
  | loop place test body next => exact lies_nested formed lies.1 (.loop ..) lies
  | protectedExit place guarded handler others exit next =>
      exact ⟨.handlerExit lies.1, lies.onward rfl⟩

/-- A body that owns its exit lies in the scope that is opened for it. -/
theorem lies_body {scope : StaticScope} (enclosed : ScriptMachine.Enclosed program node scopes)
    (nests : node.Nests [scope] body exit) (owned : exit.isSome = true) (after : next.Lies program scopes) :
    (through body (exiting exit next)).Lies program (scope :: scopes) := by
  obtain ⟨id, rfl⟩ := Option.isSome_iff_exists.mp owned
  exact lies_nested formed enclosed nests ⟨.scopeExit enclosed nests, after⟩

/-- Control that enters a body lies in one more static scope, which has the names of the parameters. -/
theorem Lies.opens (owns : program.OwnsExits) (lies : control.Lies program scopes) {entered : Control}
    {params : List Ident} (opens : control.Opens params entered) :
    ∃ scope, entered.Lies program (scope :: scopes) ∧ ∀ param ∈ params, param.name ∈ scope.names := by
  have owned : ∀ {place : Place} {body : List Node} {exit : Option Nat},
      program.Within (.block place body exit) → body.isEmpty = false → exit.isSome = true := by
    intro place body exit within filled
    have own := owns _ within
    simpa [Node.ownsExit, filled] using own
  cases opens with
  | block place exit next filled =>
      exact ⟨.block _, lies_body formed lies.1 (.block ..) (owned (lies.1.within rfl) filled)
        (lies.onward rfl), fun param member => absurd member List.not_mem_nil⟩
  | @guarded place guarded handler others exit next filled =>
      obtain ⟨inFunction, standing⟩ := lies.1.standing formed
      have statement := standing.isStatement rfl rfl formed
      simp only [Node.isStatement, Bool.and_eq_true] at statement
      obtain ⟨inner, body, innerExit, rfl, -⟩ := Node.exists_of_isBlock statement.1
      have whole := (lies.1.within rfl).trans (Node.within_guarded ..)
      have leaving : (visit (.handlerExit exit) next).Lies program scopes :=
        ⟨.handlerExit lies.1, lies.onward rfl⟩
      have filled : body.isEmpty = false := Option.some.inj filled
      have entered := lies_body formed lies.1 (.guarded ..) (owned whole filled) leaving
      refine ⟨.block body, ?_, fun param member => absurd member List.not_mem_nil⟩
      cases body with
      | nil => cases filled
      | cons first rest => exact entered
  | @clause place clausePlace guarded param body others exit next filled =>
      obtain ⟨inFunction, standing⟩ := lies.1.standing formed
      have statement := standing.isStatement rfl rfl formed
      simp only [Node.isStatement, Node.isClause, Bool.and_eq_true] at statement
      obtain ⟨inner, body, innerExit, rfl, -⟩ := Node.exists_of_isBlock statement.2.2
      have whole := (lies.1.within rfl).trans (Node.within_clauseBody ..)
      have filled : body.isEmpty = false := Option.some.inj filled
      refine ⟨.clause param body, lies_body formed lies.1 (.clause ..) (owned whole filled)
        (lies.onward rfl), ?_⟩
      intro other member
      obtain rfl := List.mem_singleton.mp member
      exact List.mem_cons_self

end

end Control

/-- The body of a function lies in the scope of its parameters, and nothing follows it. -/
theorem Enclosed.lies_functionBody {program : Node} {scopes : List StaticScope} {code : Code} {plain : Bool}
    (enclosed : Enclosed program node scopes) (formed : program.isWellFormed plain = true)
    (made : code ∈ node.codes) :
    (Control.visit code.body .nowhere).Lies program (.params code :: scopes) := by
  obtain ⟨inFunction, standing⟩ := enclosed.standing formed
  have callable := standing.codes_wellFormed formed code made
  simp only [Code.isWellFormed, Bool.and_eq_true] at callable
  have inside := Node.isExit_of_isStatement (Node.isStatement_of_isBlock callable.2)
  have after : Control.nowhere.Lies program (.params code :: scopes) :=
    ⟨node, scopes, code, enclosed, made, rfl⟩
  have row : (Control.through [code.body] .nowhere).Lies program (.params code :: scopes) := by
    refine Control.lies_through ?_ ?_ after
    · simpa using Enclosed.functionBody enclosed made
    · simpa using inside
  exact row

end ScriptMachine
