/-
This file compares continuations with positions. Main statements: what follows a statement stands
inside the same layers, and leaving a region pops the layer that entering it pushed.
-/

import ScriptMachine.Proofs.Equation
import ScriptMachine.Proofs.Position

namespace ScriptMachine

/-- A block with statements, which is what the body of a function is when it is entered. -/
def Node.isFilledBlock : Node → Bool
  | .block _ body _ => !body.isEmpty
  | _ => false

/-- The statements that calls are entered from. -/
def Node.mayCall : Node → Bool
  | .expressionStatement .. | .declaration .. => true
  | _ => false

/-- Where control may go on: at a position, at the end of the program, or, after the body of a
function, nowhere. -/
inductive Follows (program : Node) : Bool → Control → List Layer → Prop where
  | nowhere : Follows program true .nowhere []
  | done : Follows program false .done []
  | visit {inFunction : Bool} {node : Node} {next : Control} {layers : List Layer} :
      Position program inFunction node next layers →
      Follows program inFunction (.visit node next) layers

/-- A function belongs to a program when a node at one of its positions makes values of it. -/
def Code.Belongs (program : Node) (code : Code) : Prop :=
  ∃ inFunction node next layers, Position program inFunction node next layers ∧ code ∈ node.codes

section

variable {program node : Node} {inFunction plain : Bool} {next : Control} {layers : List Layer}
  {region : Region} {id : Nat}

/-- An exit leaves the scope that is the outermost part of its region. -/
theorem Node.Encloses.layers_of_exit (encloses : node.Encloses next region) (exits : region.exit = some id) :
    region.layers = .scope region.after :: region.layers.tail := by
  cases encloses with
  | program | consequent | alternate present | loop => cases exits
  | block | guarded | clause => rfl

/-- A row of statements without an exit is inside no layer of its own. -/
theorem Node.Encloses.layers_of_no_exit (encloses : node.Encloses next region)
    (owns : node.OwnsExits) (filled : region.body ≠ []) (exits : region.exit = none) :
    region.layers = [] := by
  have blockExit : ∀ place body exit, node.Within (.block place body exit) → body ≠ [] →
      exit ≠ none := by
    intro place body exit within notEmpty missing
    have own := owns _ within
    cases body with
    | nil => exact notEmpty rfl
    | cons first rest => simp [Node.ownsExit, missing] at own
  cases encloses with
  | program | consequent | alternate present | loop => rfl
  | block => exact absurd exits (blockExit _ _ _ .self filled)
  | guarded => exact absurd exits (blockExit _ _ _ (Node.within_guarded ..) filled)
  | clause => exact absurd exits (blockExit _ _ _ (Node.within_clauseBody ..) filled)

/-- What comes after a region stands inside all layers but the first of the region's own. -/
theorem Position.after_of_follows (position : Position program inFunction node next layers)
    (follows : Follows program inFunction next layers) (encloses : node.Encloses next region) :
    Follows program inFunction region.after (region.layers.tail ++ layers) := by
  cases encloses with
  | program | block | consequent | alternate present | clause => exact follows
  | loop => exact .visit position
  | guarded => exact .visit position.handlerExit

/-- Exits have no statements inside. -/
theorem Node.Encloses.isExit (encloses : node.Encloses next region) : node.isExit = false := by
  cases encloses <;> rfl

/-- What follows a statement stands inside the same layers as the statement. -/
theorem Position.follows (owns : program.OwnsExits)
    (position : Position program inFunction node next layers) (notExit : node.isExit = false) :
    Follows program inFunction next layers := by
  induction position with
  | root => exact .done
  | @inside inFunction node next layers region before statement rest around encloses split
      ih =>
      cases rest with
      | cons following rest =>
          have later : region.body = (before ++ [statement]) ++ following :: rest := by
            simpa using split
          exact .visit (around.inside encloses later)
      | nil =>
          have filled : region.body ≠ [] := by simp [split]
          cases exits : region.exit with
          | some id => exact .visit (around.scopeExit encloses exits)
          | none =>
              have bare := encloses.layers_of_no_exit (around.ownsExits owns) filled exits
              have after := around.after_of_follows (ih encloses.isExit) encloses
              simpa [Control.exiting, bare] using after
  | scopeExit => cases notExit
  | handlerExit => cases notExit
  | functionBody => exact .nowhere

/-- The statements of a region stand inside the layers of the region. -/
theorem Position.enter (position : Position program inFunction node next layers)
    (encloses : node.Encloses next region) {first : Node} {rest : List Node}
    (filled : region.body = first :: rest) :
    Position program inFunction first (.through rest (.exiting region.exit region.after))
      (region.layers ++ layers) :=
  @Position.inside program _ _ _ _ _ [] _ _ position encloses filled

/-- Only the filled body of a function, and exits, are followed by nothing. -/
theorem Position.next_ne_nowhere (formed : program.isWellFormed plain = true) (owns : program.OwnsExits)
    (position : Position program inFunction node next layers) (notExit : node.isExit = false)
    (notFilled : node.isFilledBlock = false) : next ≠ .nowhere := by
  induction position with
  | root => exact Control.noConfusion
  | @inside inFunction node next layers region before statement rest around encloses split
      ih =>
      cases rest with
      | cons following rest => exact Control.noConfusion
      | nil =>
          cases exits : region.exit with
          | some id => exact Control.noConfusion
          | none =>
              have filled : region.body ≠ [] := by simp [split]
              have bare := encloses.layers_of_no_exit (around.ownsExits owns) filled exits
              cases encloses with
              | program | consequent | alternate present => exact ih rfl rfl
              | loop => exact Control.noConfusion
              | block | guarded | clause => cases bare
  | scopeExit => cases notExit
  | handlerExit => cases notExit
  | @functionBody inFunction node next layers code position member filled =>
      have callable := position.codes_wellFormed formed code member
      simp only [Code.isWellFormed, Bool.and_eq_true] at callable
      obtain ⟨place, body, exit, block, -⟩ := Node.exists_of_isBlock callable.2
      simp_all [Node.isFilledBlock, Node.emptyBody?]

/-- What a test selects stands inside the same layers as the choice or the loop. -/
theorem Position.follows_selected (formed : program.isWellFormed plain = true) (owns : program.OwnsExits)
    (position : Position program inFunction node next layers) {test : Node}
    (tests : node.test? = some test) (truth : Bool) :
    Follows program inFunction (node.selected next truth) layers ∧
      node.selected next truth ≠ .nowhere := by
  cases node with
  | ifStatement place test consequent alternate =>
      cases truth with
      | true => exact ⟨.visit (position.enter .consequent rfl), Control.noConfusion⟩
      | false =>
          unfold Node.selected
          dsimp only
          split
          · exact ⟨position.follows owns rfl, position.next_ne_nowhere formed owns rfl rfl⟩
          · rename_i present
            exact ⟨.visit (position.enter (.alternate (by simpa using present)) rfl), Control.noConfusion⟩
  | whileStatement place test body =>
      cases truth with
      | true => exact ⟨.visit (position.enter .loop rfl), Control.noConfusion⟩
      | false => exact ⟨position.follows owns rfl, position.next_ne_nowhere formed owns rfl rfl⟩
  | _ => cases tests

/-- After a call, control goes on inside the layers of the statement that made it. -/
theorem Position.follows_call (formed : program.isWellFormed plain = true) (owns : program.OwnsExits)
    (position : Position program inFunction node next layers) (calls : node.mayCall = true) :
    Follows program inFunction next layers ∧ next ≠ .nowhere := by
  have notExit : node.isExit = false := by
    cases node with
    | expressionStatement | declaration => rfl
    | _ => cases calls
  have notFilled : node.isFilledBlock = false := by
    cases node with
    | expressionStatement | declaration => rfl
    | _ => cases calls
  exact ⟨position.follows owns notExit, position.next_ne_nowhere formed owns notExit notFilled⟩

/-- An exit from a scope stands directly inside the scope that it leaves. -/
theorem Position.layers_of_scopeExit (formed : program.isWellFormed plain = true)
    (position : Position program inFunction (.scopeExit id) next layers) :
    ∃ rest, layers = .scope next :: rest := by
  generalize exit : Node.scopeExit id = node at position
  cases position with
  | root => simp [← exit, Node.isWellFormed] at formed
  | @inside _ outer next layers region before statement rest around encloses split =>
      have listed : node ∈ region.body := by simp [split]
      have inside := (around.standing formed).isStatement_of_encloses formed encloses _ listed
      simp [← exit, Node.isStatement] at inside
  | @scopeExit _ _ _ outer region _ around encloses exits =>
      rw [encloses.layers_of_exit exits, List.cons_append]
      exact ⟨_, rfl⟩
  | handlerExit => cases exit
  | functionBody around member filled => simp [← exit, Node.emptyBody?] at filled

/-- An exit from a protected block stands directly above its handler. -/
theorem Position.layers_of_handlerExit (formed : program.isWellFormed plain = true)
    (position : Position program inFunction (.handlerExit id) next layers) :
    ∃ clause rest, layers = .handler clause next :: rest := by
  generalize exit : Node.handlerExit id = node at position
  cases position with
  | root => simp [← exit, Node.isWellFormed] at formed
  | @inside _ outer next layers region before statement rest around encloses split =>
      have listed : node ∈ region.body := by simp [split]
      have inside := (around.standing formed).isStatement_of_encloses formed encloses _ listed
      simp [← exit, Node.isStatement] at inside
  | scopeExit => cases exit
  | handlerExit around => exact ⟨_, _, rfl⟩
  | functionBody around member filled => simp [← exit, Node.emptyBody?] at filled

end

/-- The layers that the innermost call of a continuation, or the program, has entered. -/
def Continuation.innermost : Continuation → List Layer
  | .scope resume _ :: rest => .scope resume :: Continuation.innermost rest
  | .handler clause _ resume :: rest => .handler clause resume :: Continuation.innermost rest
  | .call .. :: _ | [] => []

/-- Whether a call is waiting for its value. -/
def Continuation.inCall : Continuation → Bool
  | [] => false
  | .call .. :: _ => true
  | _ :: rest => Continuation.inCall rest

/-- Pending work that fits the layers of a position, and below it that of the statements that wait
for calls. -/
inductive Stacked (program : Node) : Bool → List Layer → Continuation → Prop where
  | halt : Stacked program false [] []
  | call {inFunction : Bool} {site : Node} {layers : List Layer} {target : Target}
      {resume : Control} {scope : Scope} {rest : Continuation} :
      Position program inFunction site resume layers → site.mayCall = true →
      Stacked program inFunction layers rest →
      Stacked program true [] (.call target resume scope :: rest)
  | scope {inFunction : Bool} {layers : List Layer} {resume : Control} {outer : Scope}
      {rest : Continuation} :
      Follows program inFunction resume layers → Stacked program inFunction layers rest →
      Stacked program inFunction (.scope resume :: layers) (.scope resume outer :: rest)
  | handler {inFunction : Bool} {layers : List Layer} {place : Place} {guarded clause : Node}
      {others : List Node} {exit : Nat} {resume : Control} {scope : Scope} {rest : Continuation} :
      Position program inFunction (.tryStatement place guarded clause others exit) resume layers →
      Stacked program inFunction layers rest →
      Stacked program inFunction (.handler clause resume :: layers)
        (.handler clause scope resume :: rest)

variable {program : Node} {inFunction : Bool} {layers : List Layer} {continuation : Continuation}

/-- The layers are those of the innermost call. -/
theorem Stacked.innermost (stacked : Stacked program inFunction layers continuation) :
    continuation.innermost = layers := by
  induction stacked with
  | halt => rfl
  | call => rfl
  | scope _ _ ih => rw [Continuation.innermost, ih]
  | handler _ _ ih => rw [Continuation.innermost, ih]

/-- A stack tells whether it stands in a call. -/
theorem Stacked.inCall (stacked : Stacked program inFunction layers continuation) :
    continuation.inCall = inFunction := by
  induction stacked with
  | halt => rfl
  | call => rfl
  | scope _ _ ih => exact ih
  | handler _ _ ih => exact ih

end ScriptMachine
