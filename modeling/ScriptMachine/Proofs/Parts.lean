/-
This file says what lies within a node. Main statement: a check that is made part by part reaches
everything that lies within a node.
-/

import ScriptMachine.Node

namespace ScriptMachine

/-- The nodes directly inside a node. -/
def Node.parts : Node → List Node
  | .absent | .scopeExit _ | .handlerExit _ | .emptyStatement _ | .identifier _ | .literal .. => []
  | .program _ parts | .block _ parts _ | .declaration _ parts _ | .object _ parts
  | .array _ parts => parts
  | .expressionStatement _ part | .declarator _ _ part | .returnStatement _ part
  | .throwStatement _ part | .catchClause _ _ part | .unary _ _ part | .property _ _ part => [part]
  | .functionDeclaration _ first _ second | .functionExpression _ first _ second
  | .whileStatement _ first second | .binary _ _ first second | .logical _ _ first second
  | .assignment _ _ first second | .member _ first second _ => [first, second]
  | .ifStatement _ test consequent alternate => [test, consequent, alternate]
  | .tryStatement _ guarded handler others _ => guarded :: handler :: others
  | .call _ callee arguments => callee :: arguments

/-- A node lies within itself and within everything that has it as a part. -/
inductive Node.Within (root : Node) : Node → Prop where
  | self : Within root root
  | part {node part : Node} : Within root node → part ∈ node.parts → Within root part

variable {root node : Node} {check : Node → Bool}

theorem Node.Within.trans {middle : Node} (outer : root.Within middle) (inner : middle.Within node) :
    root.Within node := by
  induction inner with
  | self => exact outer
  | part _ member ih => exact .part ih member

/-- What lies within is the root, or lies within a part. -/
theorem Node.within_iff : root.Within node ↔ node = root ∨ ∃ part ∈ root.parts, part.Within node := by
  constructor
  · intro within
    induction within with
    | self => exact .inl rfl
    | @part middle part _ member ih =>
        rcases ih with rfl | ⟨first, inside, deeper⟩
        · exact .inr ⟨part, member, .self⟩
        · exact .inr ⟨first, inside, .part deeper member⟩
  · rintro (rfl | ⟨part, inside, deeper⟩)
    · exact .self
    · exact (Node.Within.part .self inside).trans deeper

theorem Node.sizeOf_part {part : Node} (member : part ∈ node.parts) : sizeOf part < sizeOf node := by
  have listed : ∀ parts : List Node, part ∈ parts → sizeOf part < sizeOf parts :=
    fun _ inside => List.sizeOf_lt_of_mem inside
  cases node <;> simp only [Node.parts, List.mem_cons, List.not_mem_nil, or_false] at member <;> grind

/-- Induction from everything below a node to the node itself. -/
theorem Node.parts_induction {motive : Node → Prop}
    (step : ∀ node, (∀ part ∈ node.parts, ∀ inner, part.Within inner → motive inner) → motive node)
    (node : Node) : motive node := by
  have smaller : ∀ {part inner : Node}, part.Within inner → sizeOf inner ≤ sizeOf part := by
    intro part inner within
    induction within with
    | self => exact Nat.le_refl _
    | part _ member ih => exact Nat.le_trans (Nat.le_of_lt (Node.sizeOf_part member)) ih
  induction size : sizeOf node using Nat.strongRecOn generalizing node with
  | _ size ih =>
      subst size
      refine step node fun part member inner within => ih _ ?_ inner rfl
      exact Nat.lt_of_le_of_lt (smaller within) (Node.sizeOf_part member)

/-- A check that a node passes together with everything that lies within it. -/
def Node.Every (check : Node → Bool) (root : Node) : Prop :=
  ∀ node, root.Within node → check node = true

/-- A check holds everywhere when it holds at the root and the parts. -/
theorem Node.every_iff : root.Every check ↔ check root = true ∧ ∀ part ∈ root.parts, part.Every check := by
  constructor
  · intro every
    refine ⟨every root .self, fun part member node within => every node ?_⟩
    exact (Node.Within.part .self member).trans within
  · rintro ⟨own, inner⟩ node within
    rcases Node.within_iff.mp within with rfl | ⟨part, member, deeper⟩
    · exact own
    · exact inner part member node deeper

mutual
/-- A node is checked first, and then its parts. -/
def Node.all (check : Node → Bool) (node : Node) : Bool :=
  check node && match node with
    | .absent | .scopeExit _ | .handlerExit _ | .emptyStatement _ | .identifier _ | .literal .. => true
    | .program _ parts | .block _ parts _ | .declaration _ parts _ | .object _ parts
    | .array _ parts => Node.allParts check parts
    | .expressionStatement _ part | .declarator _ _ part | .returnStatement _ part
    | .throwStatement _ part | .catchClause _ _ part | .unary _ _ part | .property _ _ part =>
        part.all check
    | .functionDeclaration _ first _ second | .functionExpression _ first _ second
    | .whileStatement _ first second | .binary _ _ first second | .logical _ _ first second
    | .assignment _ _ first second | .member _ first second _ => first.all check && second.all check
    | .ifStatement _ test consequent alternate =>
        test.all check && (consequent.all check && alternate.all check)
    | .tryStatement _ guarded handler others _ =>
        guarded.all check && (handler.all check && Node.allParts check others)
    | .call _ callee arguments => callee.all check && Node.allParts check arguments

def Node.allParts (check : Node → Bool) : List Node → Bool
  | [] => true
  | part :: rest => part.all check && Node.allParts check rest
end

theorem Node.all_of_allParts {parts : List Node} (checked : Node.allParts check parts = true) :
    ∀ part ∈ parts, part.all check = true := by
  induction parts with
  | nil => exact fun part member => absurd member List.not_mem_nil
  | cons part rest ih =>
      rw [Node.allParts, Bool.and_eq_true] at checked
      exact List.forall_mem_cons.mpr ⟨checked.1, ih checked.2⟩

theorem Node.all_of_part {part : Node} (checked : node.all check = true) (member : part ∈ node.parts) :
    part.all check = true := by
  rw [Node.all.eq_def, Bool.and_eq_true] at checked
  refine Node.all_of_allParts ?_ part member
  cases node <;> simp_all [Node.allParts, Node.parts]

/-- Checking part by part reaches everything. -/
theorem Node.every_of_all (checked : root.all check = true) : root.Every check := by
  intro node within
  have reached : node.all check = true := by
    induction within with
    | self => exact checked
    | part _ member ih => exact Node.all_of_part ih member
  rw [Node.all.eq_def, Bool.and_eq_true] at reached
  exact reached.1

end ScriptMachine
