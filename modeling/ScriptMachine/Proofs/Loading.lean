/-
This file looks at what comes of loading. Main statements: where ranges can be read, what is noted about
a program makes no difference to what is loaded, and a well-formed program is loaded as it was read.
-/

import ScriptMachine.Machine
import ScriptMachine.Proofs.Grammar
import ScriptMachine.Proofs.Numbering
import ScriptMachine.Proofs.Session

namespace ScriptMachine

mutual
/-- Every statement of a well-formed program can be linked. -/
theorem Node.linkable_of_isStatement {plain inFunction : Bool} {node : Node}
    (formed : node.isStatement plain inFunction = true) : node.linkable = true := by
  match node with
  | .block _ body _ =>
      rw [Node.isStatement] at formed
      rw [Node.linkable]
      exact allLinkable_of_areStatements formed
  | .ifStatement _ _ consequent alternate =>
      simp only [Node.isStatement, Bool.and_eq_true, Bool.or_eq_true] at formed
      have first := linkable_of_isStatement formed.1.2
      have second : alternate.isAbsent = true ∨ alternate.linkable = true :=
        formed.2.imp_right fun statement => linkable_of_isStatement statement
      simp only [Node.linkable, first, Bool.true_and, Bool.or_eq_true]
      exact second
  | .whileStatement _ _ body =>
      simp only [Node.isStatement, Bool.and_eq_true] at formed
      rw [Node.linkable]
      exact linkable_of_isStatement formed.2
  | .functionDeclaration _ _ _ body =>
      simp only [Node.isStatement, Bool.and_eq_true] at formed
      rw [Node.linkable]
      exact linkable_of_isStatement (Node.isStatement_of_isBlock formed.2)
  | .tryStatement _ guarded handler _ _ =>
      simp only [Node.isStatement, Bool.and_eq_true] at formed
      have inside := linkable_of_isStatement (Node.isStatement_of_isBlock formed.1)
      have body : guarded.hasProtectedBody = true := by
        obtain ⟨_, _, _, rfl, _⟩ := Node.exists_of_isBlock formed.1
        rfl
      simp only [Node.linkable, bodyLinkable_of_isClause formed.2, inside, body, Bool.and_self]
  | .emptyStatement _ | .expressionStatement .. | .declaration .. | .returnStatement ..
  | .throwStatement .. => rfl

theorem Node.bodyLinkable_of_isClause {plain inFunction : Bool} {node : Node}
    (formed : node.isClause plain inFunction = true) : node.bodyLinkable = true := by
  match node with
  | .catchClause _ _ body =>
      simp only [Node.isClause, Bool.and_eq_true] at formed
      rw [Node.bodyLinkable]
      exact linkable_of_isStatement (Node.isStatement_of_isBlock formed.2)

theorem Node.allLinkable_of_areStatements {plain inFunction : Bool} {body : List Node}
    (formed : Node.areStatements plain inFunction body = true) : Node.allLinkable body = true := by
  match body with
  | [] => rfl
  | statement :: rest =>
      simp only [Node.areStatements, Bool.and_eq_true] at formed
      simp only [Node.allLinkable, linkable_of_isStatement formed.1,
        allLinkable_of_areStatements formed.2, Bool.and_self]
end

/-- A bound of a range that can be read. -/
def Tree.isBound : Tree → Bool
  | .null | .int _ | .bool _ => true
  | _ => false

/-- A range that can be read is missing, or starts with two bounds. -/
def Tree.isRange : Tree → Bool
  | .null => true
  | .list (start :: stop :: _) => start.isBound && stop.isBound
  | _ => false

/-- A node in which every range can be read. -/
def Node.IsReadable (root : Node) : Prop := ∀ node, root.Within node → node.place.range.isRange = true

/-- What lies within a readable node is readable. -/
theorem Node.IsReadable.within {root node : Node} (readable : root.IsReadable)
    (within : root.Within node) : node.IsReadable :=
  fun _ deeper => readable _ (within.trans deeper)

theorem Node.IsReadable.part {root part : Node} (readable : root.IsReadable)
    (member : part ∈ root.parts) : part.IsReadable :=
  readable.within (.part .self member)

/-- A bound has a position. -/
theorem Tree.position_of_isBound {tree : Tree} (bound : tree.isBound = true) :
    ∃ position, tree.position? = .ok position := by
  cases tree with
  | null => exact ⟨none, rfl⟩
  | int value => exact ⟨some value, rfl⟩
  | bool value => exact ⟨some (if value then 1 else 0), rfl⟩
  | float | text | list | record => cases bound

/-- The source text of a node with a range that can be read. -/
theorem Node.excerpt_of_isRange {node : Node} (range : node.place.range.isRange = true)
    (source : Option String) : ∃ text, node.excerpt source = .ok text := by
  unfold Node.excerpt Place.span?
  generalize node.place.range = tree at range
  unfold Tree.isRange at range
  split at range
  · cases source <;> exact ⟨_, rfl⟩
  · rename_i start stop rest
    simp only [Bool.and_eq_true] at range
    obtain ⟨first, starts⟩ := Tree.position_of_isBound range.1
    obtain ⟨last, stops⟩ := Tree.position_of_isBound range.2
    cases source with
    | none => exact ⟨_, rfl⟩
    | some text =>
        simp only [Tree.span?, bind, Except.bind, starts, stops]
        exact ⟨_, rfl⟩
  · cases range

/-- Every line of an outline can be shown. -/
def Outline.Shown (outline : Outline) : Prop := ∀ line ∈ outline, ∃ text, line = .ok text

theorem Outline.shown_cons {line : Except Fault String} {rest : Outline} :
    Outline.Shown (line :: rest) ↔ (∃ text, line = .ok text) ∧ rest.Shown :=
  List.forall_mem_cons

theorem Outline.shown_append {first second : Outline} :
    Outline.Shown (first ++ second) ↔ first.Shown ∧ second.Shown :=
  List.forall_mem_append

/-- A node with a range has an outline line. -/
theorem Node.outlineLine_of_isRange {node : Node} (range : node.place.range.isRange = true)
    (source : Option String) (indent : Int) (links : Links) :
    ∃ text, node.outlineLine source indent links = .ok text := by
  obtain ⟨text, shown⟩ := Node.excerpt_of_isRange range source
  unfold Node.outlineLine
  rw [shown]
  split <;> exact ⟨_, rfl⟩

mutual
/-- Every statement that can be linked can be outlined. -/
theorem Node.outline_shown {node : Node} (source : Option String) (indent : Int) (links : Links)
    (linked : node.linkable = true) (readable : node.IsReadable) :
    (node.outline source indent links).Shown := by
  have line := Node.outlineLine_of_isRange (readable _ .self) source indent links
  cases node with
  | absent => cases linked
  | program _ body | block _ body exit =>
      rw [Node.linkable] at linked
      rw [Node.outline, Outline.shown_cons]
      exact ⟨line, outlineBody_shown source _ links linked fun part member => readable.part member⟩
  | ifStatement _ _ consequent alternate =>
      simp only [Node.linkable, Bool.and_eq_true, Bool.or_eq_true] at linked
      have first := outline_shown source (indent + 2) links linked.1
        (readable.part (by simp [Node.parts]))
      simp only [Node.outline, List.cons_append, Outline.shown_cons, Outline.shown_append]
      refine ⟨line, ⟨_, rfl⟩, first, ?_⟩
      split
      · exact List.forall_mem_nil _
      · rename_i present
        have second := outline_shown source (indent + 2) links (linked.2.resolve_left present)
          (readable.part (by simp [Node.parts]))
        exact Outline.shown_cons.mpr ⟨⟨_, rfl⟩, second⟩
  | whileStatement _ _ body | functionDeclaration _ _ _ body =>
      rw [Node.linkable] at linked
      rw [Node.outline, Outline.shown_cons]
      exact ⟨line, outline_shown source _ links linked (readable.part (by simp [Node.parts]))⟩
  | tryStatement _ guarded handler _ exit =>
      simp only [Node.linkable, Bool.and_eq_true] at linked
      have first := outline_shown source (indent + 2) links linked.1.2
        (readable.part (by simp [Node.parts]))
      have second := outlineHandler_shown source (indent + 2) links linked.1.1
        (readable.part (by simp [Node.parts]))
      simp only [Node.outline, List.cons_append, Outline.shown_cons, Outline.shown_append]
      exact ⟨line, first, ⟨_, rfl⟩, second⟩
  | _ =>
      simp only [Node.outline, Outline.shown_cons]
      exact ⟨line, List.forall_mem_nil _⟩

/-- A handler's outline is shown. -/
theorem Node.outlineHandler_shown {node : Node} (source : Option String) (indent : Int) (links : Links)
    (linked : node.bodyLinkable = true) (readable : node.IsReadable) :
    (node.outlineHandler source indent links).Shown := by
  match node with
  | .catchClause _ _ body | .whileStatement _ _ body | .functionDeclaration _ _ _ body
  | .functionExpression _ _ _ body =>
      rw [Node.bodyLinkable] at linked
      simp only [Node.outlineHandler]
      exact outline_shown source indent links linked (readable.part (by simp [Node.parts]))

/-- A body's outline is shown. -/
theorem Node.outlineBody_shown {body : List Node} (source : Option String) (indent : Int) (links : Links)
    (linked : Node.allLinkable body = true) (readable : ∀ statement ∈ body, statement.IsReadable) :
    (Node.outlineBody source indent links body).Shown := by
  match body with
  | [] => exact List.forall_mem_nil _
  | statement :: rest =>
      simp only [Node.allLinkable, Bool.and_eq_true] at linked
      obtain ⟨first, others⟩ := List.forall_mem_cons.mp readable
      rw [Node.outlineBody, Outline.shown_append]
      exact ⟨outline_shown source _ links linked.1 first,
        outlineBody_shown source _ links linked.2 others⟩
end

/-- What comes of loading a tree, whatever is noted about it. -/
def Tree.program? (tree : Tree) : Except Fault Node :=
  match tree.read 0 with
  | .error fault _ => .error fault
  | .ok program _ =>
      if !program.isProgram then .error (.mistyped (.notProgram program.label))
      else if !program.linkable then .error .malformed
      else .ok program

namespace Machine

/-- An outline that can be shown is noted, and nothing else happens. -/
theorem ends_noteOutline {outline : Outline} (shown : outline.Shown) (session : Session) :
    Ends (noteOutline outline) session (fun _ after => after.bare = session.bare) fun _ _ => False := by
  induction outline generalizing session with
  | nil => rfl
  | cons line rest ih =>
      obtain ⟨⟨text, rfl⟩, others⟩ := Outline.shown_cons.mp shown
      unfold noteOutline
      simp only [ends_bind, ends_fromExcept, ends_note]
      refine (ih others _).weaken ?_ fun _ _ never => never
      intro _ after same
      rw [same]
      split <;> rfl

/-- Where ranges can be read, what is noted about a tree makes no difference to what comes of it. -/
theorem ends_load_of_isReadable (machine : Machine) {tree : Tree} {session : Session}
    (readable : machine.config.outline = true → session.verbose = true →
      ∀ program counted, tree.read 0 = .ok program counted → program.IsReadable) :
    Ends (machine.load tree) session
      (fun loaded after => tree.program? = .ok loaded ∧ after.bare = session.bare)
      fun fault after => tree.program? = .error fault ∧ after.bare = session.bare := by
  unfold load readTree Tree.program?
  cases reads : tree.read 0 with
  | error fault counted => exact ⟨rfl, rfl⟩
  | ok program counted =>
      simp only [ends_bind, ends_pure]
      rw [Node.linked_eq .done (Tree.linksFunctions_of_read reads)]
      cases isProgram : program.isProgram with
      | false => exact ⟨rfl, rfl⟩
      | true =>
          cases linked : program.linkable with
          | false => exact ⟨rfl, rfl⟩
          | true =>
              simp only [Bool.not_true, Bool.false_eq_true, if_false, if_true, ends_bind, ends_fromExcept]
              cases outlines : machine.config.outline with
              | false => exact ⟨rfl, rfl⟩
              | true =>
                  simp only [if_true, outline, ends_bind, ends_get]
                  cases verbose : session.verbose with
                  | false => exact ⟨rfl, rfl⟩
                  | true =>
                      have shown := Node.outline_shown machine.source 0
                        (Links.empty.setAll (program.functionWrites ++ program.writes .done)) linked
                        (readable outlines verbose program counted reads)
                      refine (ends_noteOutline shown session).weaken ?_ fun _ _ never => never.elim
                      exact fun _ after same => ⟨rfl, same⟩

/-- A well-formed program is loaded as it was read. -/
theorem ends_load_of_isWellFormed (machine : Machine) {tree : Tree} {program : Node} {counted : Nat}
    {plain : Bool} {session : Session} (reads : tree.read 0 = .ok program counted)
    (formed : program.isWellFormed plain = true)
    (readable : machine.config.outline = true → session.verbose = true → program.IsReadable) :
    Ends (machine.load tree) session (fun loaded after => loaded = program ∧
      after.bare = session.bare)
      fun _ _ => False := by
  have loads : tree.program? = .ok program := by
    cases program with
    | program place body =>
        rw [Node.isWellFormed] at formed
        have linked : (Node.program place body).linkable = true := by
          rw [Node.linkable]
          exact Node.allLinkable_of_areStatements formed
        simp [Tree.program?, reads, Node.isProgram, linked]
    | _ => simp [Node.isWellFormed] at formed
  have same : ∀ found next, tree.read 0 = .ok found next → found = program := by
    intro found next readsAgain
    rw [reads] at readsAgain
    cases readsAgain
    rfl
  refine (machine.ends_load_of_isReadable fun outlines verbose found next readsAgain => ?_).weaken ?_ ?_
  · rw [same found next readsAgain]
    exact readable outlines verbose
  · rintro loaded after ⟨found, kept⟩
    rw [loads] at found
    cases found
    exact ⟨rfl, kept⟩
  · rintro fault after ⟨fails, -⟩
    rw [loads] at fails
    cases fails

/-- Where ranges can be read, two machines load the same program from a tree, or fail in the same way. -/
theorem loads_alike {machine second : Machine} {tree : Tree} {session other : Session}
    (readable : ∀ program counted, tree.read 0 = .ok program counted → program.IsReadable) :
    (∃ program loaded last, machine.load tree session = .ok program loaded ∧
      second.load tree other = .ok program last ∧ loaded.bare = session.bare ∧
      last.bare = other.bare) ∨
    ∃ fault loaded last, machine.load tree session = .error fault loaded ∧
      second.load tree other = .error fault last ∧ loaded.bare = session.bare ∧
      last.bare = other.bare := by
  have first := @ends_load_of_isReadable machine tree session fun _ _ => readable
  have again := @ends_load_of_isReadable second tree other fun _ _ => readable
  cases loads : machine.load tree session with
  | ok program loaded =>
      obtain ⟨found, kept⟩ := first.of_ok loads
      cases loadsAgain : second.load tree other with
      | ok copy last =>
          obtain ⟨foundAgain, keptAgain⟩ := again.of_ok loadsAgain
          rw [found] at foundAgain
          cases foundAgain
          exact .inl ⟨program, loaded, last, rfl, rfl, kept, keptAgain⟩
      | error fault last =>
          rw [found] at again
          cases (again.of_error loadsAgain).1
  | error fault loaded =>
      obtain ⟨found, kept⟩ := first.of_error loads
      cases loadsAgain : second.load tree other with
      | ok copy last =>
          rw [found] at again
          cases (again.of_ok loadsAgain).1
      | error repeated last =>
          obtain ⟨foundAgain, keptAgain⟩ := again.of_error loadsAgain
          rw [found] at foundAgain
          cases foundAgain
          exact .inr ⟨fault, loaded, last, rfl, rfl, kept, keptAgain⟩

end Machine

end ScriptMachine
