/-
This file says where control goes on after each statement of a linked tree. Main statements: linking leaves
every statement with exactly the successor that its position in the tree determines, and from every
statement that a run comes to, control goes where the links lead.
-/

import Mathlib.Data.List.Nodup
import ScriptMachine.Proofs.Exploration
import ScriptMachine.Proofs.Numbering

namespace ScriptMachine

/-- What comes after a node by its position in a tree. -/
inductive Node.Precedes (root : Node) (after : Successor) : Node → Successor → Prop where
  | root : Precedes root after root after
  | functionExpression {place : Place} {name body : Node} {params : List Ident}
      (within : root.Within (.functionExpression place name params body)) :
      Precedes root after body .nowhere
  | next {holder statement next : Node} {before rest : List Node} {exit : Option Nat}
      {last : Successor} (stands : Precedes root after holder last)
      (holds : holder.sequence? = some (before ++ statement :: next :: rest, exit)) :
      Precedes root after statement (.visit next)
  | lastOfProgram {place : Place} {statement : Node} {before : List Node} {last : Successor}
      (stands : Precedes root after (.program place (before ++ [statement])) last) :
      Precedes root after statement last
  | lastOfBlock {place : Place} {statement : Node} {before : List Node} {exit : Nat}
      {last : Successor}
      (stands : Precedes root after (.block place (before ++ [statement]) (some exit)) last) :
      Precedes root after statement (.visit (.scopeExit exit))
  | scopeExit {place : Place} {body : List Node} {exit : Nat} {last : Successor}
      (stands : Precedes root after (.block place body (some exit)) last) :
      Precedes root after (.scopeExit exit) last
  | consequent {place : Place} {test consequent alternate : Node} {last : Successor}
      (stands : Precedes root after (.ifStatement place test consequent alternate) last) :
      Precedes root after consequent last
  | alternate {place : Place} {test consequent alternate : Node} {last : Successor}
      (stands : Precedes root after (.ifStatement place test consequent alternate) last)
      (present : alternate.isAbsent = false) : Precedes root after alternate last
  | loop {place : Place} {test body : Node} {last : Successor}
      (stands : Precedes root after (.whileStatement place test body) last) :
      Precedes root after body (.visit (.whileStatement place test body))
  | functionDeclaration {place : Place} {name body : Node} {params : List Ident} {last : Successor}
      (stands : Precedes root after (.functionDeclaration place name params body) last) :
      Precedes root after body .nowhere
  | guarded {place : Place} {guarded handler : Node} {others : List Node} {exit : Nat}
      {last : Successor}
      (stands : Precedes root after (.tryStatement place guarded handler others exit) last) :
      Precedes root after guarded (.visit (.handlerExit exit))
  | clause {place inner : Place} {guarded body : Node} {param : Ident} {others : List Node}
      {exit : Nat} {last : Successor}
      (stands : Precedes root after
        (.tryStatement place guarded (.catchClause inner param body) others exit) last) :
      Precedes root after body last
  | handlerExit {place : Place} {guarded handler : Node} {others : List Node} {exit : Nat}
      {last : Successor}
      (stands : Precedes root after (.tryStatement place guarded handler others exit) last) :
      Precedes root after (.handlerExit exit) last

/-- Where control goes on from a statement itself, given what comes after it. A block, a program and a
protected block are entered at their first statements, and nothing follows a return or a throw. -/
def Node.successor (node : Node) (after : Successor) : Successor :=
  match node with
  | .program _ (first :: _) | .block _ (first :: _) _ => .visit first
  | .tryStatement _ (.block _ (first :: _) _) _ _ _ => .visit first
  | .returnStatement .. | .throwStatement .. => .nowhere
  | _ => after

/-- Statements are present where they are needed, and functions, protected blocks and catch clauses have
blocks for bodies. -/
def Node.isStructured : Node → Bool
  | .program _ body | .block _ body _ => body.all fun statement => !statement.isAbsent
  | .ifStatement _ _ consequent _ => !consequent.isAbsent
  | .whileStatement _ _ body => !body.isAbsent
  | .functionDeclaration _ _ _ (.block ..) | .functionExpression _ _ _ (.block ..)
  | .catchClause _ _ (.block ..) | .tryStatement _ (.block ..) (.catchClause ..) _ _ => true
  | .functionDeclaration .. | .functionExpression .. | .catchClause .. | .tryStatement .. => false
  | _ => true

/-- A structured try statement protects a block and has a catch clause. -/
theorem Node.exists_of_isStructured_try {place : Place} {guarded handler : Node} {others : List Node}
    {exit : Nat} (structured : (Node.tryStatement place guarded handler others exit).isStructured = true) :
    (∃ inner body scope, guarded = .block inner body scope) ∧
      ∃ inner param body, handler = .catchClause inner param body := by
  cases guarded with
  | block inner body scope =>
      cases handler with
      | catchClause first param caught => exact ⟨⟨_, _, _, rfl⟩, _, _, _, rfl⟩
      | _ => cases structured
  | _ => cases structured

/-- The body of a structured loop, function or catch clause is there. -/
theorem Node.isPresent_ownBody {node body : Node} (structured : node.isStructured = true)
    (owned : node.ownBody? = some body) : body.isAbsent = false := by
  cases node with
  | functionDeclaration | functionExpression | catchClause =>
      cases owned
      cases body with
      | absent => cases structured
      | _ => rfl
  | whileStatement =>
      cases owned
      simpa [Node.isStructured] using structured
  | _ => cases owned

section Uniqueness

/-- How often a number is written. -/
def Links.tally (id : Int) (writes : List (Node × Successor)) : Nat :=
  writes.countP fun write => write.1.place.id == id

/-- How often a number stands at one of the places. -/
def Place.tally (id : Int) (places : List Place) : Nat :=
  places.countP fun place => place.id == id

variable {id : Int}

/-- The number is written no more often by linking the node than it stands there. -/
def Node.Spares (id : Int) (node : Node) : Prop :=
  ∀ next, Links.tally id (node.functionWrites ++ node.writes next) ≤ Place.tally id node.places

/-- The functions of a node are those of its parts, and the node itself if it is one. -/
theorem Node.functionWrites_eq (node : Node) :
    node.functionWrites = Node.functionWritesOf node.parts ++
      match node with
      | .functionExpression _ _ _ body => body.writes .nowhere
      | _ => [] := by
  cases node <;> simp [Node.functionWrites, Node.parts, Node.functionWritesOf]

/-- Functions write an id no more often than it is placed. -/
theorem Node.tally_functionWritesOf {parts : List Node} (spares : ∀ part ∈ parts, part.Spares id) :
    Links.tally id (Node.functionWritesOf parts) ≤ Place.tally id (Node.allPlaces parts) := by
  induction parts with
  | nil => exact Nat.le_refl 0
  | cons part rest ih =>
      obtain ⟨first, others⟩ := List.forall_mem_cons.mp spares
      have here := first .nowhere
      have later := ih others
      simp only [Links.tally, Place.tally, Node.functionWritesOf, Node.allPlaces,
        List.countP_append] at here later ⊢
      omega

/-- A body writes an id no more often than it is placed. -/
theorem Node.tally_writesOf {body : List Node} (spares : ∀ statement ∈ body, statement.Spares id)
    (next : Successor) :
    Links.tally id (Node.functionWritesOf body ++ Node.writesOf body next) ≤
      Place.tally id (Node.allPlaces body) := by
  induction body with
  | nil => exact Nat.le_refl 0
  | cons statement rest ih =>
      obtain ⟨first, others⟩ := List.forall_mem_cons.mp spares
      have here := first (.first rest next)
      have later := ih others
      simp only [Links.tally, Place.tally, Node.functionWritesOf, Node.writesOf, Node.allPlaces,
        List.countP_append] at here later ⊢
      omega

/-- A node that is linked without its parts is written once. -/
theorem Node.spares_of_alone {node : Node} {given : Successor → Successor} (present : node.isAbsent = false)
    (spares : ∀ part ∈ node.parts, part.Spares id)
    (functions : node.functionWrites = Node.functionWritesOf node.parts)
    (alone : ∀ next, node.writes next = [(node, given next)]) : node.Spares id := by
  intro next
  have inside := Node.tally_functionWritesOf spares
  have listed := (Node.place_cons_sublist present).countP_le (p := fun place => place.id == id)
  rw [functions, alone]
  simp only [Links.tally, Place.tally, List.countP_append, List.countP_cons, List.countP_nil]
    at inside listed ⊢
  omega

/-- No number is written more often than it stands in a structured tree. -/
theorem Node.spares_of_isStructured {node : Node} (structured : node.Every Node.isStructured) :
    node.Spares id := by
  induction node using Node.parts_induction with
  | step node ih =>
      have below : ∀ part ∈ node.parts, ∀ inner, part.Within inner → inner.Spares id := by
        intro part member inner within
        have inside := (Node.Within.part .self member).trans within
        exact ih part member inner within fun deeper down => structured deeper (inside.trans down)
      have parts : ∀ part ∈ node.parts, part.Spares id := fun part member => below part member part .self
      cases node with
      | absent => exact fun _ => Nat.le_refl 0
      | program place body =>
          intro next
          have inside := Node.tally_writesOf parts next
          simp only [Links.tally, Place.tally, Node.functionWrites, Node.writes, Node.parts, Node.places,
            Node.place, List.countP_append, List.countP_cons, List.countP_nil] at inside ⊢
          omega
      | block place body exit =>
          intro next
          have inside := Node.tally_writesOf parts (.exiting exit next)
          have leaves : Links.tally id (Successor.leaving exit next) =
              Place.tally id (exit.toList.map Place.ofExit) := by
            cases exit <;> rfl
          simp only [Links.tally, Place.tally, Node.functionWrites, Node.writes, Node.parts, Node.places,
            Node.place, List.countP_append, List.countP_cons, List.countP_nil] at inside leaves ⊢
          omega
      | ifStatement place test consequent alternate =>
          intro next
          have first := parts test (by simp [Node.parts]) next
          have second := parts consequent (by simp [Node.parts]) next
          have third := parts alternate (by simp [Node.parts]) next
          simp only [Links.tally, Place.tally, Node.functionWrites, Node.writes, Node.places, Node.place,
            List.countP_append, List.countP_cons, List.countP_nil] at first second third ⊢
          omega
      | whileStatement place test body =>
          intro next
          have first := parts test (by simp [Node.parts]) next
          have second := parts body (by simp [Node.parts]) (.visit (.whileStatement place test body))
          simp only [Links.tally, Place.tally, Node.functionWrites, Node.writes, Node.places, Node.place,
            List.countP_append, List.countP_cons, List.countP_nil] at first second ⊢
          omega
      | functionDeclaration place name params body | functionExpression place name params body =>
          intro next
          have first := parts name (by simp [Node.parts]) next
          have second := parts body (by simp [Node.parts]) .nowhere
          simp only [Links.tally, Place.tally, Node.functionWrites, Node.writes, Node.places, Node.place,
            List.countP_append, List.countP_cons, List.countP_nil] at first second ⊢
          omega
      | tryStatement place guarded handler others exit =>
          intro next
          obtain ⟨-, inner, param, body, rfl⟩ := Node.exists_of_isStructured_try (structured _ .self)
          have first := parts guarded (by simp [Node.parts]) (.visit (.handlerExit exit))
          have second := below (.catchClause inner param body) (by simp [Node.parts]) body
            (.part .self List.mem_cons_self) next
          have third := @Node.tally_functionWritesOf id others fun part member =>
            parts part (by simp [Node.parts, member])
          simp only [Links.tally, Place.tally, Node.functionWrites, Node.writes, Node.bodyWrites,
            Node.places, Node.place, Place.ofExit, List.countP_append, List.countP_cons,
            List.countP_nil] at first second third ⊢
          omega
      | _ => exact Node.spares_of_alone rfl parts (by simp [Node.functionWrites_eq]) fun _ => rfl

/-- In a structured tree of distinct nodes, no node is written twice. -/
theorem Node.nodup_writes {root : Node} {after : Successor} (structured : root.Every Node.isStructured)
    (distinct : root.ids.Nodup) :
    ((root.functionWrites ++ root.writes after).map fun write => write.1.place.id).Nodup := by
  rw [List.nodup_iff_count_le_one] at distinct ⊢
  intro id
  have written := @Node.spares_of_isStructured id root structured after
  have standing := distinct id
  rw [Node.ids, List.count_eq_countP, List.countP_map] at standing
  rw [List.count_eq_countP, List.countP_map]
  exact Nat.le_trans written standing

end Uniqueness

section Positions

variable {root node holder : Node} {after last : Successor} {write : Node × Successor}

/-- A statement is written itself, with the successor that its form gives it. -/
theorem Node.mem_writes_self (present : node.isAbsent = false) (structured : node.isStructured = true)
    (last : Successor) : (node, node.successor last) ∈ node.writes last := by
  cases node with
  | absent => cases present
  | program place body => cases body <;> simp [Node.writes, Node.successor, Successor.first]
  | block place body exit => cases body <;> simp [Node.writes, Node.successor, Successor.first]
  | tryStatement place guarded handler others exit =>
      obtain ⟨⟨inner, body, scope, rfl⟩, -⟩ := Node.exists_of_isStructured_try structured
      cases body <;> simp [Node.writes, Node.successor, Node.entry, Successor.first]
  | _ => simp [Node.writes, Node.successor]

/-- A statement's writes are among its body's. -/
theorem Node.writes_subset_writesOf (statement : Node) (before rest : List Node) (next : Successor) :
    statement.writes (.first rest next) ⊆ Node.writesOf (before ++ statement :: rest) next := by
  induction before with
  | nil => exact List.subset_append_right _ _
  | cons first others ih => exact List.Subset.trans ih (List.subset_append_left _ _)

/-- Linking a program or a block writes what linking its statements writes. -/
theorem Node.writes_statement_subset {statement : Node} {before rest : List Node} {exit : Option Nat}
    (holds : holder.sequence? = some (before ++ statement :: rest, exit)) (last : Successor) :
    statement.writes (.first rest (.exiting exit last)) ⊆ holder.writes last := by
  refine List.Subset.trans (statement.writes_subset_writesOf before rest _) ?_
  cases holder with
  | program place inner =>
      cases holds
      exact List.subset_append_left _ _
  | block place inner scope =>
      cases holds
      exact List.Subset.trans (List.subset_append_left _ _) (List.subset_append_right _ _)
  | _ => cases holds

theorem Node.mem_functionWritesOf {parts : List Node} :
    write ∈ Node.functionWritesOf parts ↔ ∃ part ∈ parts, write ∈ part.functionWrites := by
  induction parts with
  | nil => simp [Node.functionWritesOf]
  | cons part rest ih => simp [Node.functionWritesOf, ih]

/-- Linking the functions of a tree writes what linking their bodies writes. -/
theorem Node.mem_functionWrites :
    write ∈ root.functionWrites ↔ ∃ place name params body,
      root.Within (.functionExpression place name params body) ∧ write ∈ body.writes .nowhere := by
  constructor
  · intro member
    induction root using Node.parts_induction with
    | step root ih =>
        rw [Node.functionWrites_eq, List.mem_append, Node.mem_functionWritesOf] at member
        rcases member with ⟨part, inside, member⟩ | own
        · obtain ⟨place, name, params, body, within, written⟩ := ih part inside part .self member
          exact ⟨place, name, params, body, (Node.Within.part .self inside).trans within, written⟩
        · cases root with
          | functionExpression place name params body => exact ⟨place, name, params, body, .self, own⟩
          | _ => cases own
  · rintro ⟨place, name, params, body, within, written⟩
    have inside : ∀ {node}, root.Within node → node.functionWrites ⊆ root.functionWrites := by
      intro node within
      induction within with
      | self => exact List.Subset.refl _
      | @part node part _ member ih =>
          refine List.Subset.trans ?_ ih
          intro write among
          rw [Node.functionWrites_eq, List.mem_append, Node.mem_functionWritesOf]
          exact .inl ⟨part, member, among⟩
    apply inside within
    rw [Node.functionWrites, List.mem_append, List.mem_append]
    exact .inr (.inr written)

/-- A statement of a body precedes the rest of the body, or what the body flows into. -/
theorem Node.Precedes.statement {statement : Node} {before rest : List Node} {exit : Option Nat}
    (stands : root.Precedes after holder last) (owns : holder.ownsExit = true)
    (holds : holder.sequence? = some (before ++ statement :: rest, exit)) :
    root.Precedes after statement (.first rest (.exiting exit last)) := by
  cases rest with
  | cons next rest => exact .next stands holds
  | nil =>
      cases holder with
      | program place body =>
          cases holds
          exact .lastOfProgram stands
      | block place body scope =>
          cases holds
          cases exit with
          | none => simp [Node.ownsExit] at owns
          | some id => exact .lastOfBlock stands
      | _ => cases holds

/-- What linking a statement at its position writes is among what linking the tree writes. -/
theorem Node.Precedes.writes_subset (precedes : root.Precedes after node last) :
    node.writes last ⊆ root.functionWrites ++ root.writes after := by
  -- By induction on where the node stands. The writes of a part are among the writes of what holds it.
  induction precedes with
  | root => exact List.subset_append_right _ _
  | functionExpression within =>
      refine List.Subset.trans ?_ (List.subset_append_left _ _)
      exact fun write member => Node.mem_functionWrites.mpr ⟨_, _, _, _, within, member⟩
  | next stands holds ih => exact List.Subset.trans (Node.writes_statement_subset holds _) ih
  | @lastOfProgram place statement before last stands ih =>
      have holds : (Node.program place (before ++ [statement])).sequence? =
          some (before ++ statement :: [], none) := rfl
      exact List.Subset.trans (Node.writes_statement_subset holds last) ih
  | @lastOfBlock place statement before exit last stands ih =>
      have holds : (Node.block place (before ++ [statement]) (some exit)).sequence? =
          some (before ++ statement :: [], some exit) := rfl
      exact List.Subset.trans (Node.writes_statement_subset holds last) ih
  | scopeExit stands ih => exact List.Subset.trans (by simp [Node.writes, Successor.leaving]) ih
  | consequent stands ih => exact List.Subset.trans (by simp [Node.writes]) ih
  | alternate stands present ih => exact List.Subset.trans (by simp [Node.writes]) ih
  | loop stands ih => exact List.Subset.trans (by simp [Node.writes]) ih
  | functionDeclaration stands ih => exact List.Subset.trans (by simp [Node.writes]) ih
  | guarded stands ih => exact List.Subset.trans (by simp [Node.writes]) ih
  | clause stands ih => exact List.Subset.trans (by simp [Node.writes, Node.bodyWrites]) ih
  | handlerExit stands ih => exact List.Subset.trans (by simp [Node.writes]) ih

/-- A node that stands at a position lies within the tree, unless it is an exit point. -/
theorem Node.Precedes.within (precedes : root.Precedes after node last) :
    root.Within node ∨ node.isExit = true := by
  have inside : ∀ {holder part : Node}, holder.isExit = false → part ∈ holder.parts →
      root.Within holder ∨ holder.isExit = true → root.Within part ∨ part.isExit = true := by
    intro holder part notExit member stands
    exact .inl (.part (stands.resolve_right (by simp [notExit])) member)
  induction precedes with
  | root => exact .inl .self
  | functionExpression within => exact .inl (.part within (by simp [Node.parts]))
  | @next holder statement next before rest exit last stands holds ih =>
      cases holder with
      | program | block =>
          cases holds
          exact inside rfl (by simp [Node.parts]) ih
      | _ => cases holds
  | lastOfProgram stands ih | lastOfBlock stands ih | consequent stands ih | alternate stands present ih
  | loop stands ih | functionDeclaration stands ih | guarded stands ih =>
      exact inside rfl (by simp [Node.parts]) ih
  | @clause place inner guarded body param others exit last stands ih =>
      have clause : root.Within (.catchClause inner param body) :=
        .part (ih.resolve_right Bool.false_ne_true) (by simp [Node.parts])
      exact .inl (.part clause (by simp [Node.parts]))
  | scopeExit | handlerExit => exact .inr rfl

section

variable (present : root.isAbsent = false) (structured : root.Every Node.isStructured)
include structured

/-- Only structured nodes precede. -/
theorem Node.Precedes.isStructured (precedes : root.Precedes after node last) :
    node.isStructured = true := by
  rcases precedes.within with within | exit
  · exact structured node within
  · cases node with
    | scopeExit | handlerExit => rfl
    | _ => cases exit

include present

/-- A node that stands at a position is there. -/
theorem Node.Precedes.isPresent (precedes : root.Precedes after node last) : node.isAbsent = false := by
  cases precedes with
  | root => exact present
  | functionExpression within => exact Node.isPresent_ownBody (structured _ within) rfl
  | @next holder statement next before rest exit last stands holds =>
      have shape := stands.isStructured structured
      cases holder with
      | program | block =>
          cases holds
          simp_all [Node.isStructured]
      | _ => cases holds
  | lastOfProgram stands | lastOfBlock stands | consequent stands =>
      have shape := stands.isStructured structured
      simp_all [Node.isStructured]
  | alternate stands isPresent => exact isPresent
  | loop stands | functionDeclaration stands =>
      exact Node.isPresent_ownBody (stands.isStructured structured) rfl
  | guarded stands =>
      obtain ⟨⟨inner, body, scope, rfl⟩, -⟩ :=
        Node.exists_of_isStructured_try (stands.isStructured structured)
      rfl
  | @clause place inner guarded body param others exit last stands =>
      have within : root.Within (.tryStatement place guarded (.catchClause inner param node) others exit) :=
        stands.within.resolve_right Bool.false_ne_true
      have clause : root.Within (.catchClause inner param node) := within.part (by simp [Node.parts])
      exact Node.isPresent_ownBody (structured _ clause) rfl
  | scopeExit | handlerExit => rfl

end

/-- Wherever a statement stands, linking it gives successors to nodes by their positions only. -/
def Node.Fits (root : Node) (after : Successor) (node : Node) : Prop :=
  ∀ last, root.Precedes after node last → ∀ write ∈ node.writes last,
    ∃ own, root.Precedes after write.1 own ∧ write.2 = write.1.successor own

/-- Every write of a body fits its position. -/
theorem Node.fits_writesOf {body before : List Node} {exit : Option Nat}
    (stands : root.Precedes after holder last) (owns : holder.ownsExit = true)
    (holds : holder.sequence? = some (before ++ body, exit))
    (fits : ∀ statement ∈ body, root.Fits after statement) :
    ∀ write ∈ Node.writesOf body (.exiting exit last),
      ∃ own, root.Precedes after write.1 own ∧ write.2 = write.1.successor own := by
  induction body generalizing before with
  | nil => exact fun write member => absurd member List.not_mem_nil
  | cons statement rest ih =>
      obtain ⟨first, others⟩ := List.forall_mem_cons.mp fits
      intro write member
      rcases List.mem_append.mp member with later | here
      · exact @ih (before ++ [statement]) (by simpa using holds) others write later
      · exact first _ (stands.statement owns holds) write here

/-- Linking a structured statement gives successors by position only. -/
theorem Node.fits_of_isStructured (structured : node.Every Node.isStructured) (owns : node.OwnsExits) :
    root.Fits after node := by
  induction node using Node.parts_induction with
  | step node ih =>
      have below : ∀ part ∈ node.parts, ∀ inner, part.Within inner → root.Fits after inner := by
        intro part member inner within
        have inside := (Node.Within.part .self member).trans within
        exact ih part member inner within (fun deeper down => structured deeper (inside.trans down))
          fun deeper down => owns deeper (inside.trans down)
      have parts : ∀ part ∈ node.parts, root.Fits after part :=
        fun part member => below part member part .self
      intro last stands write member
      have whole : ∀ given, write = (node, given) → given = node.successor last →
          ∃ own, root.Precedes after write.1 own ∧ write.2 = write.1.successor own := by
        rintro _ rfl rfl
        exact ⟨last, stands, rfl⟩
      cases node with
      | absent => cases member
      | program place body =>
          rcases List.mem_append.mp member with inside | own
          · have holds : (Node.program place body).sequence? = some ([] ++ body, none) := rfl
            exact Node.fits_writesOf stands rfl holds parts write inside
          · exact whole _ (List.mem_singleton.mp own) (by cases body <;> rfl)
      | block place body exit =>
          rcases List.mem_append.mp member with leaves | member
          · obtain ⟨id, owned, rfl⟩ := List.mem_map.mp leaves
            obtain rfl := Option.mem_toList.mp owned
            exact ⟨last, .scopeExit stands, rfl⟩
          · rcases List.mem_append.mp member with inside | own
            · have holds : (Node.block place body exit).sequence? = some ([] ++ body, exit) := rfl
              exact Node.fits_writesOf stands (owns _ .self) holds parts write inside
            · exact whole _ (List.mem_singleton.mp own) (by cases body <;> rfl)
      | ifStatement place test consequent alternate =>
          rcases List.mem_append.mp member with first | member
          · exact parts consequent (by simp [Node.parts]) _ (.consequent stands) write first
          · rcases List.mem_append.mp member with second | own
            · cases missing : alternate.isAbsent with
              | true =>
                  obtain rfl := Node.eq_absent missing
                  cases second
              | false =>
                  exact parts alternate (by simp [Node.parts]) _ (.alternate stands missing) write second
            · exact whole _ (List.mem_singleton.mp own) rfl
      | whileStatement place test body =>
          rcases List.mem_append.mp member with inside | own
          · exact parts body (by simp [Node.parts]) _ (.loop stands) write inside
          · exact whole _ (List.mem_singleton.mp own) rfl
      | functionDeclaration place name params body =>
          rcases List.mem_append.mp member with inside | own
          · exact parts body (by simp [Node.parts]) _ (.functionDeclaration stands) write inside
          · exact whole _ (List.mem_singleton.mp own) rfl
      | tryStatement place guarded handler others exit =>
          obtain ⟨⟨inner, body, scope, rfl⟩, first, param, caught, rfl⟩ :=
            Node.exists_of_isStructured_try (structured _ .self)
          rcases List.mem_append.mp member with handled | member
          · have clause := below (.catchClause first param caught) (by simp [Node.parts]) caught
              (.part .self List.mem_cons_self)
            exact clause _ (.clause stands) write handled
          · rcases List.mem_append.mp member with inside | own
            · exact parts _ (by simp [Node.parts]) _ (.guarded stands) write inside
            · rcases List.mem_pair.mp own with rfl | own
              · exact ⟨last, .handlerExit stands, rfl⟩
              · exact whole _ own (by cases body <;> rfl)
      | _ => exact whole _ (List.mem_singleton.mp member) rfl

end Positions

section Linked

/-- A structured statement can be linked. -/
theorem Node.linkable_of_isStructured {node : Node} (structured : node.Every Node.isStructured)
    (present : node.isAbsent = false) : node.linkable = true := by
  induction node using Node.parts_induction with
  | step node ih =>
      have below : ∀ part ∈ node.parts, ∀ inner, part.Within inner → inner.isAbsent = false →
          inner.linkable = true := by
        intro part member inner within
        have inside := (Node.Within.part .self member).trans within
        exact ih part member inner within fun deeper down => structured deeper (inside.trans down)
      have parts : ∀ part ∈ node.parts, part.isAbsent = false → part.linkable = true :=
        fun part member => below part member part .self
      have formed := structured node .self
      cases node with
      | absent => cases present
      | program place body | block place body exit =>
          have all : ∀ statement ∈ body, statement.isAbsent = false := by
            simpa [Node.isStructured] using formed
          exact Node.allLinkable_iff.mpr fun statement member => parts statement member (all statement member)
      | ifStatement place test consequent alternate =>
          have first := parts consequent (by simp [Node.parts]) (by simpa [Node.isStructured] using formed)
          have second := parts alternate (by simp [Node.parts])
          cases missing : alternate.isAbsent with
          | true => simp [Node.linkable, first, missing]
          | false => simp [Node.linkable, first, second missing]
      | whileStatement place test body | functionDeclaration place name params body =>
          exact parts body (by simp [Node.parts]) (Node.isPresent_ownBody formed rfl)
      | tryStatement place guarded handler others exit =>
          obtain ⟨⟨inner, body, scope, rfl⟩, first, param, caught, rfl⟩ :=
            Node.exists_of_isStructured_try formed
          have clause : Node.Within (.tryStatement place (.block inner body scope)
              (.catchClause first param caught) others exit) (.catchClause first param caught) :=
            .part .self (by simp [Node.parts])
          have handled := below (.catchClause first param caught) (by simp [Node.parts]) caught
            (.part .self List.mem_cons_self) (Node.isPresent_ownBody (structured _ clause) rfl)
          have guarded := parts (.block inner body scope) (by simp [Node.parts]) rfl
          rw [Node.linkable, Node.bodyLinkable, handled, guarded]
          rfl
      | _ => rfl

/-- The function expressions of a structured tree can be linked. -/
theorem Node.linksFunctions_of_isStructured {root : Node} (structured : root.Every Node.isStructured) :
    root.Every Node.linksFunction := by
  intro node within
  cases node with
  | functionExpression place name params body =>
      have inside : root.Within body := within.part (by simp [Node.parts])
      exact Node.linkable_of_isStructured (fun deeper down => structured deeper (inside.trans down))
        (Node.isPresent_ownBody (structured _ within) rfl)
  | _ => rfl

variable {root node : Node} {after last : Successor} {links : Links}
  (present : root.isAbsent = false) (structured : root.Every Node.isStructured)
include present structured

/-- Linking a structured tree makes the writes of its functions and then those of the tree. -/
theorem Node.linked_of_isStructured (after : Successor) :
    root.linked after = .ok (Links.empty.setAll (root.functionWrites ++ root.writes after)) := by
  have linkable := Node.linkable_of_isStructured structured present
  rw [Node.linked_eq after (Node.linksFunctions_of_isStructured structured), if_pos linkable]

omit present in
/-- Whatever linking writes stands at a position, and is given the successor that the position determines. -/
theorem Node.exists_of_mem_writes (owns : root.OwnsExits) {write : Node × Successor}
    (member : write ∈ root.functionWrites ++ root.writes after) :
    ∃ last, root.Precedes after write.1 last ∧ write.2 = write.1.successor last := by
  rcases List.mem_append.mp member with inFunction | inRoot
  · obtain ⟨place, name, params, body, within, written⟩ := Node.mem_functionWrites.mp inFunction
    have inside : root.Within body := within.part (by simp [Node.parts])
    have fits : root.Fits after body := Node.fits_of_isStructured
      (fun deeper down => structured deeper (inside.trans down))
      fun deeper down => owns deeper (inside.trans down)
    exact fits _ (.functionExpression within) write written
  · exact Node.fits_of_isStructured structured owns after .root write inRoot

/-- No write is lost: in the end every node has the successor that its position determines. -/
theorem Node.Precedes.next_eq (distinct : root.ids.Nodup) (linked : root.linked after = .ok links)
    (precedes : root.Precedes after node last) : links.next node = node.successor last := by
  rw [Node.linked_of_isStructured present structured] at linked
  obtain rfl := Except.ok.inj linked
  have written := Node.mem_writes_self (precedes.isPresent present structured)
    (precedes.isStructured structured) last
  exact Links.next_setAll_of_mem (Node.nodup_writes structured distinct) (precedes.writes_subset written)

end Linked

section Control

/-- What control comes to next. -/
def Control.successor : Control → Successor
  | .nowhere => .nowhere
  | .done => .done
  | .visit node _ => .visit node

/-- A row of statements is entered at its first statement, and an empty row at its exit. -/
theorem Control.successor_through (body : List Node) (exit : Option Nat) (next : Control) :
    (Control.through body (.exiting exit next)).successor =
      .first body (.exiting exit next.successor) := by
  cases body with
  | cons statement rest => rfl
  | nil => cases exit <;> rfl

/-- Control leaves a structured statement as its form says. -/
theorem Node.successor_next {node : Node} (structured : node.isStructured = true)
    (owns : node.ownsExit = true) (control : Control) :
    (node.next control).successor = node.successor control.successor := by
  cases node with
  | program place body => cases body <;> rfl
  | block place body exit =>
      cases body with
      | nil =>
          cases exit with
          | none => rfl
          | some id => cases owns
      | cons first rest => rfl
  | tryStatement place guarded handler others exit =>
      obtain ⟨⟨inner, body, scope, rfl⟩, -⟩ := Node.exists_of_isStructured_try structured
      cases body <;> rfl
  | _ => rfl

variable {root node : Node} {after : Successor} {next : Control} {region : Region}

/-- A statement that encloses a row of statements holds it in a program or a block that stands before what
comes after the row, or the row is a single statement. -/
theorem Node.Encloses.holder (stands : root.Precedes after node next.successor)
    (encloses : node.Encloses next region) :
    (∃ holder, root.Precedes after holder region.after.successor ∧
      holder.sequence? = some (region.body, region.exit)) ∨
    ∃ statement, root.Precedes after statement region.after.successor ∧ region.body = [statement] ∧
      region.exit = none := by
  cases encloses with
  | program | block => exact .inl ⟨_, stands, rfl⟩
  | consequent => exact .inr ⟨_, .consequent stands, rfl, rfl⟩
  | alternate present => exact .inr ⟨_, .alternate stands present, rfl, rfl⟩
  | loop => exact .inr ⟨_, .loop stands, rfl, rfl⟩
  | guarded => exact .inl ⟨_, .guarded stands, rfl⟩
  | clause => exact .inl ⟨_, .clause stands, rfl⟩

/-- A program or a block that stands at a position owns the exit it should own. -/
theorem Node.Precedes.ownsExit {last : Successor} (owns : root.OwnsExits)
    (precedes : root.Precedes after node last) : node.ownsExit = true := by
  rcases precedes.within with within | exit
  · exact owns node within
  · cases node with
    | scopeExit | handlerExit => rfl
    | _ => cases exit

variable {plain inFunction : Bool} {program : Node} {layers : List Layer}

/-- What follows at a position of the program is what comes after it in the tree. -/
theorem Position.precedes (formed : program.isWellFormed plain = true) (owns : program.OwnsExits)
    (position : Position program inFunction node next layers) :
    program.Precedes .done node next.successor := by
  induction position with
  | root => exact .root
  | @inside inFunction node next layers region before statement rest position encloses split ih =>
      rw [Control.successor_through]
      rcases Node.Encloses.holder ih encloses with ⟨holder, stands, holds⟩ | ⟨single, stands, body, exit⟩
      · rw [split] at holds
        exact stands.statement (stands.ownsExit owns) holds
      · obtain ⟨rfl, rfl, rfl⟩ : before = [] ∧ statement = single ∧ rest = [] := by
          cases before <;> simp_all
        rw [exit]
        exact stands
  | @scopeExit inFunction node next layers region id position encloses owned ih =>
      rcases Node.Encloses.holder ih encloses with ⟨holder, stands, holds⟩ | ⟨single, stands, body, exit⟩
      · rw [owned] at holds
        cases holder with
        | block place inner scope =>
            cases holds
            exact .scopeExit stands
        | _ => cases holds
      · cases exit.symm.trans owned
  | handlerExit position ih => exact .handlerExit ih
  | @functionBody inFunction node next layers code position made entered ih =>
      have within := position.within (Node.isExit_of_mem_codes made)
      rcases (position.standing formed).code_of_mem_codes formed code made with own | expression
      · cases node with
        | functionExpression =>
            cases own
            exact .functionExpression within
        | functionDeclaration =>
            cases own
            exact .functionDeclaration ih
        | _ => cases own
      · obtain ⟨function, inside, isCode⟩ := Node.exists_of_mem_codes node code made
        cases function with
        | functionExpression =>
            cases isCode
            exact .functionExpression (within.trans inside)
        | functionDeclaration =>
            cases isCode
            cases expression
        | _ => cases isCode

/-- At every position of a structured program control goes where the links lead. -/
theorem Position.next_eq {links : Links} (formed : program.isWellFormed plain = true)
    (structured : program.Every Node.isStructured) (owns : program.OwnsExits) (distinct : program.ids.Nodup)
    (linked : program.linked .done = .ok links)
    (position : Position program inFunction node next layers) :
    links.next node = (node.next next).successor := by
  have present : program.isAbsent = false := by
    cases program with
    | program => rfl
    | _ => simp [Node.isWellFormed] at formed
  have precedes := position.precedes formed owns
  rw [precedes.next_eq present structured distinct linked,
    Node.successor_next (precedes.isStructured structured) (precedes.ownsExit owns)]

end Control

/-- From every statement that a run of a structured program comes to, control goes where the links lead. -/
theorem Machine.Reachable.next_eq_links {machine : Machine} {tree : Tree} {program node : Node}
    {count counted : Nat} {links : Links} {next : Control} {scope : Scope} {store : Store}
    {continuation : Continuation} (reads : tree.read count = .ok program counted)
    (formed : program.isWellFormed false = true) (structured : program.Every Node.isStructured)
    (linked : program.linked .done = .ok links)
    (reachable : machine.Reachable program (.active node next scope store continuation)) :
    links.next node = (node.next next).successor := by
  have owns := Tree.ownsExits_of_read reads
  have distinct : program.ids.Nodup := Tree.nodup_ids_of_read reads
  obtain ⟨⟨inFunction, layers, position, -⟩, -⟩ :=
    reachable.sound formed owns (by simp)
  exact position.next_eq formed structured owns distinct linked

/-- Linking a structured tree of distinct nodes succeeds and leaves every statement and every exit with
exactly the successor that its position determines, whatever is linked before and after it, which is where
the machine goes from it. Nodes that stand at no position are left without one. -/
theorem Node.linked_by_position {root : Node} {after : Successor} (present : root.isAbsent = false)
    (structured : root.Every Node.isStructured) (owns : root.OwnsExits) (distinct : root.ids.Nodup) :
    ∃ links, root.linked after = .ok links ∧
      (∀ node last, root.Precedes after node last → links.next node = node.successor last) ∧
      (∀ node (control : Control), root.Precedes after node control.successor →
        links.next node = (node.next control).successor) ∧
      ∀ node, (∀ placed last, root.Precedes after placed last → placed.place.id ≠ node.place.id) →
        links.next node = .nowhere := by
  have linked := Node.linked_of_isStructured present structured after
  have positions := fun node last (precedes : root.Precedes after node last) =>
    precedes.next_eq present structured distinct linked
  refine ⟨_, linked, positions, fun node control precedes => ?_, fun node elsewhere => ?_⟩
  · rw [Node.successor_next (precedes.isStructured structured) (precedes.ownsExit owns)]
    exact positions node _ precedes
  · rw [Links.next_setAll_of_forall_ne]
    · rfl
    · intro write member
      obtain ⟨last, precedes, -⟩ := Node.exists_of_mem_writes structured owns member
      exact (elsewhere write.1 last precedes).symm

namespace Sample

/-- A function with a loop that returns, a branch, a protected block that throws, and a function
expression. -/
def forms : Tree :=
  let loop := node "WhileStatement" [("test", name "x"), ("body", block [node "ReturnStatement" []])]
  let branch := node "IfStatement"
    [("test", name "x"), ("consequent", block []), ("alternate", node "EmptyStatement" [])]
  let thrown := node "ThrowStatement" [("argument", literal "no")]
  let clause := node "CatchClause" [("param", name "e"), ("body", block [branch])]
  program [function "f" [] [loop], node "TryStatement" [("block", block [thrown]), ("handler", clause)],
    declare "g" (node "FunctionExpression" [("params", .list []), ("body", block [loop])])]

namespace Forms

def identAt (id : Nat) (text : String) : Ident := ⟨⟨id, .null⟩, ⟨.text text, id⟩⟩

def returning : Node := .returnStatement ⟨7, .null⟩ .absent

def loopBody : Node := .block ⟨6, .null⟩ [returning] (some 8)

def loop : Node := .whileStatement ⟨4, .null⟩ (.identifier (identAt 5 "x")) loopBody

def thrown : Node := .throwStatement ⟨12, .null⟩ (.literal ⟨13, .null⟩ (.text "no"))

def branch : Node :=
  .ifStatement ⟨18, .null⟩ (.identifier (identAt 19 "x")) (.block ⟨20, .null⟩ [] none)
    (.emptyStatement ⟨21, .null⟩)

def caught : Node := .block ⟨17, .null⟩ [branch] (some 22)

def function : Node :=
  .functionDeclaration ⟨1, .null⟩ (.identifier (identAt 2 "f")) [] (.block ⟨3, .null⟩ [loop] (some 9))

def attempt : Node :=
  .tryStatement ⟨10, .null⟩ (.block ⟨11, .null⟩ [thrown] (some 14))
    (.catchClause ⟨15, .null⟩ (identAt 16 "e") caught) [] 23

end Forms

end Sample

/-- In a program with all forms of statements, the body of a loop is entered at its first statement and left
to the loop again, and the body of a clause is left to the statement after the protected block. -/
theorem Node.linked_by_position_of_forms :
    ∃ root last links, root = .program ⟨0, .null⟩ [Sample.Forms.function, Sample.Forms.attempt, last] ∧
      Sample.forms.read 0 = .ok root 35 ∧ root.isAbsent = false ∧ root.Every Node.isStructured ∧
      root.OwnsExits ∧ root.ids.Nodup ∧ root.linked .done = .ok links ∧
      links.next Sample.Forms.loopBody = .visit Sample.Forms.returning ∧
      links.next Sample.Forms.returning = .nowhere ∧ links.next (.scopeExit 8) = .visit Sample.Forms.loop ∧
      links.next Sample.Forms.loop = .visit (.scopeExit 9) ∧ links.next (.scopeExit 9) = .nowhere ∧
      links.next Sample.Forms.caught = .visit Sample.Forms.branch ∧
      links.next Sample.Forms.branch = .visit (.scopeExit 22) ∧ links.next (.scopeExit 22) = .visit last ∧
      links.next (.handlerExit 23) = .visit last ∧ links.next last = .done := by
  let before := fun last => Node.program ⟨0, .null⟩ [Sample.Forms.function, Sample.Forms.attempt, last]
  obtain ⟨last, reads, ends⟩ : ∃ last, Sample.forms.read 0 = .ok (before last) 35 ∧
      last.successor .done = .done := ⟨_, rfl, rfl⟩
  obtain ⟨root, counted, again, structured⟩ : ∃ root counted,
      Sample.forms.read 0 = .ok root counted ∧ root.all Node.isStructured = true :=
    Ends.exists_ok (by decide +kernel)
  cases reads.symm.trans again
  let root := before last
  have owns : root.OwnsExits := Tree.ownsExits_of_read reads
  have distinct : root.ids.Nodup := Tree.nodup_ids_of_read reads
  obtain ⟨links, linked, positions, -⟩ := @Node.linked_by_position root .done rfl
    (Node.every_of_all structured) owns distinct
  have whole : root.Precedes .done root .done := .root
  have function := @Node.Precedes.next _ _ _ _ _ [] [last] none _ whole rfl
  have attempt := @Node.Precedes.next _ _ _ _ _ [Sample.Forms.function] [] none _ whole rfl
  have ending := @Node.Precedes.lastOfProgram _ _ _ last [Sample.Forms.function, Sample.Forms.attempt] _ whole
  have body := Node.Precedes.functionDeclaration function
  have loop := @Node.Precedes.lastOfBlock _ _ _ Sample.Forms.loop [] _ _ body
  have loopBody := Node.Precedes.loop loop
  have returning := @Node.Precedes.lastOfBlock _ _ _ Sample.Forms.returning [] _ _ loopBody
  have caught := Node.Precedes.clause attempt
  have branch := @Node.Precedes.lastOfBlock _ _ _ Sample.Forms.branch [] _ _ caught
  exact ⟨root, last, links, rfl, reads, rfl, Node.every_of_all structured, owns, distinct, linked,
    positions _ _ loopBody, positions _ _ returning, positions _ _ (.scopeExit loopBody),
    positions _ _ loop, positions _ _ (.scopeExit body), positions _ _ caught, positions _ _ branch,
    positions _ _ (.scopeExit caught), positions _ _ (.handlerExit attempt),
    (positions _ _ ending).trans ends⟩

end ScriptMachine
