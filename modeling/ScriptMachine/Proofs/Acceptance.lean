/-
This file says which trees reading accepts. Main statement: a regular tree is read or refused as unsupported,
and it is read exactly if every position that reading visits is one that the subset models.
-/

import Mathlib.Data.List.Forall2
import ScriptMachine.Proofs.Exploration
import ScriptMachine.Proofs.Numbering
import ScriptMachine.Proofs.Respelling

namespace ScriptMachine

/-- The fields that hold any number of parts each. -/
def Kind.several : Kind → List String
  | .program | .blockStatement => ["body"]
  | .variableDeclaration => ["declarations"]
  | .functionDeclaration | .functionExpression => ["params"]
  | .tryStatement => ["handlers"]
  | .callExpression => ["arguments"]
  | .objectExpression => ["properties"]
  | .arrayExpression => ["elements"]
  | _ => []

namespace Tree

def items : Tree → List Tree
  | .list items => items
  | _ => []

/-- The clauses of a try statement stand in a list or, failing that, alone. -/
def clauses (tree : Tree) : List Tree :=
  if (tree.field "handlers").truthy then (tree.field "handlers").items
  else if (tree.field "handler").isNull then [] else [tree.field "handler"]

/-- The positions directly below a tree that reading visits. The key of a property is none of them, and
neither is the name after a dot. -/
def visited (tree : Tree) : List Tree :=
  match tree.kind? with
  | none => []
  | some .tryStatement => tree.field "block" :: tree.clauses
  | some kind => tree.parts.flatMap fun name =>
      if kind.several.contains name then (tree.field name).items else [tree.field name]

inductive Visits (root : Tree) : Tree → Prop where
  | self : Visits root root
  | part {tree child : Tree} : Visits root tree → child ∈ tree.visited → Visits root child

def isOf (kind : Kind) (tree : Tree) : Bool := tree.kind? == some kind

/-- Functions are neither generators nor asynchronous, and their parameters are names. -/
def isPlainFunction (tree : Tree) : Bool :=
  !(tree.field "generator").truthy && !(tree.field "async").truthy &&
    (tree.field "params").items.all (isOf .identifier)

/-- A property has an initial value under a key that is a name or a literal. -/
def isPlainProperty (tree : Tree) : Bool :=
  !(tree.field "computed").truthy && !(tree.field "method").truthy &&
    (tree.fieldOr "kind" (.text "init")).isText "init" &&
    ((tree.field "key").isOf .identifier || (tree.field "key").isOf .literal)

def isComputedMember (tree : Tree) : Bool :=
  tree.isOf .memberExpression && (tree.field "computed").truthy

/-- The forms of a kind that the subset models. -/
def isModelled (kind : Kind) (tree : Tree) : Bool :=
  match kind with
  | .functionDeclaration | .functionExpression => tree.isPlainFunction
  | .variableDeclarator => (tree.field "id").isOf .identifier
  | .catchClause => (tree.field "param").isOf .identifier
  | .literal => (tree.field "regex").isNull
  | .tryStatement => (tree.field "finalizer").isNull && !tree.clauses.isEmpty
  | .assignmentExpression => !(tree.field "left").isComputedMember
  | .property => tree.isPlainProperty
  | _ => true

/-- What the subset models at one position, where nothing has to stand at all. -/
def isSupported (tree : Tree) : Bool :=
  tree.isNull || tree.kind?.any fun kind => tree.isModelled kind

/-- Several parts stand in a list, where only an array leaves places empty. -/
def isRegularList (kind : Kind) : Tree → Bool
  | .null => true
  | .list items => kind == .arrayExpression || items.all fun item => !item.isNull
  | _ => false

/-- Parts that reading looks into are present, and bodies are blocks. -/
def isComplete (kind : Kind) (tree : Tree) : Bool :=
  match kind with
  | .variableDeclarator => !(tree.field "id").isNull
  | .ifStatement => !(tree.field "consequent").isNull
  | .whileStatement => !(tree.field "body").isNull
  | .functionDeclaration | .functionExpression | .catchClause => (tree.field "body").isOf .blockStatement
  | .tryStatement => (tree.field "block").isOf .blockStatement && tree.clauses.all (isOf .catchClause)
  | _ => true

/-- What every front end sees to at one position: a kind is a text if there is one, and a tree of a kind that
can be read has its parts where they belong. -/
def isRegular (tree : Tree) : Bool :=
  (match tree.kind with
    | .null | .text _ => true
    | _ => false) &&
  tree.kind?.all fun kind =>
    kind.several.all (fun name => (tree.field name).isRegularList kind) && tree.isComplete kind

/-- A tree of which every visited position is modelled. -/
def Accepted (tree : Tree) : Prop := ∀ position, tree.Visits position → position.isSupported = true

def Regular (tree : Tree) : Prop := ∀ position, tree.Visits position → position.isRegular = true

variable {root tree : Tree} {kind : Kind}

/-- What is visited below a visited position is visited. -/
theorem Visits.trans {middle : Tree} (outer : root.Visits middle) (inner : middle.Visits tree) :
    root.Visits tree := by
  induction inner with
  | self => exact outer
  | part _ member ih => exact .part ih member

/-- A visit goes to the root, or through one of its parts. -/
theorem visits_iff : root.Visits tree ↔ tree = root ∨ ∃ child ∈ root.visited, child.Visits tree := by
  constructor
  · intro visits
    induction visits with
    | self => exact .inl rfl
    | @part middle child _ member ih =>
        rcases ih with rfl | ⟨first, inside, deeper⟩
        · exact .inr ⟨child, member, .self⟩
        · exact .inr ⟨first, inside, .part deeper member⟩
  · rintro (rfl | ⟨child, inside, deeper⟩)
    · exact .self
    · exact (Visits.part .self inside).trans deeper

/-- A tree is accepted if it is supported and its parts are accepted. -/
theorem accepted_iff : tree.Accepted ↔ tree.isSupported = true ∧ ∀ child ∈ tree.visited, child.Accepted := by
  constructor
  · intro accepted
    exact ⟨accepted tree .self, fun child member position visits =>
      accepted position ((Visits.part .self member).trans visits)⟩
  · rintro ⟨own, inner⟩ position visits
    rcases visits_iff.mp visits with rfl | ⟨child, member, deeper⟩
    · exact own
    · exact inner child member position deeper

/-- The parts of a regular tree are regular. -/
theorem Regular.child {child : Tree} (regular : tree.Regular) (member : child ∈ tree.visited) :
    child.Regular :=
  fun position visits => regular position ((Visits.part .self member).trans visits)

/-- Looking a few levels deep sees every position of a tree that goes no deeper. -/
def checks (check : Tree → Bool) : Nat → Tree → Bool
  | 0, _ => false
  | depth + 1, tree => check tree && tree.visited.all (checks check depth)

/-- A check of a whole tree holds at every position that is visited. -/
theorem check_of_checks {check : Tree → Bool} {depth : Nat} (checked : root.checks check depth = true) :
    ∀ position, root.Visits position → check position = true := by
  have reached : ∀ position, root.Visits position → ∃ depth, position.checks check depth = true := by
    intro position visits
    induction visits with
    | self => exact ⟨depth, checked⟩
    | @part tree child _ member ih =>
        obtain ⟨depth, inner⟩ := ih
        cases depth with
        | zero => cases inner
        | succ depth =>
            rw [checks, Bool.and_eq_true, List.all_eq_true] at inner
            exact ⟨depth, inner.2 child member⟩
  intro position visits
  obtain ⟨depth, inner⟩ := reached position visits
  cases depth with
  | zero => cases inner
  | succ depth =>
      rw [checks, Bool.and_eq_true] at inner
      exact inner.1

/-- The kind of a tree is a readable one that it names. -/
theorem kind?_eq_some :
    tree.kind? = some kind ↔ kind ∈ Kind.readable ∧ tree.kind.isText kind.text = true := by
  unfold kind?
  cases tree.kind with
  | text shown =>
      constructor
      · intro found
        exact ⟨List.mem_of_find?_eq_some found, beq_iff_eq.mpr (Kind.text_of_ofText found).symm⟩
      · rintro ⟨readable, same⟩
        rw [show shown = kind.text from eq_of_beq same]
        exact Kind.ofText_text readable
  | _ => simp [isText]

/-- Being of a kind is having it. -/
theorem isOf_iff : tree.isOf kind = true ↔ tree.kind? = some kind := by
  simp [isOf]

/-- A tree that names a readable kind is of that kind. -/
theorem isText_kind (readable : kind ∈ Kind.readable) : tree.kind.isText kind.text = tree.isOf kind := by
  rw [Bool.eq_iff_iff, isOf_iff, kind?_eq_some]
  simp [readable]

/-- A tree of some kind is not null. -/
theorem isNull_of_kind (kinded : tree.kind? = some kind) : tree.isNull = false := by
  cases tree with
  | null => cases kinded
  | _ => rfl

/-- Only records have a kind. -/
theorem exists_record_of_kind (kinded : tree.kind? = some kind) :
    ∃ shape fields, tree = .record shape fields := by
  cases tree with
  | record shape fields => exact ⟨shape, fields, rfl⟩
  | null | bool _ | int _ | float _ | text _ | list _ => cases kinded

/-- The fields of a tree are smaller than the tree. -/
theorem sizeOf_field (kinded : tree.kind? = some kind) (name : String) :
    sizeOf (tree.field name) < sizeOf tree := by
  obtain ⟨shape, fields, rfl⟩ := exists_record_of_kind kinded
  rcases Tree.field_record shape fields name with missing | found
  · rw [missing]
    cases shape <;> simp <;> omega
  · obtain ⟨before, after, split, -⟩ := List.lookup_eq_some_iff.mp found
    have inside := List.sizeOf_lt_of_mem (split ▸ List.mem_append_right before List.mem_cons_self)
    simp only [Prod.mk.sizeOf_spec, Tree.record.sizeOf_spec] at inside ⊢
    omega

/-- The items of a tree are smaller than the tree. -/
theorem sizeOf_item {item : Tree} (member : item ∈ tree.items) : sizeOf item < sizeOf tree := by
  cases tree with
  | list items =>
      have inside := List.sizeOf_lt_of_mem (show item ∈ items from member)
      simp only [Tree.list.sizeOf_spec]
      omega
  | _ => cases member

/-- What is visited within a tree is smaller than the tree. -/
theorem sizeOf_visited {child : Tree} (member : child ∈ tree.visited) : sizeOf child < sizeOf tree := by
  cases kinded : tree.kind? with
  | none => simp [visited, kinded] at member
  | some kind =>
      have field := sizeOf_field kinded
      have item {name : String} (inside : child ∈ (tree.field name).items) : sizeOf child < sizeOf tree :=
        Nat.lt_trans (sizeOf_item inside) (field name)
      unfold visited at member
      rw [kinded] at member
      split at member
      · cases member
      · rcases List.mem_cons.mp member with rfl | inside
        · exact field "block"
        · unfold clauses at inside
          split at inside
          · exact item inside
          · split at inside
            · cases inside
            · obtain rfl := List.mem_singleton.mp inside
              exact field "handler"
      · obtain ⟨name, -, inside⟩ := List.mem_flatMap.mp member
        split at inside
        · exact item inside
        · obtain rfl := List.mem_singleton.mp inside
          exact field name

/-- Where handlers stand in a list, the clauses of a try statement are its catch clauses. -/
theorem catchClauses_of_isRegularList (regular : (tree.field "handlers").isRegularList kind = true) :
    tree.catchClauses = .ok tree.clauses := by
  unfold catchClauses clauses
  cases handlers : tree.field "handlers" with
  | null => rfl
  | list held => cases held <;> rfl
  | _ =>
      rw [handlers] at regular
      cases regular

/-- Reading a list of parts reads them one after the other. -/
theorem readAll_of_isRegularList (regular : tree.isRegularList kind = true) :
    tree.readAll = readItems tree.items := by
  cases tree with
  | null | list _ => rfl
  | _ => cases regular

end Tree

namespace Reader

/-- A reader that gives a good result exactly where its input is accepted, and that refuses its input as
unsupported everywhere else. -/
def Judges {A : Type} (reader : Reader A) (good : A → Prop) (accepted : Prop) : Prop :=
  ∀ count, Ends reader count (fun result _ => good result ∧ accepted)
    (fun fault _ => (∃ cause, fault = .unsupported cause) ∧ ¬accepted)

section

variable {A B : Type} {good : A → Prop} {accepted : Prop}

/-- Reading that gives a good result at once accepts everything. -/
theorem judges_pure {result : A} (holds : good result) : Judges (pure result) good True :=
  fun _ => ⟨holds, trivial⟩

/-- A refusal judges what is not accepted. -/
theorem judges_refuse (cause : Unsupported) (rejected : ¬accepted) : Judges (refuse cause) good accepted :=
  fun _ => ⟨⟨cause, rfl⟩, rejected⟩

/-- Reading in two parts accepts what both parts accept. -/
theorem Judges.bind {first : Reader B} {second : B → Reader A} {middle : B → Prop} {before : Prop}
    (judges : Judges first middle before)
    (onward : ∀ result, middle result → Judges (second result) good accepted) :
    Judges (first >>= second) good (before ∧ accepted) := by
  intro count
  rw [ends_bind]
  refine (judges count).weaken (fun result next holds => ?_) fun fault _ failed => ⟨failed.1, ?_⟩
  · exact (onward result holds.1 next).weaken (fun _ _ found => ⟨found.1, holds.2, found.2⟩)
      fun _ _ refused => ⟨refused.1, fun both => refused.2 both.2⟩
  · exact fun both => failed.2 both.1

/-- What is accepted may be put in other words. -/
theorem Judges.of_iff {reader : Reader A} {other : Prop} (judges : Judges reader good accepted)
    (same : accepted ↔ other) : Judges reader good other :=
  propext same ▸ judges

/-- What counts without looking at the input comes before the judgement. -/
theorem Judges.after {first : Reader B} {second : B → Reader A} (silent : Judges first (fun _ => True) True)
    (onward : ∀ result, Judges (second result) good accepted) : Judges (first >>= second) good accepted :=
  (silent.bind fun result _ => onward result).of_iff (iff_of_eq (true_and _))

/-- Placing a node accepts everything. -/
theorem judges_place (item : Item) : Judges item.place (fun _ => True) True := fun _ => ⟨trivial, trivial⟩

/-- Numbering accepts everything. -/
theorem judges_fresh : Judges fresh (fun _ => True) True := fun _ => ⟨trivial, trivial⟩

/-- A form that is refused at sight. -/
theorem Judges.unless {guard : Bool} {rest : Reader A} (cause : Unsupported)
    (judges : Judges rest good accepted) :
    Judges (if guard = true then refuse cause >>= fun _ : Unit => rest else rest) good
      (guard = false ∧ accepted) := by
  cases guard with
  | true => exact fun _ => ⟨⟨cause, rfl⟩, fun both => Bool.noConfusion both.1⟩
  | false => exact judges.of_iff (by simp)

end

end Reader

namespace Node

def isComputed : Node → Bool
  | .member _ _ _ computed => computed
  | _ => false

/-- What a node shows of the tree that it was read from. -/
structure Renders (node : Node) (tree : Tree) : Prop where
  absent : node.isAbsent = tree.isNull
  kind : node.kind? = tree.kind?
  linkable : tree.isNull = false → node.linkable = true
  clause : tree.isOf .catchClause = true → node.bodyLinkable = true
  computed : node.isComputed = tree.isComputedMember

/-- An absent node stands for null. -/
theorem renders_absent : Node.absent.Renders .null := ⟨rfl, rfl, nofun, nofun, rfl⟩

/-- A node is checked against the kind of its tree. -/
theorem renders_of_kind {node : Node} {tree : Tree} {kind : Kind} (kinded : tree.kind? = some kind)
    (same : node.kind? = some kind) (linkable : node.linkable = true)
    (clause : (kind != .catchClause || node.bodyLinkable) = true)
    (computed : node.isComputed = (kind == .memberExpression && (tree.field "computed").truthy)) :
    node.Renders tree where
  absent := by
    rw [Tree.isNull_of_kind kinded]
    cases node with
    | absent => cases same
    | _ => rfl
  kind := same.trans kinded.symm
  linkable _ := linkable
  clause isClause := by
    cases kinded.symm.trans (Tree.isOf_iff.mp isClause)
    exact clause
  computed := by
    rw [computed, Tree.isComputedMember, Tree.isOf, kinded]
    rfl

end Node

namespace Tree

variable {tree : Tree} {kind : Kind}

/-- The parts that a tree of most kinds visits are listed by its kind. -/
theorem visited_of_kind (kinded : tree.kind? = some kind)
    (plain : kind ≠ .tryStatement ∧ kind ≠ .memberExpression) :
    tree.visited = kind.parts.flatMap fun name =>
      if kind.several.contains name then (tree.field name).items else [tree.field name] := by
  have parts : tree.parts = kind.parts := by
    simp [Tree.parts, Tree.isDotted, kinded, plain.2]
  unfold visited
  rw [kinded, parts]
  cases kind with
  | tryStatement => exact absurd rfl plain.1
  | _ => rfl

/-- A tree of some kind is accepted if it is modelled and its parts are accepted. -/
theorem accepted_of_kind (kinded : tree.kind? = some kind) :
    tree.Accepted ↔ tree.isModelled kind = true ∧ ∀ child ∈ tree.visited, child.Accepted := by
  rw [accepted_iff, isSupported, kinded, isNull_of_kind kinded, Bool.false_or, Option.any_some]

/-- A regular tree has regular lists, and all that its kind asks for. -/
theorem regular_of_kind (regular : tree.isRegular = true) (kinded : tree.kind? = some kind) :
    (∀ name ∈ kind.several, (tree.field name).isRegularList kind = true) ∧ tree.isComplete kind = true := by
  rw [isRegular, kinded, Option.all_some, Bool.and_eq_true, Bool.and_eq_true, List.all_eq_true] at regular
  exact regular.2

end Tree

variable {tree : Tree}

/-- Lists other than those of arrays hold no null. -/
theorem Tree.present_of_isRegularList {kind : Kind} (regular : tree.isRegularList kind = true)
    (notArray : kind ≠ .arrayExpression) : ∀ child ∈ tree.items, child.isNull = false := by
  cases tree with
  | list items => simpa [Tree.isRegularList, Tree.items, notArray] using regular
  | _ => exact nofun

/-- Statements that were read from present trees can be linked. -/
theorem Node.allLinkable_of_renders {nodes : List Node} {trees : List Tree}
    (renders : List.Forall₂ Node.Renders nodes trees) (present : ∀ tree ∈ trees, tree.isNull = false) :
    Node.allLinkable nodes = true := by
  induction renders with
  | nil => rfl
  | cons first _ ih =>
      obtain ⟨here, others⟩ := List.forall_mem_cons.mp present
      rw [Node.allLinkable, first.linkable here, ih others]
      rfl

/-- The kind of a tree shows on the node that was read from it. -/
theorem Node.Renders.isOf {node : Node} (renders : node.Renders tree) (kind : Kind) :
    tree.isOf kind = (node.kind? == some kind) := by
  rw [Tree.isOf, renders.kind]

/-- What was read from a block has a protected body. -/
theorem Node.Renders.hasProtectedBody {node : Node} (renders : node.Renders tree)
    (blocked : tree.isOf .blockStatement = true) : node.hasProtectedBody = true := by
  rw [renders.isOf] at blocked
  cases node with
  | program | block => rfl
  | _ => exact absurd blocked (by simp [Node.kind?])

namespace Reader

/-- A reader that judges a tree gives a node that stands for it. -/
abbrev JudgesNode (reader : Reader Node) (tree : Tree) : Prop :=
  Judges reader (fun node => node.Renders tree) tree.Accepted

/-- A list of parameters is accepted if all of them are identifiers. -/
theorem judges_identifiers {nodes : List Node} {trees : List Tree}
    (renders : List.Forall₂ Node.Renders nodes trees) (present : ∀ tree ∈ trees, tree.isNull = false) :
    Judges (identifiers nodes) (fun _ => True) (∀ tree ∈ trees, tree.isOf .identifier = true) := by
  induction renders with
  | nil => exact (judges_pure trivial).of_iff (by simp)
  | @cons node tree _ _ first _ ih =>
      obtain ⟨here, others⟩ := List.forall_mem_cons.mp present
      cases node with
      | identifier ident =>
          refine ((ih others).bind fun _ _ => judges_pure trivial).of_iff ?_
          simp [first.isOf, Node.kind?]
      | absent => exact absurd (first.absent.trans here) (by decide)
      | _ => exact judges_refuse _ (by simp [first.isOf, Node.kind?])

/-- Trees are judged one after the other. -/
theorem judges_readItems {items : List Tree}
    (judged : ∀ item ∈ items, JudgesNode item.read item) :
    Judges (Tree.readItems items) (fun nodes => List.Forall₂ Node.Renders nodes items)
      (∀ item ∈ items, item.Accepted) := by
  induction items with
  | nil => exact (judges_pure .nil).of_iff (by simp)
  | cons item rest ih =>
      obtain ⟨here, others⟩ := List.forall_mem_cons.mp judged
      exact (here.bind fun node renders => (ih others).bind fun nodes inner =>
        judges_pure (.cons renders inner)).of_iff (by simp)

/-- The fields of an item are read from what the tree holds there, and everything below is judged. -/
structure Item.Faithful (item : Item) (tree : Tree) : Prop where
  raw : item.raw = tree
  regular : tree.isRegular = true
  reads : ∀ name, item.node name = (tree.field name).read
  readsAll : ∀ name, item.nodes name = (tree.field name).readAll
  judged : ∀ child ∈ tree.visited, JudgesNode child.read child

/-- A key is accepted if it is an identifier or a literal. -/
theorem judges_propertyKey (key : Tree) :
    Judges (propertyKey key) (fun _ => True) ((key.isOf .identifier || key.isOf .literal) = true) := by
  rw [← Tree.isText_kind (show Kind.identifier ∈ Kind.readable by decide),
    ← Tree.isText_kind (show Kind.literal ∈ Kind.readable by decide)]
  unfold propertyKey Kind.text
  cases key.kind.isText "Identifier" with
  | true => exact (judges_pure trivial).of_iff (by simp)
  | false =>
      cases key.kind.isText "Literal" with
      | true => exact (judges_pure trivial).of_iff (by simp)
      | false => exact judges_refuse _ (by simp)

namespace Item.Faithful

variable {item : Item} {tree : Tree} {kind : Kind} (faithful : item.Faithful tree)
include faithful

/-- Reading a part accepts what the part accepts. -/
theorem node (name : String) (visited : tree.field name ∈ tree.visited) :
    JudgesNode (item.node name) (tree.field name) := by
  rw [faithful.reads]
  exact faithful.judged _ visited

/-- Reading a list of parts accepts what all of them accept. -/
theorem nodes (name : String) (kind : Kind) (regular : (tree.field name).isRegularList kind = true)
    (visited : ∀ child ∈ (tree.field name).items, child ∈ tree.visited) :
    Judges (item.nodes name) (fun nodes => List.Forall₂ Node.Renders nodes (tree.field name).items)
      (∀ child ∈ (tree.field name).items, child.Accepted) := by
  rw [faithful.readsAll, Tree.readAll_of_isRegularList regular]
  exact judges_readItems fun child member => faithful.judged child (visited child member)

/-- The lists of a regular tree are regular. -/
theorem several (kinded : tree.kind? = some kind) {name : String} (member : name ∈ kind.several) :
    (tree.field name).isRegularList kind = true :=
  (Tree.regular_of_kind faithful.regular kinded).1 name member

/-- A regular tree is complete. -/
theorem complete (kinded : tree.kind? = some kind) : tree.isComplete kind = true :=
  (Tree.regular_of_kind faithful.regular kinded).2

/-- An item is flagged where its tree is. -/
theorem isSet (name : String) : item.isSet name = (tree.field name).truthy := by
  rw [Item.isSet, Item.field, faithful.raw]

/-- A node that is made of one part, or of several in a row. -/
theorem one (kinded : tree.kind? = some kind) (name : String) {make : Node → Node}
    (visited : tree.visited = [tree.field name]) (modelled : tree.isModelled kind = true)
    (renders : ∀ part, (make part).Renders tree) :
    JudgesNode (do return make (← item.node name)) tree := by
  refine ((faithful.node name (by simp [visited])).bind fun part _ => judges_pure (renders part)).of_iff ?_
  rw [Tree.accepted_of_kind kinded]
  simp [visited, modelled]

/-- A node that is made of a list of parts. -/
theorem many (kinded : tree.kind? = some kind) (name : String) {make : List Node → Node}
    (several : name ∈ kind.several)
    (visited : tree.visited = [name].flatMap fun name => (tree.field name).items)
    (modelled : tree.isModelled kind = true)
    (renders : ∀ parts, List.Forall₂ Node.Renders parts (tree.field name).items → (make parts).Renders tree) :
    JudgesNode (do return make (← item.nodes name)) tree := by
  refine ((faithful.nodes name kind (faithful.several kinded several) (by simp [visited])).bind
    fun parts inner => judges_pure (renders parts inner)).of_iff ?_
  rw [Tree.accepted_of_kind kinded]
  simp [visited, modelled]

/-- A node that is made of two parts. -/
theorem two (kinded : tree.kind? = some kind) (first second : String) {make : Node → Node → Node}
    (visited : tree.visited = [tree.field first, tree.field second])
    (modelled : tree.isModelled kind = true)
    (renders : ∀ left right, left.Renders (tree.field first) → right.Renders (tree.field second) →
      (make left right).Renders tree) :
    JudgesNode (do return make (← item.node first) (← item.node second)) tree := by
  refine ((faithful.node first (by simp [visited])).bind fun left leftRenders =>
    (faithful.node second (by simp [visited])).bind fun right rightRenders =>
      judges_pure (renders left right leftRenders rightRenders)).of_iff ?_
  rw [Tree.accepted_of_kind kinded]
  simp [visited, modelled]

/-- Generators and asynchronous functions are refused. -/
theorem plainFunction :
    Judges (plainFunction item) (fun _ => True)
      ((tree.field "generator").truthy = false ∧ (tree.field "async").truthy = false) := by
  unfold Reader.plainFunction
  rw [faithful.isSet, faithful.isSet]
  refine Judges.unless _ ?_
  cases (tree.field "async").truthy with
  | true => exact judges_refuse _ (by simp)
  | false => exact (judges_pure trivial).of_iff (by simp)

/-- Parameters are accepted if they are identifiers. -/
theorem params (several : (tree.field "params").isRegularList kind = true)
    (notArray : kind ≠ .arrayExpression)
    (visited : ∀ child ∈ (tree.field "params").items, child ∈ tree.visited) :
    Judges (params item) (fun _ => True) ((∀ child ∈ (tree.field "params").items, child.Accepted) ∧
      ∀ child ∈ (tree.field "params").items, child.isOf .identifier = true) :=
  (faithful.nodes "params" kind several visited).bind fun _ renders =>
    judges_identifiers renders (Tree.present_of_isRegularList several notArray)

theorem block (kinded : tree.kind? = some .blockStatement) :
    JudgesNode (block item) tree := by
  have visited : tree.visited = (tree.field "body").items := by
    simpa [Kind.parts, Kind.several] using Tree.visited_of_kind kinded (by decide)
  have several := faithful.several kinded (show "body" ∈ Kind.blockStatement.several by decide)
  have present := Tree.present_of_isRegularList several (by decide)
  unfold JudgesNode
  rw [Tree.accepted_of_kind kinded, visited]
  refine (judges_place item).after fun place => ?_
  refine ((faithful.nodes "body" _ several (by simp [visited])).bind fun body renders => ?_).of_iff
    (show _ ∧ True ↔ _ by simp [Tree.isModelled])
  have makes (exit : Option Nat) :
      Judges (pure (Node.block place body exit)) (fun node => node.Renders tree) True :=
    judges_pure (Node.renders_of_kind kinded rfl (Node.allLinkable_of_renders renders present) rfl rfl)
  cases body with
  | nil => exact makes none
  | cons first rest =>
      have numbered : Judges (some <$> fresh) (fun _ => True) True := fun _ => ⟨trivial, trivial⟩
      exact numbered.after makes

theorem declarator (kinded : tree.kind? = some .variableDeclarator) :
    JudgesNode (declarator item) tree := by
  have visited : tree.visited = [tree.field "id", tree.field "init"] :=
    Tree.visited_of_kind kinded (by decide)
  have present : (tree.field "id").isNull = false := by
    simpa [Tree.isComplete] using faithful.complete kinded
  unfold JudgesNode
  rw [Tree.accepted_of_kind kinded, Tree.isModelled, visited]
  refine (judges_place item).after fun place => ?_
  refine Judges.of_iff (show Judges _ _ ((tree.field "id").Accepted ∧
    ((tree.field "id").isOf .identifier = true ∧ (tree.field "init").Accepted)) from
      (faithful.node "id" (by simp [visited])).bind fun target renders => ?_) (by simp [and_left_comm])
  cases target with
  | identifier target =>
      refine ((faithful.node "init" (by simp [visited])).bind fun init _ => judges_pure ?_).of_iff ?_
      · exact Node.renders_of_kind kinded rfl rfl rfl rfl
      · simp [renders.isOf, Node.kind?]
  | absent => exact absurd (renders.absent.trans present) (by decide)
  | _ => exact judges_refuse _ (by simp [renders.isOf, Node.kind?])

/-- Functions of both kinds ask for the same, and their bodies can be linked. -/
theorem function (kinded : tree.kind? = some kind)
    (isFunction : kind = .functionDeclaration ∨ kind = .functionExpression)
    {make : Place → Node → List Ident → Node → Reader Node}
    (makes : ∀ place name params body, body.linkable = true →
      Judges (make place name params body) (fun node => node.Renders tree) True) :
    JudgesNode (do
      Reader.plainFunction item
      let place ← item.place
      let name ← item.node "id"
      let params ← Reader.params item
      let body ← item.node "body"
      make place name params body) tree := by
  have visited : tree.visited = tree.field "id" :: ((tree.field "params").items ++ [tree.field "body"]) := by
    rcases isFunction with rfl | rfl <;> exact Tree.visited_of_kind kinded (by decide)
  have several : (tree.field "params").isRegularList kind = true := by
    rcases isFunction with rfl | rfl <;> exact faithful.several kinded (by decide)
  have notArray : kind ≠ .arrayExpression := by rcases isFunction with rfl | rfl <;> decide
  have present : (tree.field "body").isNull = false := by
    rcases isFunction with rfl | rfl <;>
      exact Tree.isNull_of_kind (Tree.isOf_iff.mp (faithful.complete kinded))
  have modelled : tree.isModelled kind = tree.isPlainFunction := by rcases isFunction with rfl | rfl <;> rfl
  unfold JudgesNode
  rw [Tree.accepted_of_kind kinded, modelled, visited]
  refine (faithful.plainFunction.bind fun _ _ => (judges_place item).after fun place =>
    (faithful.node "id" (by simp [visited])).bind fun name _ =>
      (faithful.params several notArray fun child member => by simp [visited, member]).bind fun params _ =>
        (faithful.node "body" (by simp [visited])).bind fun body renders =>
          makes place name params body (renders.linkable present)).of_iff ?_
  simp only [Tree.isPlainFunction, Bool.and_eq_true, Bool.not_eq_true', List.all_eq_true,
    List.forall_mem_cons, List.forall_mem_append]
  tauto

theorem functionDeclaration (kinded : tree.kind? = some .functionDeclaration) :
    JudgesNode (functionDeclaration item) tree :=
  faithful.function kinded (.inl rfl) fun _ _ _ _ linkable =>
    judges_pure (Node.renders_of_kind kinded rfl linkable rfl rfl)

theorem functionExpression (kinded : tree.kind? = some .functionExpression) :
    JudgesNode (functionExpression item) tree := by
  refine faithful.function kinded (.inr rfl) fun _ _ _ _ linkable => ?_
  rw [link_eq, if_pos linkable, pure_bind]
  exact judges_pure (Node.renders_of_kind kinded rfl rfl rfl rfl)

theorem ifStatement (kinded : tree.kind? = some .ifStatement) (place : Place) :
    JudgesNode (do
      return Node.ifStatement place (← item.node "test") (← item.node "consequent")
        (← item.node "alternate")) tree := by
  have visited : tree.visited = [tree.field "test", tree.field "consequent", tree.field "alternate"] :=
    Tree.visited_of_kind kinded (by decide)
  have present : (tree.field "consequent").isNull = false := by
    simpa [Tree.isComplete] using faithful.complete kinded
  unfold JudgesNode
  rw [Tree.accepted_of_kind kinded, visited]
  refine ((faithful.node "test" (by simp [visited])).bind fun test _ =>
    (faithful.node "consequent" (by simp [visited])).bind fun consequent first =>
      (faithful.node "alternate" (by simp [visited])).bind fun alternate second => judges_pure ?_).of_iff ?_
  · refine Node.renders_of_kind kinded rfl ?_ rfl rfl
    rw [Node.linkable, first.linkable present, second.absent]
    cases missing : (tree.field "alternate").isNull with
    | true => rfl
    | false => exact second.linkable missing
  · simp [Tree.isModelled]

/-- The clauses of a try statement are those of its tree. -/
theorem handlers (kinded : tree.kind? = some .tryStatement) :
    Judges (handlers item) (fun nodes => List.Forall₂ Node.Renders nodes tree.clauses)
      (∀ clause ∈ tree.clauses, clause.Accepted) := by
  have several := faithful.several kinded (show "handlers" ∈ Kind.tryStatement.several by decide)
  have visited : ∀ clause ∈ tree.clauses, clause ∈ tree.visited := by
    intro clause member
    simp [Tree.visited, kinded, member]
  rw [Reader.handlers_eq faithful.raw faithful.reads faithful.readsAll,
    Tree.catchClauses_of_isRegularList several]
  exact judges_readItems fun clause member => faithful.judged clause (visited clause member)

theorem tryStatement (kinded : tree.kind? = some .tryStatement) :
    JudgesNode (tryStatement item) tree := by
  have visited : tree.visited = tree.field "block" :: tree.clauses := by simp [Tree.visited, kinded]
  obtain ⟨blocked, clauses⟩ := Bool.and_eq_true_iff.mp (faithful.complete kinded)
  unfold JudgesNode
  rw [Tree.accepted_of_kind kinded, Tree.isModelled, visited]
  refine (judges_place item).after fun place => ?_
  dsimp only
  rw [Item.field, faithful.raw]
  -- A last block is refused before anything below is read, and missing clauses only after everything is.
  refine Judges.of_iff (Judges.unless _ (show Judges _ _ ((tree.field "block").Accepted ∧
    ((∀ clause ∈ tree.clauses, clause.Accepted) ∧ tree.clauses.isEmpty = false)) from
      (faithful.node "block" (by simp [visited])).bind fun guarded guardedRenders =>
        (faithful.handlers kinded).bind fun handlers renders => ?_)) ?_
  · generalize tree.clauses = trees at renders clauses
    cases renders with
    | nil => exact judges_refuse _ (by simp)
    | cons first rest =>
        refine judges_fresh.after fun exit => (judges_pure ?_).of_iff (by simp)
        refine Node.renders_of_kind kinded rfl ?_ rfl rfl
        rw [Node.linkable, first.clause (List.all_eq_true.mp clauses _ List.mem_cons_self),
          guardedRenders.hasProtectedBody blocked,
          guardedRenders.linkable (Tree.isNull_of_kind (Tree.isOf_iff.mp blocked))]
        rfl
  · simp only [Bool.and_eq_true, Bool.not_eq_true', Bool.not_eq_false', List.forall_mem_cons]
    tauto

theorem catchClause (kinded : tree.kind? = some .catchClause) :
    JudgesNode (catchClause item) tree := by
  have visited : tree.visited = [tree.field "param", tree.field "body"] :=
    Tree.visited_of_kind kinded (by decide)
  have present := Tree.isNull_of_kind (Tree.isOf_iff.mp (faithful.complete kinded))
  unfold JudgesNode
  rw [Tree.accepted_of_kind kinded, Tree.isModelled, visited]
  refine (judges_place item).after fun place => ?_
  refine Judges.of_iff (show Judges _ _ ((tree.field "param").Accepted ∧
    ((tree.field "param").isOf .identifier = true ∧ (tree.field "body").Accepted)) from
      (faithful.node "param" (by simp [visited])).bind fun param renders => ?_) (by simp [and_left_comm])
  cases param with
  | identifier param =>
      refine ((faithful.node "body" (by simp [visited])).bind fun body inner => judges_pure ?_).of_iff ?_
      · exact Node.renders_of_kind kinded rfl rfl (inner.linkable present) rfl
      · simp [renders.isOf, Node.kind?]
  | _ => exact judges_refuse _ (by simp [renders.isOf, Node.kind?])

theorem literal (kinded : tree.kind? = some .literal) :
    JudgesNode (literal item) tree := by
  have visited : tree.visited = [] := Tree.visited_of_kind kinded (by decide)
  unfold JudgesNode
  rw [Tree.accepted_of_kind kinded, Tree.isModelled, visited]
  unfold Reader.literal
  dsimp only
  refine (Judges.unless _ ((judges_place item).after fun place => judges_pure ?_)).of_iff ?_
  · exact Node.renders_of_kind kinded rfl rfl rfl rfl
  · rw [Item.field, faithful.raw]
    simp

theorem assignment (kinded : tree.kind? = some .assignmentExpression) :
    JudgesNode (assignment item) tree := by
  have visited : tree.visited = [tree.field "left", tree.field "right"] :=
    Tree.visited_of_kind kinded (by decide)
  unfold JudgesNode
  rw [Tree.accepted_of_kind kinded, Tree.isModelled, visited]
  refine (judges_place item).after fun place => ?_
  refine Judges.of_iff (show Judges _ _ ((tree.field "left").Accepted ∧
    ((tree.field "left").isComputedMember = false ∧ (tree.field "right").Accepted)) from
      (faithful.node "left" (by simp [visited])).bind fun left renders => ?_) (by simp [and_left_comm])
  rw [← renders.computed]
  dsimp only
  split
  · exact judges_refuse _ (by simp [Node.isComputed])
  · rename_i byName
    have isNamed : left.isComputed = false := by
      cases left with
      | member inner holder selector computed =>
          exact Bool.eq_false_iff.mpr fun computed => byName inner holder selector (by rw [← computed]; rfl)
      | _ => rfl
    refine ((faithful.node "right" (by simp [visited])).bind fun right _ => judges_pure ?_).of_iff ?_
    · exact Node.renders_of_kind kinded rfl rfl rfl rfl
    · simp [isNamed]

theorem call (kinded : tree.kind? = some .callExpression) (place : Place) :
    JudgesNode (do return Node.call place (← item.node "callee") (← item.nodes "arguments")) tree := by
  have visited : tree.visited = tree.field "callee" :: (tree.field "arguments").items := by
    simpa [Kind.parts, Kind.several] using Tree.visited_of_kind kinded (by decide)
  have several := faithful.several kinded (show "arguments" ∈ Kind.callExpression.several by decide)
  unfold JudgesNode
  rw [Tree.accepted_of_kind kinded, visited]
  refine ((faithful.node "callee" (by simp [visited])).bind fun callee _ =>
    (faithful.nodes "arguments" _ several fun child member => by simp [visited, member]).bind
      fun arguments _ => judges_pure ?_).of_iff ?_
  · exact Node.renders_of_kind kinded rfl rfl rfl rfl
  · simp [Tree.isModelled]

theorem member (kinded : tree.kind? = some .memberExpression) :
    JudgesNode (member item) tree := by
  have renders (place : Place) (holder selector : Node) :
      (Node.member place holder selector (tree.field "computed").truthy).Renders tree :=
    Node.renders_of_kind kinded rfl rfl rfl rfl
  have dotted : tree.isDotted =
      (!(tree.field "computed").truthy && (tree.field "property").kind.isText "Identifier") := by
    simp [Tree.isDotted, kinded]
  have modelled : tree.isModelled .memberExpression = true := rfl
  unfold JudgesNode
  rw [Tree.accepted_of_kind kinded, modelled]
  refine (judges_place item).after fun place => ?_
  rw [faithful.isSet, Item.field, faithful.raw]
  dsimp only
  rw [← dotted]
  cases isDotted : tree.isDotted with
  | true =>
      have visited : tree.visited = [tree.field "object"] := by
        simp [Tree.visited, kinded, Tree.parts, isDotted, Kind.several]
      refine ((faithful.node "object" (by simp [visited])).bind fun holder _ =>
        judges_fresh.after fun id => judges_pure ?_).of_iff ?_
      · exact renders place holder _
      · simp [visited]
  | false =>
      have visited : tree.visited = [tree.field "object", tree.field "property"] := by
        simp [Tree.visited, kinded, Tree.parts, isDotted, Kind.parts, Kind.several]
      refine ((faithful.node "object" (by simp [visited])).bind fun holder _ =>
        (faithful.node "property" (by simp [visited])).bind fun selector _ => judges_pure ?_).of_iff ?_
      · exact renders place holder selector
      · simp [visited]

theorem property (kinded : tree.kind? = some .property) :
    JudgesNode (property item) tree := by
  have visited : tree.visited = [tree.field "value"] := Tree.visited_of_kind kinded (by decide)
  unfold JudgesNode
  rw [Tree.accepted_of_kind kinded, Tree.isModelled, visited]
  refine (judges_place item).after fun place => ?_
  dsimp only
  rw [faithful.isSet, faithful.isSet, Item.field, faithful.raw]
  refine (Judges.unless _ ((judges_propertyKey _).bind fun key _ =>
    (faithful.node "value" (by simp [visited])).bind fun value _ => judges_pure ?_)).of_iff ?_
  · exact Node.renders_of_kind kinded rfl rfl rfl rfl
  · simp [Tree.isPlainProperty, and_assoc]

/-- Reading a tree of some kind accepts exactly the supported trees of that kind. -/
theorem ofKind (kinded : tree.kind? = some kind) :
    JudgesNode (ofKind item kind) tree := by
  have visited := Tree.visited_of_kind kinded
  cases kind with
  | program =>
      refine (judges_place item).after fun place => ?_
      refine faithful.many kinded "body" (by decide) (visited (by decide)) rfl ?_
      intro parts renders
      have several := faithful.several kinded (show "body" ∈ Kind.program.several by decide)
      have present := Tree.present_of_isRegularList several (by decide)
      exact Node.renders_of_kind kinded rfl (Node.allLinkable_of_renders renders present) rfl rfl
  | blockStatement => exact faithful.block kinded
  | emptyStatement | identifier =>
      refine (judges_place item).after fun place => (judges_pure ?_).of_iff ?_
      · exact Node.renders_of_kind kinded rfl rfl rfl rfl
      · rw [Tree.accepted_of_kind kinded, visited (by decide)]
        simp [Kind.parts, Tree.isModelled]
  | expressionStatement =>
      refine (judges_place item).after fun place => ?_
      exact faithful.one kinded "expression" (visited (by decide)) rfl fun _ =>
        Node.renders_of_kind kinded rfl rfl rfl rfl
  | variableDeclaration =>
      refine (judges_place item).after fun place => ?_
      exact faithful.many kinded "declarations" (by decide) (visited (by decide)) rfl
        fun _ _ => Node.renders_of_kind kinded rfl rfl rfl rfl
  | variableDeclarator => exact faithful.declarator kinded
  | functionDeclaration => exact faithful.functionDeclaration kinded
  | functionExpression => exact faithful.functionExpression kinded
  | returnStatement | throwStatement | unaryExpression =>
      refine (judges_place item).after fun place => ?_
      exact faithful.one kinded "argument" (visited (by decide)) rfl fun _ =>
        Node.renders_of_kind kinded rfl rfl rfl rfl
  | ifStatement => exact (judges_place item).after (faithful.ifStatement kinded)
  | whileStatement =>
      refine (judges_place item).after fun place => ?_
      refine faithful.two kinded "test" "body" (visited (by decide)) rfl fun _ body _ renders => ?_
      have present : (tree.field "body").isNull = false := by
        simpa [Tree.isComplete] using faithful.complete kinded
      exact Node.renders_of_kind kinded rfl (renders.linkable present) rfl rfl
  | tryStatement => exact faithful.tryStatement kinded
  | catchClause => exact faithful.catchClause kinded
  | literal => exact faithful.literal kinded
  | binaryExpression | logicalExpression =>
      refine (judges_place item).after fun place => ?_
      exact faithful.two kinded "left" "right" (visited (by decide)) rfl fun _ _ _ _ =>
        Node.renders_of_kind kinded rfl rfl rfl rfl
  | assignmentExpression => exact faithful.assignment kinded
  | callExpression => exact (judges_place item).after (faithful.call kinded)
  | memberExpression => exact faithful.member kinded
  | objectExpression =>
      refine (judges_place item).after fun place => ?_
      exact faithful.many kinded "properties" (by decide) (visited (by decide)) rfl
        fun _ _ => Node.renders_of_kind kinded rfl rfl rfl rfl
  | property => exact faithful.property kinded
  | arrayExpression =>
      refine (judges_place item).after fun place => ?_
      exact faithful.many kinded "elements" (by decide) (visited (by decide)) rfl
        fun _ _ => Node.renders_of_kind kinded rfl rfl rfl rfl
  | scopeExit | handlerExit => exact absurd (Tree.kind?_eq_some.mp kinded).1 (by decide)

end Item.Faithful

end Reader

namespace Tree

open Reader

/-- A tree without a kind that can be read is refused, provided that its kind is a text if there is one. -/
theorem judges_read_of_none {tree : Tree} (regular : tree.isRegular = true) (present : tree.isNull = false)
    (unread : tree.kind? = none) : JudgesNode tree.read tree := by
  have rejected : ¬tree.Accepted := by
    rw [accepted_iff, isSupported, unread, present]
    exact fun accepted => Bool.noConfusion accepted.1
  cases tree with
  | null => cases present
  | record shape fields =>
      rw [Tree.read, Reader.record]
      unfold isRegular at regular
      unfold kind? at unread
      generalize (Tree.record shape fields).kind = kind at regular unread ⊢
      cases kind with
      | text shown =>
          dsimp only at unread ⊢
          rw [unread]
          exact judges_refuse _ rejected
      | null => exact judges_refuse _ rejected
      | _ => cases regular
  | _ => exact judges_refuse _ rejected

/-- Reading judges a regular tree: by induction on its size, since everything that is visited is smaller. -/
theorem judges_read {tree : Tree} (regular : tree.Regular) :
    JudgesNode tree.read tree := by
  -- No recursion on the tree itself fits, since what is visited is reached through fields and lists.
  have judged : ∀ child ∈ tree.visited, JudgesNode child.read child :=
    fun child member =>
      have _smaller := sizeOf_visited member
      judges_read (regular.child member)
  cases kinded : tree.kind? with
  | none =>
      cases missing : tree.isNull with
      | true =>
          cases tree with
          | null =>
              refine (judges_pure Node.renders_absent).of_iff ?_
              rw [accepted_iff]
              simp [isSupported, visited, kinded, missing]
          | _ => cases missing
      | false => exact judges_read_of_none (regular tree .self) missing kinded
  | some kind =>
      obtain ⟨readable, isKind⟩ := kind?_eq_some.mp kinded
      obtain ⟨item, read, raw, node, nodes⟩ := exists_read_eq readable isKind
      rw [read]
      exact Item.Faithful.ofKind ⟨raw, regular tree .self, node, nodes, judged⟩ kinded
termination_by sizeOf tree

/-- A regular tree is read or refused as unsupported, and it is read exactly if the subset models every
position that reading visits. -/
theorem reads_iff_accepted {tree : Tree} (regular : tree.Regular) (count : Nat) :
    ((∃ node next, tree.read count = .ok node next) ∨
      ∃ cause next, tree.read count = .error (.unsupported cause) next) ∧
    ((∃ node next, tree.read count = .ok node next) ↔ tree.Accepted) := by
  have judged := judges_read regular count
  unfold Ends at judged
  cases ended : tree.read count with
  | ok node next =>
      rw [ended] at judged
      exact ⟨.inl ⟨node, next, rfl⟩, fun _ => judged.2, fun _ => ⟨node, next, rfl⟩⟩
  | error fault next =>
      rw [ended] at judged
      obtain ⟨⟨cause, rfl⟩, rejected⟩ := judged
      exact ⟨.inr ⟨cause, next, rfl⟩, nofun, fun accepted => absurd accepted rejected⟩

end Tree

/-- A value deep inside an array with an empty place, in a clause, in a function expression. -/
def Sample.shelter (value : Tree) : Tree :=
  let array := node "ArrayExpression" [("elements", .list [.null, object [("k", value)]])]
  let clause := node "CatchClause" [("param", name "e"), ("body", block [assign "o" "k" array])]
  let guarded := node "TryStatement" [("block", block []), ("handlers", .list [clause]), ("finalizer", .null)]
  program [declare "f" (node "FunctionExpression" [("params", .list [name "a"]), ("body", block [guarded])])]

/-- A text is read wherever it stands, and a regular expression is refused there. -/
theorem Tree.reads_iff_accepted_of_shelter :
    (∃ node next, (Sample.shelter (Sample.literal "one")).read 3 = .ok node next) ∧
      ∃ cause next, (Sample.shelter (Sample.node "Literal" [("regex", .text "one")])).read 3 =
        .error (.unsupported cause) next := by
  have plain : (Sample.shelter (Sample.literal "one")).Regular :=
    Tree.check_of_checks (show Tree.checks Tree.isRegular 20 _ = true by decide +kernel)
  have expression : (Sample.shelter (Sample.node "Literal" [("regex", .text "one")])).Regular :=
    Tree.check_of_checks (show Tree.checks Tree.isRegular 20 _ = true by decide +kernel)
  have accepted : (Sample.shelter (Sample.literal "one")).Accepted :=
    Tree.check_of_checks (show Tree.checks Tree.isSupported 20 _ = true by decide +kernel)
  refine ⟨(Tree.reads_iff_accepted plain 3).2.mpr accepted, ?_⟩
  refine (Tree.reads_iff_accepted expression 3).1.resolve_left ?_
  rintro ⟨node, next, reads⟩
  have refused : Ends (Sample.shelter (Sample.node "Literal" [("regex", .text "one")])).read 3
      (fun _ _ => False) (fun _ _ => True) := by decide +kernel
  exact refused.of_ok reads

end ScriptMachine
