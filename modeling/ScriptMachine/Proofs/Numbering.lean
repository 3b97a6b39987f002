/-
This file looks at what reading makes of a tree, and at the numbers that it gives to nodes. Main statements:
the nodes of a tree that was read are numbered one after the other in the order in which they were met, and
their ranges are ranges of the tree. A block owns an exit point exactly when it has statements, and members
are assigned to by their names.
-/

import ScriptMachine.Proofs.Reading

namespace ScriptMachine

/-- A block with statements has an exit for them to flow into. -/
def Node.ownsExit : Node → Bool
  | .block _ body exit => exit.isSome == !body.isEmpty
  | _ => true

def Node.OwnsExits (root : Node) : Prop := ∀ node, root.Within node → node.ownsExit = true

/-- A member that is assigned to is not selected by a value. -/
def Node.assignsByName : Node → Bool
  | .assignment _ _ (.member _ _ _ computed) _ => !computed
  | _ => true

/-- What reading sees to at every node. -/
def Node.isWellRead (node : Node) : Bool := node.ownsExit && (node.assignsByName && node.linksFunction)

def Node.WellRead (root : Node) : Prop := root.Every Node.isWellRead

/-- An exit point has a number and no range. -/
def Place.ofExit (id : Nat) : Place := ⟨id, .null⟩

mutual
/-- The places of a node and of everything within it, in the order in which they are read. -/
def Node.places : Node → List Place
  | .absent => []
  | .scopeExit id | .handlerExit id => [.ofExit id]
  | .identifier ident => [ident.place]
  | .emptyStatement place | .literal place _ => [place]
  | .program place parts | .declaration place parts _ | .object place parts | .array place parts =>
      place :: Node.allPlaces parts
  | .block place parts exit => place :: (Node.allPlaces parts ++ exit.toList.map Place.ofExit)
  | .expressionStatement place part | .returnStatement place part | .throwStatement place part
  | .unary place _ part | .property place _ part => place :: part.places
  | .declarator place target part | .catchClause place target part =>
      place :: target.place :: part.places
  | .functionDeclaration place name params body | .functionExpression place name params body =>
      place :: (name.places ++ (params.map Ident.place ++ body.places))
  | .whileStatement place first second | .binary place _ first second | .logical place _ first second
  | .assignment place _ first second | .member place first second _ =>
      place :: (first.places ++ second.places)
  | .ifStatement place test consequent alternate =>
      place :: (test.places ++ (consequent.places ++ alternate.places))
  | .tryStatement place guarded handler others exit =>
      place :: (guarded.places ++ (handler.places ++ (Node.allPlaces others ++ [.ofExit exit])))
  | .call place callee arguments => place :: (callee.places ++ Node.allPlaces arguments)

def Node.allPlaces : List Node → List Place
  | [] => []
  | part :: rest => part.places ++ Node.allPlaces rest
end

/-- The numbers of a node and of everything within it. -/
def Node.ids (node : Node) : List Int := node.places.map Place.id

theorem Node.allPlaces_append (first second : List Node) :
    Node.allPlaces (first ++ second) = Node.allPlaces first ++ Node.allPlaces second := by
  induction first with
  | nil => rfl
  | cons part rest ih =>
      simp only [List.cons_append, Node.allPlaces, ih, List.append_assoc]

theorem Node.places_sublist_allPlaces {part : Node} {parts : List Node} (member : part ∈ parts) :
    part.places.Sublist (Node.allPlaces parts) := by
  obtain ⟨before, after, rfl⟩ := List.append_of_mem member
  rw [Node.allPlaces_append, Node.allPlaces]
  exact (List.sublist_append_left _ _).trans (List.sublist_append_right _ _)

/-- The parts of a node are read one after the other, after the node itself. -/
theorem Node.allPlaces_sublist (node : Node) :
    (Node.allPlaces node.parts).Sublist node.places := by
  cases node <;> simp [Node.parts, Node.places, Node.allPlaces]

theorem Node.place_cons_sublist {node : Node} (present : node.isAbsent = false) :
    (node.place :: Node.allPlaces node.parts).Sublist node.places := by
  cases node <;> simp_all [Node.isAbsent, Node.parts, Node.place, Node.places, Node.allPlaces, Place.ofExit]

theorem Node.Within.places {root node : Node} (within : root.Within node) :
    node.places.Sublist root.places := by
  induction within with
  | self => exact .refl _
  | @part middle part _ member ih =>
      have inside := (Node.places_sublist_allPlaces member).trans (Node.allPlaces_sublist middle)
      exact inside.trans ih

theorem Node.place_mem_places {node : Node} (present : node.isAbsent = false) :
    node.place ∈ node.places := by
  cases node <;> simp_all [Node.isAbsent, Node.place, Node.places, Place.ofExit]

mutual
/-- Everything that some record of a tree holds as a range. -/
def Tree.ranges : Tree → List Tree
  | .list items => Tree.itemRanges items
  | .record _ fields => Tree.fieldRanges fields
  | _ => []

def Tree.itemRanges : List Tree → List Tree
  | [] => []
  | item :: rest => item.ranges ++ Tree.itemRanges rest

def Tree.fieldRanges : List (String × Tree) → List Tree
  | [] => []
  | (name, value) :: rest =>
      (if name == "range" then [value] else []) ++ (value.ranges ++ Tree.fieldRanges rest)
end

section

variable {fields : List (String × Tree)} {name : String} {value : Tree}

theorem Tree.ranges_of_lookup (found : fields.lookup name = some value) :
    value.ranges ⊆ Tree.fieldRanges fields := by
  induction fields with
  | nil => cases found
  | cons field rest ih =>
      obtain ⟨key, held⟩ := field
      intro range member
      rw [List.lookup_cons] at found
      simp only [Tree.fieldRanges, List.mem_append]
      cases same : name == key with
      | true =>
          rw [same] at found
          cases found
          exact .inr (.inl member)
      | false =>
          rw [same] at found
          exact .inr (.inr (ih found member))

theorem Tree.mem_fieldRanges (found : fields.lookup "range" = some value) :
    value ∈ Tree.fieldRanges fields := by
  induction fields with
  | nil => cases found
  | cons field rest ih =>
      obtain ⟨key, held⟩ := field
      rw [List.lookup_cons] at found
      simp only [Tree.fieldRanges, List.mem_append]
      cases same : "range" == key with
      | true =>
          rw [same] at found
          cases found
          obtain rfl := eq_of_beq same
          exact .inl List.mem_cons_self
      | false =>
          rw [same] at found
          exact .inr (.inr (ih found))

end

/-- What a record is asked for is missing, or it is what the record holds. -/
theorem Tree.field_record (shape : Shape) (fields : List (String × Tree)) (name : String) :
    (Tree.record shape fields).field name = .null ∨
      fields.lookup name = some ((Tree.record shape fields).field name) := by
  simp only [Tree.field, Tree.fieldOr, Tree.field?, Shape.find?]
  split
  · exact .inl rfl
  · cases found : fields.lookup name with
    | none => exact .inl rfl
    | some value => exact .inr rfl

theorem Tree.ranges_wholePart (value : Int) (name : String) :
    ((Tree.wholePart? value name).getD .null).ranges = [] := by
  unfold Tree.wholePart?
  split <;> rfl

theorem Tree.ranges_doublePart (value : Float) (name : String) :
    ((Tree.doublePart? value name).getD .null).ranges = [] := by
  unfold Tree.doublePart?
  split <;> rfl

/-- The ranges below a field are ranges of the tree. -/
theorem Tree.ranges_field (tree : Tree) (name : String) : (tree.field name).ranges ⊆ tree.ranges := by
  cases tree with
  | record shape fields =>
      rcases Tree.field_record shape fields name with missing | found
      · rw [missing]
        exact List.nil_subset _
      · rw [Tree.ranges]
        exact Tree.ranges_of_lookup found
  | bool value => exact List.subset_nil.mpr (Tree.ranges_wholePart _ name)
  | int value => exact List.subset_nil.mpr (Tree.ranges_wholePart _ name)
  | float value => exact List.subset_nil.mpr (Tree.ranges_doublePart _ name)
  | null | text | list => exact List.nil_subset _

theorem Tree.field_range (tree : Tree) :
    tree.field "range" = .null ∨ tree.field "range" ∈ tree.ranges := by
  cases tree with
  | record shape fields =>
      refine (Tree.field_record shape fields "range").imp_right fun found => ?_
      rw [Tree.ranges]
      exact Tree.mem_fieldRanges found
  | _ => exact .inl rfl

/-- Places that are numbered one after the other, up to the number that comes next. Their ranges are
missing or among the given ones. -/
structure Numbered (ranges : List Tree) (start : Nat) (places : List Place) (next : Nat) : Prop where
  ids : places.map Place.id = (List.range' start places.length).map fun (id : Nat) => (id : Int)
  next : next = start + places.length
  ranges : ∀ place ∈ places, place.range = .null ∨ place.range ∈ ranges

namespace Numbered

variable {ranges : List Tree} {start next : Nat} {places : List Place}

theorem nil (ranges : List Tree) (start : Nat) : Numbered ranges start [] start :=
  ⟨rfl, rfl, by simp⟩

theorem push (numbered : Numbered ranges start places next) {range : Tree}
    (held : range = .null ∨ range ∈ ranges) :
    Numbered ranges start (places ++ [⟨next, range⟩]) (next + 1) := by
  refine ⟨?_, ?_, ?_⟩
  · simp [numbered.ids, numbered.next, List.range'_concat]
  · rw [List.length_append, List.length_singleton, numbered.next]
    omega
  · intro place member
    rcases List.mem_append.mp member with earlier | last
    · exact numbered.ranges place earlier
    · rw [List.mem_singleton.mp last]
      exact held

theorem pairwise (numbered : Numbered ranges start places next) :
    (places.map Place.id).Pairwise (· < ·) := by
  rw [numbered.ids, List.pairwise_map]
  refine (List.pairwise_lt_range' (s := start)).imp ?_
  intro first second less
  omega

end Numbered

namespace Reader

/-- A reader numbers what it reads behind the places that were numbered before, and gives what is good. -/
def Counts {A : Type} (ranges : List Tree) (start : Nat) (before : List Place) (reader : Reader A)
    (places : A → List Place) (good : A → Prop) : Prop :=
  ∀ count, Numbered ranges start before count →
    Ends reader count (fun result next => Numbered ranges start (places result) next ∧ good result)
      fun _ _ => True

/-- A reader numbers a node and everything within it, and the node is well read. -/
def CountsNode (ranges : List Tree) (start : Nat) (reader : Reader Node) : Prop :=
  ∀ before, Counts ranges start before reader (fun node => before ++ node.places) Node.WellRead

/-- A reader numbers nodes one after the other, and they are well read. -/
def CountsNodes (ranges : List Tree) (start : Nat) (reader : Reader (List Node)) : Prop :=
  ∀ before, Counts ranges start before reader (fun nodes => before ++ Node.allPlaces nodes)
    fun nodes => ∀ node ∈ nodes, node.WellRead

section

variable {A B : Type} {ranges : List Tree} {start : Nat} {before : List Place} {places : A → List Place}
  {good : A → Prop}

theorem counts_pure {result : A} (same : places result = before) (holds : good result) :
    Counts ranges start before (pure result) places good := by
  intro count numbered
  rw [ends_pure, same]
  exact ⟨numbered, holds⟩

/-- A node is well read if it is so itself and its parts are. -/
theorem counts_node {now : List Place} {node : Node} (same : before ++ node.places = now)
    (own : node.isWellRead = true) (parts : ∀ part ∈ node.parts, part.WellRead) :
    Counts ranges start now (pure node) (fun node => before ++ node.places) Node.WellRead :=
  counts_pure same (Node.every_iff.mpr ⟨own, parts⟩)

theorem counts_throw (fault : Fault) : Counts ranges start before (throw fault) places good :=
  fun _ _ => trivial

theorem counts_refuse (cause : Unsupported) : Counts ranges start before (refuse cause) places good :=
  fun _ _ => trivial

/-- Two readings in sequence place one after the other. -/
theorem Counts.bind {first : Reader B} {second : B → Reader A} {middle : B → List Place} {fair : B → Prop}
    (counts : Counts ranges start before first middle fair)
    (onward : ∀ result, fair result → Counts ranges start (middle result) (second result) places good) :
    Counts ranges start before (first >>= second) places good := by
  intro count numbered
  rw [ends_bind]
  exact (counts count numbered).weaken (fun result next holds => onward result holds.2 next holds.1)
    fun _ _ _ => trivial

/-- A check that counts nothing. -/
theorem counts_unless {refuses : Bool} {cause : Unsupported} {second : Reader A}
    (onward : Counts ranges start before second places good) :
    Counts ranges start before (do
      if refuses then refuse cause
      second) places good := by
  cases refuses with
  | false => exact onward
  | true => exact fun _ _ => trivial

/-- Reading a place takes one number. -/
theorem counts_place {range : Tree} (held : range = .null ∨ range ∈ ranges) :
    Counts ranges start before (do return (⟨← fresh, range⟩ : Place)) (fun place => before ++ [place])
      fun _ => True :=
  fun _ numbered => ⟨numbered.push held, trivial⟩

theorem counts_exit : Counts ranges start before fresh (fun id => before ++ [.ofExit id]) fun _ => True :=
  fun _ numbered => ⟨numbered.push (.inl rfl), trivial⟩

end

/-- The fields of an item are numbered as they are read. -/
structure Item.Counted (ranges : List Tree) (start : Nat) (item : Item) : Prop where
  node : ∀ name, CountsNode ranges start (item.node name)
  nodes : ∀ name, CountsNodes ranges start (item.nodes name)
  ranges : item.raw.ranges ⊆ ranges

namespace Item.Counted

variable {ranges : List Tree} {start : Nat} {item : Item} (counted : item.Counted ranges start)
include counted

theorem place (before : List Place) :
    Counts ranges start before item.place (fun place => before ++ [place]) fun _ => True :=
  counts_place (item.raw.field_range.imp_right fun member => counted.ranges member)

/-- A node that is made of its place and one part. -/
theorem one (name : String) {make : Place → Node → Node}
    (made : ∀ place part, (make place part).places = place :: part.places ∧
      (make place part).isWellRead = true ∧ (make place part).parts = [part]) :
    CountsNode ranges start (do return make (← item.place) (← item.node name)) := by
  refine fun before => (counted.place before).bind fun place _ =>
    (counted.node name _).bind fun part holds => ?_
  obtain ⟨places, own, parts⟩ := made place part
  exact counts_node (by simp [places]) own (by simpa [parts] using holds)

/-- A node that is made of its place and several parts in a row. -/
theorem many (name : String) {make : Place → List Node → Node}
    (made : ∀ place parts, (make place parts).places = place :: Node.allPlaces parts ∧
      (make place parts).isWellRead = true ∧ (make place parts).parts = parts) :
    CountsNode ranges start (do return make (← item.place) (← item.nodes name)) := by
  refine fun before => (counted.place before).bind fun place _ =>
    (counted.nodes name _).bind fun inner holds => ?_
  obtain ⟨places, own, parts⟩ := made place inner
  exact counts_node (by simp [places]) own (by simpa [parts] using holds)

/-- A node that is made of its place and two parts. -/
theorem two (first second : String) {make : Place → Node → Node → Node}
    (made : ∀ place left right, (make place left right).places = place :: (left.places ++ right.places) ∧
      (make place left right).isWellRead = true ∧ (make place left right).parts = [left, right]) :
    CountsNode ranges start
      (do return make (← item.place) (← item.node first) (← item.node second)) := by
  refine fun before => (counted.place before).bind fun place _ => ?_
  refine (counted.node first _).bind fun left leftHolds =>
    (counted.node second _).bind fun right rightHolds => ?_
  obtain ⟨places, own, parts⟩ := made place left right
  exact counts_node (by simp [places]) own (by simp [parts, leftHolds, rightHolds])

/-- A block is numbered before its statements, and its exit behind them. -/
theorem block : CountsNode ranges start (block item) := by
  refine fun before => (counted.place before).bind fun place _ =>
    (counted.nodes "body" _).bind fun body holds => ?_
  cases body with
  | nil => exact counts_node (by simp [Node.places]) rfl holds
  | cons first rest =>
      have exits : ∀ {before}, Counts ranges start before (some <$> fresh)
          (fun exit => before ++ exit.toList.map Place.ofExit) fun exit => exit.isSome = true :=
        fun _ numbered => ⟨numbered.push (.inl rfl), rfl⟩
      refine exits.bind fun exit owned => counts_node (by simp [Node.places]) ?_ holds
      simp [Node.isWellRead, Node.ownsExit, Node.assignsByName, Node.linksFunction, owned]

theorem declarator : CountsNode ranges start (declarator item) := by
  refine fun before => (counted.place before).bind fun place _ => (counted.node "id" _).bind fun target _ => ?_
  cases target with
  | identifier target =>
      exact (counted.node "init" _).bind fun init holds =>
        counts_node (by simp [Node.places]) rfl (by simpa [Node.parts] using holds)
  | absent => exact counts_throw _
  | _ => exact counts_refuse _

/-- Parameters are numbered one after the other. -/
theorem params (before : List Place) :
    Counts ranges start before (params item) (fun params => before ++ params.map Ident.place)
      fun _ => True := by
  have idents : ∀ (nodes : List Node) (before : List Place),
      Counts ranges start (before ++ Node.allPlaces nodes) (identifiers nodes)
        (fun params => before ++ params.map Ident.place) fun _ => True := by
    intro nodes
    induction nodes with
    | nil => exact fun before => counts_pure rfl trivial
    | cons node rest ih =>
        intro before
        cases node with
        | identifier ident =>
            have others := ih (before ++ [ident.place])
            simp only [List.append_assoc, List.singleton_append] at others
            exact others.bind fun params _ => counts_pure (by simp) trivial
        | absent => exact counts_throw _
        | _ => exact counts_refuse _
  exact (counted.nodes "params" before).bind fun nodes _ => idents nodes before

omit counted in
/-- A check for generators counts nothing. -/
theorem plainFunction {second : Reader Node} (onward : CountsNode ranges start second) :
    CountsNode ranges start (do plainFunction item; second) := by
  unfold Reader.plainFunction
  intro before
  cases item.isSet "generator" with
  | true => exact fun _ _ => trivial
  | false =>
      cases item.isSet "async" with
      | true => exact fun _ _ => trivial
      | false => exact onward before

theorem functionDeclaration : CountsNode ranges start (functionDeclaration item) := by
  refine plainFunction fun before => (counted.place before).bind fun place _ => ?_
  refine (counted.node "id" _).bind fun name named => (counted.params _).bind fun params _ => ?_
  exact (counted.node "body" _).bind fun body holds =>
    counts_node (by simp [Node.places]) rfl (by simp [Node.parts, named, holds])

theorem functionExpression : CountsNode ranges start (functionExpression item) := by
  refine plainFunction fun before => (counted.place before).bind fun place _ => ?_
  refine (counted.node "id" _).bind fun name named => (counted.params _).bind fun params _ => ?_
  refine (counted.node "body" _).bind fun body holds => ?_
  rw [link_eq]
  cases linkable : body.linkable with
  | false => exact counts_throw _
  | true => exact counts_node (by simp [Node.places]) linkable (by simp [Node.parts, named, holds])

/-- Clauses are numbered one after the other. -/
theorem handlers : CountsNodes ranges start (handlers item) := by
  intro before
  unfold Reader.handlers
  split
  · exact counted.nodes "handlers" before
  · split
    · exact counts_pure (by simp [Node.allPlaces]) (by simp)
    · exact (counted.node "handler" before).bind fun handler holds =>
        counts_pure (by simp [Node.allPlaces]) (by simpa using holds)

/-- The exit of a protected block is numbered behind all of its clauses. -/
theorem tryStatement : CountsNode ranges start (tryStatement item) := by
  refine fun before => (counted.place before).bind fun place _ => counts_unless ?_
  refine (counted.node "block" _).bind fun guarded sound => (counted.handlers _).bind fun handlers holds => ?_
  cases handlers with
  | nil => exact counts_refuse _
  | cons handler others =>
      exact counts_exit.bind fun exit _ => counts_node (by simp [Node.places, Node.allPlaces]) rfl
        (by simpa [Node.parts, sound] using holds)

theorem catchClause : CountsNode ranges start (catchClause item) := by
  refine fun before => (counted.place before).bind fun place _ =>
    (counted.node "param" _).bind fun param _ => ?_
  cases param with
  | identifier param =>
      exact (counted.node "body" _).bind fun body holds =>
        counts_node (by simp [Node.places]) rfl (by simpa [Node.parts] using holds)
  | _ => exact counts_refuse _

theorem literal : CountsNode ranges start (literal item) :=
  fun before => counts_unless ((counted.place before).bind fun place _ =>
    counts_node (by simp [Node.places]) rfl (by simp [Node.parts]))

/-- Members are not assigned to by the value of an expression. -/
theorem assignment : CountsNode ranges start (assignment item) := by
  refine fun before => (counted.place before).bind fun place _ =>
    (counted.node "left" _).bind fun left sound => ?_
  have whole (byName : ∀ place holder selector, left ≠ .member place holder selector true) :
      Counts ranges start (before ++ [place] ++ left.places)
        (do return Node.assignment place (.ofTree (item.field "operator")) left (← item.node "right"))
        (fun node => before ++ node.places) Node.WellRead := by
    refine (counted.node "right" _).bind fun right holds =>
      counts_node (by simp [Node.places]) ?_ (by simp [Node.parts, sound, holds])
    cases left with
    | member inner holder selector computed =>
        cases computed with
        | false => rfl
        | true => exact absurd rfl (byName inner holder selector)
    | _ => rfl
  dsimp only
  split
  · exact fun _ _ => trivial
  · rename_i byName
    exact whole fun inner holder selector same => byName inner holder selector same

/-- The name after a dot is numbered like an expression. -/
theorem member : CountsNode ranges start (member item) := by
  have selected : (item.field "property").field "range" = .null ∨
      (item.field "property").field "range" ∈ ranges :=
    (item.field "property").field_range.imp_right fun member =>
      counted.ranges (item.raw.ranges_field "property" member)
  refine fun before => (counted.place before).bind fun place _ =>
    (counted.node "object" _).bind fun holder sound => ?_
  dsimp only
  split
  · have leaf : ∀ place value, (Node.literal place value).WellRead :=
      fun _ _ => Node.every_iff.mpr ⟨rfl, by simp [Node.parts]⟩
    intro count numbered
    have pushed := numbered.push selected
    simp only [List.append_assoc, List.cons_append] at pushed
    exact ⟨pushed, Node.every_iff.mpr ⟨rfl, by simpa [Node.parts] using ⟨sound, leaf _ _⟩⟩⟩
  · exact (counted.node "property" _).bind fun selector holds =>
      counts_node (by simp [Node.places]) rfl (by simp [Node.parts, sound, holds])

theorem property : CountsNode ranges start (property item) := by
  have keyed : ∀ before, Counts ranges start before (propertyKey (item.field "key"))
      (fun _ => before) fun _ => True := by
    intro before
    unfold propertyKey
    split
    · exact counts_pure rfl trivial
    · split
      · exact counts_pure rfl trivial
      · exact counts_refuse _
  refine fun before => (counted.place before).bind fun place _ => counts_unless ?_
  exact (keyed _).bind fun key _ => (counted.node "value" _).bind fun value holds =>
    counts_node (by simp [Node.places]) rfl (by simpa [Node.parts] using holds)

/-- A node of every kind is numbered, and well read. -/
theorem ofKind (kind : Kind) : CountsNode ranges start (ofKind item kind) := by
  cases kind with
  | program => exact counted.many "body" fun _ _ => ⟨rfl, rfl, rfl⟩
  | blockStatement => exact counted.block
  | emptyStatement | identifier =>
      exact fun before => (counted.place before).bind fun place _ =>
        counts_node (by simp [Node.places]) rfl (by simp [Node.parts])
  | expressionStatement => exact counted.one "expression" fun _ _ => ⟨rfl, rfl, rfl⟩
  | variableDeclaration => exact counted.many "declarations" fun _ _ => ⟨rfl, rfl, rfl⟩
  | variableDeclarator => exact counted.declarator
  | functionDeclaration => exact counted.functionDeclaration
  | functionExpression => exact counted.functionExpression
  | returnStatement | throwStatement | unaryExpression =>
      exact counted.one "argument" fun _ _ => ⟨rfl, rfl, rfl⟩
  | ifStatement =>
      refine fun before => (counted.place before).bind fun place _ => ?_
      refine (counted.node "test" _).bind fun test testHolds => ?_
      refine (counted.node "consequent" _).bind fun consequent firstHolds => ?_
      exact (counted.node "alternate" _).bind fun alternate secondHolds =>
        counts_node (by simp [Node.places]) rfl (by simp [Node.parts, testHolds, firstHolds, secondHolds])
  | whileStatement => exact counted.two "test" "body" fun _ _ _ => ⟨rfl, rfl, rfl⟩
  | tryStatement => exact counted.tryStatement
  | catchClause => exact counted.catchClause
  | literal => exact counted.literal
  | binaryExpression | logicalExpression =>
      exact counted.two "left" "right" fun _ _ _ => ⟨rfl, rfl, rfl⟩
  | assignmentExpression => exact counted.assignment
  | callExpression =>
      refine fun before => (counted.place before).bind fun place _ => ?_
      refine (counted.node "callee" _).bind fun callee sound => ?_
      exact (counted.nodes "arguments" _).bind fun arguments holds =>
        counts_node (by simp [Node.places]) rfl (by simpa [Node.parts, sound] using holds)
  | memberExpression => exact counted.member
  | objectExpression => exact counted.many "properties" fun _ _ => ⟨rfl, rfl, rfl⟩
  | property => exact counted.property
  | arrayExpression => exact counted.many "elements" fun _ _ => ⟨rfl, rfl, rfl⟩
  | scopeExit | handlerExit => exact fun _ => counts_refuse _

/-- A record is numbered, and well read. -/
theorem record : CountsNode ranges start (record item) := by
  intro before
  unfold Reader.record
  split
  · split
    · exact counted.ofKind _ before
    · exact counts_refuse _
  · exact counts_throw _
  · exact counts_throw _
  · exact counts_refuse _

end Item.Counted

end Reader

open Reader in
/-- Whatever a tree holds, reading it goes on with the numbers and keeps to its ranges, and what is read is
well read. -/
theorem Tree.read_counts (start : Nat) :
    (∀ (tree : Tree) (ranges : List Tree), tree.ranges ⊆ ranges → CountsNode ranges start tree.read) ∧
    (∀ (fields : List (String × Tree)) (ranges : List Tree), Tree.fieldRanges fields ⊆ ranges →
      ∀ name part, (Tree.readFields fields).lookup name = some part →
        CountsNode ranges start part.node ∧ CountsNodes ranges start part.nodes) ∧
    (∀ (tree : Tree) (ranges : List Tree), tree.ranges ⊆ ranges → CountsNodes ranges start tree.readAll) ∧
    (∀ (items : List Tree) (ranges : List Tree), Tree.itemRanges items ⊆ ranges →
      CountsNodes ranges start (Tree.readItems items)) := by
  have none : ∀ {ranges : List Tree}, CountsNodes ranges start (pure []) :=
    fun before => counts_pure (by simp [Node.allPlaces]) (by simp)
  have absent : ∀ {ranges : List Tree}, CountsNode ranges start (pure Node.absent) :=
    fun before => counts_node (by simp [Node.places]) rfl (by simp [Node.parts])
  apply Tree.read.mutual_induct
  case case1 => exact fun _ _ => absent
  case case2 =>
    intro shape fields inner ranges inside
    rw [Tree.ranges] at inside
    rw [Tree.read]
    refine Item.Counted.record ⟨fun name => ?_, fun name => ?_, inside⟩
    · unfold Item.node Item.part
      cases found : (Tree.readFields fields).lookup name with
      | none => exact absent
      | some part => exact (inner ranges inside name part found).1
    · unfold Item.nodes Item.part
      cases found : (Tree.readFields fields).lookup name with
      | none => exact none
      | some part => exact (inner ranges inside name part found).2
  case case3 =>
    intro tree notNull notRecord ranges _
    rw [Tree.read]
    · exact fun _ => counts_refuse _
    · exact notNull
    · exact notRecord
  case case4 =>
    intro items inner ranges inside
    rw [Tree.readAll]
    exact inner ranges (by rwa [Tree.ranges] at inside)
  case case5 =>
    intro value empty ranges _
    rw [Tree.readAll, if_pos empty]
    exact none
  case case6 =>
    intro value notEmpty ranges _
    rw [Tree.readAll, if_neg notEmpty]
    exact fun _ => counts_refuse _
  case case7 =>
    intro fields ranges _
    rw [Tree.readAll]
    exact fun _ => counts_throw _
  case case8 =>
    intro fields empty ranges _
    rw [Tree.readAll, if_pos empty]
    exact none
  case case9 =>
    intro fields notEmpty ranges _
    rw [Tree.readAll, if_neg notEmpty]
    exact fun _ => counts_refuse _
  case case10 =>
    intro raw notList notText notAttributes notDictionary truthy ranges _
    rw [Tree.readAll, if_pos truthy]
    · exact fun _ => counts_throw _
    all_goals assumption
  case case11 =>
    intro raw notList notText notAttributes notDictionary falsy ranges _
    rw [Tree.readAll, if_neg falsy]
    · exact none
    all_goals assumption
  case case12 => exact fun _ _ => none
  case case13 =>
    intro item rest first others ranges inside
    rw [Tree.itemRanges, List.append_subset] at inside
    rw [Tree.readItems]
    refine fun before => (first ranges inside.1 before).bind fun node holds => ?_
    refine (others ranges inside.2 _).bind fun nodes allHold => counts_pure (by simp [Node.allPlaces]) ?_
    simpa [holds] using allHold
  case case14 => simp [Tree.readFields]
  case case15 =>
    intro name value rest single several others ranges inside wanted part found
    simp only [Tree.fieldRanges, List.append_subset] at inside
    rw [Tree.readFields, List.lookup_cons] at found
    cases same : wanted == name with
    | true =>
        rw [same] at found
        cases found
        exact ⟨single ranges inside.2.1, several ranges inside.2.1⟩
    | false =>
        rw [same] at found
        exact others ranges inside.2.2 wanted part found

section

variable {tree : Tree} {node : Node} {start next : Nat} (reads : tree.read start = .ok node next)
include reads

/-- Whatever is read is numbered, and well read. -/
theorem Tree.counted_of_read : Numbered tree.ranges start node.places next ∧ node.WellRead :=
  ((Tree.read_counts start).1 tree _ (List.Subset.refl _) [] start (.nil _ _)).of_ok reads

/-- Every place of what is read is numbered in order. -/
theorem Tree.numbered_of_read : Numbered tree.ranges start node.places next :=
  (Tree.counted_of_read reads).1

/-- No two nodes of a tree that was read have the same number. -/
theorem Tree.nodup_ids_of_read : node.ids.Nodup :=
  (Tree.numbered_of_read reads).pairwise.imp fun less => Int.ne_of_lt less

/-- A tree that was read has exits where its statements need them. -/
theorem Tree.ownsExits_of_read : node.OwnsExits := by
  intro part within
  exact (Bool.and_eq_true_iff.mp ((Tree.counted_of_read reads).2 part within)).1

/-- A tree that was read assigns to members by their names. -/
theorem Tree.assignsByName_of_read : node.Every Node.assignsByName := by
  intro part within
  have wellRead := (Tree.counted_of_read reads).2 part within
  rw [Node.isWellRead, Bool.and_eq_true, Bool.and_eq_true] at wellRead
  exact wellRead.2.1

/-- The functions of a tree that was read can be linked, wherever they stand in expressions. -/
theorem Tree.linksFunctions_of_read : node.Every Node.linksFunction := by
  intro part within
  have wellRead := (Tree.counted_of_read reads).2 part within
  rw [Node.isWellRead, Bool.and_eq_true, Bool.and_eq_true] at wellRead
  exact wellRead.2.2

end

end ScriptMachine
