/-
This file renames the variables of a raw tree. Main statement: a renamed tree is loaded as the renamed
program, or refused like the tree itself.
-/

import ScriptMachine.Proofs.Numbering
import ScriptMachine.Proofs.Renaming

namespace ScriptMachine

/-- The fields in which the parts of a record stand. -/
def Kind.parts : Kind → List String
  | .program | .blockStatement => ["body"]
  | .expressionStatement => ["expression"]
  | .variableDeclaration => ["declarations"]
  | .variableDeclarator => ["id", "init"]
  | .functionDeclaration | .functionExpression => ["id", "params", "body"]
  | .returnStatement | .throwStatement | .unaryExpression => ["argument"]
  | .ifStatement => ["test", "consequent", "alternate"]
  | .whileStatement => ["test", "body"]
  | .tryStatement => ["block", "handlers", "handler"]
  | .catchClause => ["param", "body"]
  | .binaryExpression | .logicalExpression | .assignmentExpression => ["left", "right"]
  | .callExpression => ["callee", "arguments"]
  | .memberExpression => ["object", "property"]
  | .objectExpression => ["properties"]
  | .property => ["value"]
  | .arrayExpression => ["elements"]
  | .emptyStatement | .identifier | .literal | .scopeExit | .handlerExit => []

def Tree.kind? (tree : Tree) : Option Kind :=
  match tree.kind with
  | .text shown => Kind.ofText? shown
  | _ => none

/-- A name after a dot is no variable. -/
def Tree.isDotted (tree : Tree) : Bool :=
  tree.kind? == some .memberExpression && !(tree.field "computed").truthy &&
    (tree.field "property").kind.isText "Identifier"

/-- The fields in which the parts of a tree stand that may name variables. -/
def Tree.parts (tree : Tree) : List String :=
  if tree.isDotted then ["object"] else (tree.kind?.map Kind.parts).getD []

/-- The kind of a record is not among its parts. -/
theorem Tree.type_not_part (tree : Tree) : "type" ∉ tree.parts := by
  unfold Tree.parts
  split
  · decide
  · cases tree.kind? with
    | none => decide
    | some kind => cases kind <;> decide

/-- A record finds what its fields list, unless an attribute is null. -/
theorem Shape.find?_eq (shape : Shape) (fields : List (String × Tree)) (name : String) :
    shape.find? fields name =
      (fields.lookup name).filter fun value => !(shape == .attributes && value.isNull) := by
  unfold Shape.find?
  cases fields.lookup name with
  | none => rfl
  | some value => cases value <;> cases shape <;> rfl

namespace Renaming

variable (names : Renaming)

mutual
/-- Identifiers are renamed wherever they stand as parts. -/
def tree : Tree → Tree
  | .list items => .list (trees items)
  | .record shape fields => .record shape (respell (.record shape fields) fields)
  | raw => raw

def trees : List Tree → List Tree
  | [] => []
  | first :: rest => tree first :: trees rest

/-- The fields of a record that hold its parts are renamed, and so is the name of an identifier. -/
def respell (raw : Tree) : List (String × Tree) → List (String × Tree)
  | [] => []
  | (name, value) :: rest =>
      (name, if raw.parts.contains name then tree value
        else if raw.kind? == some .identifier && name == "name" then names.written value
        else value) :: respell raw rest
end

/-- What becomes of one field. -/
def field (raw : Tree) (name : String) (value : Tree) : Tree :=
  if raw.parts.contains name then names.tree value
  else if raw.kind? == some .identifier && name == "name" then names.written value
  else value

/-- Renamed fields are found under their old names. -/
theorem lookup_respell (raw : Tree) (fields : List (String × Tree)) (name : String) :
    (names.respell raw fields).lookup name = (fields.lookup name).map (names.field raw name) := by
  induction fields with
  | nil => rfl
  | cons first rest ih =>
      obtain ⟨held, value⟩ := first
      simp only [respell, List.lookup_cons, ih]
      cases same : name == held with
      | true =>
          obtain rfl : name = held := by simpa using same
          rfl
      | false => rfl

variable {raw : Tree} {name : String}

/-- A part is renamed as a tree. -/
theorem field_part (member : name ∈ raw.parts) (value : Tree) :
    names.field raw name value = names.tree value := by
  simp [field, member]

/-- What is neither part nor name is left alone. -/
theorem field_apart (apart : name ∉ raw.parts) (unnamed : name ≠ "name") : names.field raw name = id := by
  funext value
  simp [field, apart, unnamed]

/-- Whatever renaming trees and texts leaves alone, renaming fields leaves alone. -/
theorem field_preserves {A : Type} {look : Tree → A} (whole : ∀ tree, look (names.tree tree) = look tree)
    (single : ∀ tree, look (names.written tree) = look tree) (raw : Tree) (name : String) (value : Tree) :
    look (names.field raw name value) = look value := by
  unfold field
  split
  · exact whole value
  · split
    · exact single value
    · rfl

/-- Renaming makes nothing null. -/
theorem isNull_tree (tree : Tree) : (names.tree tree).isNull = tree.isNull := by
  cases tree <;> rfl

theorem isNull_written (tree : Tree) : (names.written tree).isNull = tree.isNull := by
  cases tree <;> rfl

/-- Renaming changes no truth value. -/
theorem truthy_tree (tree : Tree) : (names.tree tree).truthy = tree.truthy := by
  cases tree with
  | list items => cases items <;> rfl
  | record shape fields => cases fields <;> rfl
  | _ => rfl

/-- A field of a renamed record is the renamed field. -/
theorem field?_tree (shape : Shape) (fields : List (String × Tree)) (name : String) :
    (names.tree (.record shape fields)).field? name =
      ((Tree.record shape fields).field? name).map (names.field (.record shape fields) name) := by
  have null := names.field_preserves names.isNull_tree names.isNull_written
  unfold tree Tree.field?
  dsimp only
  rw [Shape.find?_eq, Shape.find?_eq, lookup_respell, Option.filter_map]
  simp only [Function.comp_def, null]

/-- A field that is asked for is renamed, missing or not. -/
theorem field_tree (shape : Shape) (fields : List (String × Tree)) (name : String) :
    (names.tree (.record shape fields)).field name =
      names.field (.record shape fields) name ((Tree.record shape fields).field name) := by
  unfold Tree.field Tree.fieldOr
  rw [field?_tree]
  cases (Tree.record shape fields).field? name with
  | none =>
      unfold field
      split
      · rfl
      · split <;> rfl
  | some value => rfl

/-- A record keeps its kind. -/
theorem kind_tree (tree : Tree) : (names.tree tree).kind = tree.kind := by
  cases tree with
  | record shape fields =>
      unfold Tree.kind
      rw [field_tree, names.field_apart (Tree.type_not_part _) (by decide)]
      rfl
  | _ => rfl

/-- A name that was written keeps its kind. -/
theorem kind_written (tree : Tree) : (names.written tree).kind = tree.kind := by
  cases tree <;> rfl

mutual
/-- Renaming changes nothing about which bodies can be linked. -/
theorem linkable_node (node : Node) : (names.node node).linkable = node.linkable := by
  have absent : ∀ node : Node, (names.node node).isAbsent = node.isAbsent :=
    Naming.isAbsent_node (some names)
  have protectedBody : ∀ node : Node, (names.node node).hasProtectedBody = node.hasProtectedBody := by
    intro node
    cases node with
    | catchClause place param body => cases body <;> rfl
    | _ => rfl
  cases node with
  | program _ body | block _ body _ => exact allLinkable_nodes body
  | ifStatement _ _ consequent alternate =>
      simp only [Renaming.node, Node.linkable, linkable_node consequent, linkable_node alternate, absent]
  | whileStatement _ _ body | functionDeclaration _ _ _ body => exact linkable_node body
  | tryStatement _ guarded handler _ _ =>
      simp only [Renaming.node, Node.linkable, bodyLinkable_node handler, linkable_node guarded,
        protectedBody]
  | _ => rfl

theorem bodyLinkable_node (node : Node) : (names.node node).bodyLinkable = node.bodyLinkable := by
  cases node with
  | catchClause _ _ body | whileStatement _ _ body | functionDeclaration _ _ _ body
  | functionExpression _ _ _ body =>
      exact linkable_node body
  | _ => rfl

theorem allLinkable_nodes (nodes : List Node) :
    Node.allLinkable (names.nodes nodes) = Node.allLinkable nodes := by
  match nodes with
  | [] => rfl
  | first :: rest =>
      simp only [Renaming.nodes, Node.allLinkable, linkable_node first, allLinkable_nodes rest]
end

end Renaming

namespace Reader

/-- Items of which one holds the parts of the other, renamed. -/
structure Item.Renames (names : Renaming) (parts : List String) (item other : Item) : Prop where
  kept : ∀ name, name ∉ parts → name ≠ "name" → other.raw.field? name = item.raw.field? name
  truthy : ∀ name, (other.field name).truthy = (item.field name).truthy
  isNull : ∀ name, (other.field name).isNull = (item.field name).isNull
  kind : ∀ name, (other.field name).kind = (item.field name).kind
  node : ∀ name ∈ parts, other.node name = names.node <$> item.node name
  nodes : ∀ name ∈ parts, other.nodes name = names.nodes <$> item.nodes name

namespace Item.Renames

variable {names : Renaming} {parts : List String} {item other : Item}
  (renames : item.Renames names parts other)
include renames

/-- Fields apart from parts and names are the same. -/
theorem field {name : String} (apart : name ∉ parts) (unnamed : name ≠ "name") :
    other.field name = item.field name := by
  unfold Item.field Tree.field Tree.fieldOr
  rw [renames.kept name apart unnamed]

/-- A renamed item stands at the same place. -/
theorem place (apart : "range" ∉ parts) : other.place = item.place := by
  unfold Item.place
  rw [renames.field apart (by decide)]

/-- Renaming changes no function into a generator. -/
theorem plainFunction : plainFunction other = plainFunction item := by
  unfold Reader.plainFunction Item.isSet
  rw [renames.truthy, renames.truthy]

omit renames in
/-- Renamed identifiers are renamed. -/
theorem identifiers_nodes (nodes : List Node) :
    identifiers (names.nodes nodes) = names.idents <$> identifiers nodes := by
  induction nodes with
  | nil => simp [Renaming.nodes, identifiers, Renaming.idents]
  | cons node rest ih =>
      cases node with
      | identifier ident =>
          simp [Renaming.nodes, Renaming.node, identifiers, ih, Renaming.idents]
      | absent => rfl
      | _ => rfl

/-- Parameters are renamed one by one. -/
theorem params (member : "params" ∈ parts) :
    Reader.params other = names.idents <$> Reader.params item := by
  unfold Reader.params
  rw [renames.nodes "params" member]
  simp [identifiers_nodes]

/-- Clauses are renamed one by one. -/
theorem handlers (several : "handlers" ∈ parts) (single : "handler" ∈ parts) :
    Reader.handlers other = names.nodes <$> Reader.handlers item := by
  unfold Reader.handlers Item.isSet
  rw [renames.truthy, renames.isNull, renames.nodes "handlers" several, renames.node "handler" single]
  split
  · rfl
  · split <;> simp [Renaming.nodes]

end Item.Renames

section

variable {names : Renaming} {item other : Item} {A : Type} {first : Reader A} {onward : A → Reader Node}

/-- Readers of renamed nodes are compared part by part. -/
theorem bind_renames {other : A → Reader Node}
    (same : ∀ result, other result = names.node <$> onward result) :
    (first >>= other) = names.node <$> (first >>= onward) := by
  rw [map_bind]
  exact bind_congr same

/-- Renaming passes from a first part of reading to the rest. -/
theorem map_bind_renames {B : Type} {change : A → B} {other : B → Reader Node}
    (same : ∀ result, other (change result) = names.node <$> onward result) :
    (change <$> first >>= other) = names.node <$> (first >>= onward) := by
  rw [bind_map_left]
  exact bind_renames same

theorem block_renames (renames : item.Renames names Kind.blockStatement.parts other) :
    block other = names.node <$> block item := by
  have empty : ∀ nodes : List Node, (names.nodes nodes).isEmpty = nodes.isEmpty :=
    Naming.isEmpty_nodes (some names)
  unfold block
  rw [renames.place (by decide), renames.nodes "body" (by decide)]
  refine bind_renames fun place => map_bind_renames fun body => ?_
  rw [empty]
  split <;> simp [Renaming.node]

theorem declarator_renames (renames : item.Renames names Kind.variableDeclarator.parts other) :
    declarator other = names.node <$> declarator item := by
  unfold declarator
  rw [renames.place (by decide), renames.node "id" (by decide), renames.node "init" (by decide)]
  refine bind_renames fun place => map_bind_renames fun target => ?_
  cases target with
  | identifier ident => simp [Renaming.node]
  | _ => rfl

theorem functionDeclaration_renames
    (renames : item.Renames names Kind.functionDeclaration.parts other) :
    functionDeclaration other = names.node <$> functionDeclaration item := by
  unfold functionDeclaration
  rw [renames.plainFunction, renames.place (by decide), renames.node "id" (by decide),
    renames.params (by decide), renames.node "body" (by decide)]
  simp [Renaming.node]

theorem functionExpression_renames (renames : item.Renames names Kind.functionExpression.parts other) :
    functionExpression other = names.node <$> functionExpression item := by
  unfold functionExpression
  rw [renames.plainFunction, renames.place (by decide), renames.node "id" (by decide),
    renames.params (by decide), renames.node "body" (by decide)]
  refine bind_renames fun _ => bind_renames fun place => map_bind_renames fun name => ?_
  refine map_bind_renames fun params => map_bind_renames fun body => ?_
  rw [link_eq, link_eq, names.linkable_node]
  cases body.linkable <;> rfl

theorem tryStatement_renames (renames : item.Renames names Kind.tryStatement.parts other) :
    tryStatement other = names.node <$> tryStatement item := by
  unfold tryStatement
  rw [renames.place (by decide), renames.isNull, renames.node "block" (by decide),
    renames.handlers (by decide) (by decide)]
  refine bind_renames fun place => ?_
  dsimp only
  split
  · rfl
  · refine map_bind_renames fun guarded => map_bind_renames fun clauses => ?_
    cases clauses with
    | nil => rfl
    | cons handler others => simp [Renaming.nodes, Renaming.node]

theorem catchClause_renames (renames : item.Renames names Kind.catchClause.parts other) :
    catchClause other = names.node <$> catchClause item := by
  unfold catchClause
  rw [renames.place (by decide), renames.node "param" (by decide), renames.node "body" (by decide)]
  refine bind_renames fun place => map_bind_renames fun param => ?_
  cases param with
  | identifier ident => simp [Renaming.node]
  | _ => rfl

theorem literal_renames (renames : item.Renames names Kind.literal.parts other) :
    literal other = names.node <$> literal item := by
  unfold literal
  rw [renames.place (by decide), renames.isNull, renames.field (by decide : "value" ∉ _) (by decide)]
  split <;> simp [Renaming.node]

theorem assignment_renames (renames : item.Renames names Kind.assignmentExpression.parts other) :
    assignment other = names.node <$> assignment item := by
  unfold assignment
  rw [renames.place (by decide), renames.node "left" (by decide), renames.node "right" (by decide),
    renames.field (by decide : "operator" ∉ _) (by decide)]
  refine bind_renames fun place => map_bind_renames fun left => ?_
  cases left with
  | member spot holder selector computed =>
      cases computed with
      | true => rfl
      | false => simp [Renaming.node]
  | _ => simp [Renaming.node]

theorem property_renames (renames : item.Renames names Kind.property.parts other) :
    property other = names.node <$> property item := by
  unfold property
  have kept := renames.kept "kind" (by decide) (by decide)
  have key := renames.field (by decide : "key" ∉ _) (by decide)
  rw [renames.place (by decide), renames.node "value" (by decide), key]
  unfold Item.isSet Tree.fieldOr
  rw [renames.truthy, renames.truthy, kept]
  refine bind_renames fun place => ?_
  dsimp only
  split <;> simp [Renaming.node]

/-- The name after a dot stays, and whatever else selects a member is an expression. -/
theorem member_renames (member : item.raw.kind? = some .memberExpression)
    (renames : item.Renames names item.raw.parts other) :
    Reader.member other = names.node <$> Reader.member item := by
  have place : other.place = item.place := renames.place (by
    unfold Tree.parts
    rw [member]
    split <;> decide)
  have holder : other.node "object" = names.node <$> item.node "object" := renames.node "object" (by
    unfold Tree.parts
    rw [member]
    split <;> decide)
  unfold Reader.member Item.isSet
  dsimp only
  rw [place, holder, renames.truthy, renames.kind]
  refine bind_renames fun place => map_bind_renames fun holder => ?_
  split
  case isTrue dotted =>
    have parts : item.raw.parts = ["object"] := by
      rw [Tree.parts, if_pos]
      rw [Tree.isDotted, member]
      exact dotted
    rw [parts] at renames
    rw [renames.field (by decide : "property" ∉ _) (by decide)]
    simp [Renaming.node]
  case isFalse plain =>
    have parts : item.raw.parts = ["object", "property"] := by
      rw [Tree.parts, if_neg]
      · rw [member]
        rfl
      · rw [Tree.isDotted, member]
        exact plain
    rw [parts] at renames
    rw [renames.node "property" (by decide)]
    simp [Renaming.node]

/-- A renamed item of most kinds is read as the renamed node. -/
theorem ofKind_renames {kind : Kind} (renames : item.Renames names kind.parts other)
    (named : kind ≠ .identifier) (selects : kind ≠ .memberExpression) :
    ofKind other kind = names.node <$> ofKind item kind := by
  cases kind with
  | identifier => exact absurd rfl named
  | memberExpression => exact absurd rfl selects
  | program =>
      simp [ofKind, renames.place (by decide), renames.nodes "body" (by decide), Renaming.node]
  | blockStatement => exact block_renames renames
  | emptyStatement => simp [ofKind, renames.place (by decide), Renaming.node]
  | expressionStatement =>
      simp [ofKind, renames.place (by decide), renames.node "expression" (by decide), Renaming.node]
  | variableDeclaration =>
      have kept := renames.kept "kind" (by decide) (by decide)
      simp [ofKind, renames.place (by decide), renames.nodes "declarations" (by decide), Renaming.node,
        Tree.fieldOr, kept]
  | variableDeclarator => exact declarator_renames renames
  | functionDeclaration => exact functionDeclaration_renames renames
  | functionExpression => exact functionExpression_renames renames
  | returnStatement | throwStatement =>
      simp [ofKind, renames.place (by decide), renames.node "argument" (by decide), Renaming.node]
  | ifStatement =>
      simp [ofKind, renames.place (by decide), renames.node "test" (by decide),
        renames.node "consequent" (by decide), renames.node "alternate" (by decide), Renaming.node]
  | whileStatement =>
      simp [ofKind, renames.place (by decide), renames.node "test" (by decide),
        renames.node "body" (by decide), Renaming.node]
  | tryStatement => exact tryStatement_renames renames
  | catchClause => exact catchClause_renames renames
  | literal => exact literal_renames renames
  | binaryExpression | logicalExpression =>
      have kept := renames.field (by decide : "operator" ∉ _) (by decide)
      simp [ofKind, renames.place (by decide), renames.node "left" (by decide),
        renames.node "right" (by decide), Renaming.node, kept]
  | unaryExpression =>
      have kept := renames.field (by decide : "operator" ∉ _) (by decide)
      simp [ofKind, renames.place (by decide), renames.node "argument" (by decide), Renaming.node, kept]
  | assignmentExpression => exact assignment_renames renames
  | callExpression =>
      simp [ofKind, renames.place (by decide), renames.node "callee" (by decide),
        renames.nodes "arguments" (by decide), Renaming.node]
  | objectExpression =>
      simp [ofKind, renames.place (by decide), renames.nodes "properties" (by decide), Renaming.node]
  | property => exact property_renames renames
  | arrayExpression =>
      simp [ofKind, renames.place (by decide), renames.nodes "elements" (by decide), Renaming.node]
  | scopeExit | handlerExit => rfl

/-- A renamed record is read as the renamed node. -/
theorem record_renames (renames : item.Renames names item.raw.parts other)
    (kind : other.raw.kind = item.raw.kind)
    (named : item.raw.kind? = some .identifier →
      other.field "name" = names.written (item.field "name")) :
    record other = names.node <$> record item := by
  unfold record
  rw [kind]
  cases shown : item.raw.kind with
  | text text =>
      dsimp only
      cases known : Kind.ofText? text with
      | none => rfl
      | some kind =>
          have found : item.raw.kind? = some kind := by
            rw [Tree.kind?, shown]
            exact known
          by_cases identifier : kind = .identifier
          · subst identifier
            have parts : item.raw.parts = [] := by simp [Tree.parts, Tree.isDotted, found, Kind.parts]
            rw [parts] at renames
            simp [ofKind, Reader.identifier, renames.place (by decide), named found, Renaming.node,
              Renaming.ident, Renaming.name]
          · by_cases member : kind = .memberExpression
            · subst member
              exact member_renames found renames
            · have parts : item.raw.parts = kind.parts := by
                simp [Tree.parts, Tree.isDotted, found, member]
              rw [parts] at renames
              exact ofKind_renames renames identifier member
  | _ => rfl

end

end Reader

namespace Renaming

variable (names : Renaming) {fields : List (String × Tree)}

/-- The fields of a renamed record hold what the fields of the record hold, renamed. -/
theorem item_renames (shape : Shape)
    (inner : ∀ name value, fields.lookup name = some value →
      (names.tree value).read = names.node <$> value.read ∧
        (names.tree value).readAll = names.nodes <$> value.readAll) :
    Reader.Item.Renames names (Tree.record shape fields).parts
      ⟨.record shape fields, Tree.readFields fields⟩
      ⟨names.tree (.record shape fields),
        Tree.readFields (names.respell (.record shape fields) fields)⟩ where
  kept := by
    intro name apart unnamed
    rw [field?_tree, names.field_apart apart unnamed, Option.map_id]
    rfl
  truthy := by
    intro name
    unfold Reader.Item.field
    rw [field_tree, names.field_preserves names.truthy_tree names.truthy_written]
  isNull := by
    intro name
    unfold Reader.Item.field
    rw [field_tree, names.field_preserves names.isNull_tree names.isNull_written]
  kind := by
    intro name
    unfold Reader.Item.field
    rw [field_tree, names.field_preserves names.kind_tree names.kind_written]
  node := by
    intro name member
    unfold Reader.Item.node Reader.Item.part
    rw [Tree.lookup_readFields, Tree.lookup_readFields, lookup_respell]
    cases found : fields.lookup name with
    | none => rfl
    | some value =>
        simp only [Option.map_some, Option.getD_some, names.field_part member]
        exact (inner name value found).1
  nodes := by
    intro name member
    unfold Reader.Item.nodes Reader.Item.part
    rw [Tree.lookup_readFields, Tree.lookup_readFields, lookup_respell]
    cases found : fields.lookup name with
    | none => rfl
    | some value =>
        simp only [Option.map_some, Option.getD_some, names.field_part member]
        exact (inner name value found).2

/-- The name of an identifier is renamed as it is written. -/
theorem field_name_tree {shape : Shape} (identifier : (Tree.record shape fields).kind? = some .identifier) :
    (names.tree (.record shape fields)).field "name" =
      names.written ((Tree.record shape fields).field "name") := by
  have parts : (Tree.record shape fields).parts = [] := by
    simp [Tree.parts, Tree.isDotted, identifier, Kind.parts]
  rw [field_tree]
  simp [field, parts, identifier]

mutual
/-- A renamed tree is read like the tree itself, node by node and number by number. -/
theorem read_tree (tree : Tree) : (names.tree tree).read = names.node <$> tree.read := by
  match tree with
  | .record shape fields =>
      have renames := names.item_renames shape (read_fields fields)
      exact Reader.record_renames renames (names.kind_tree (.record shape fields)) names.field_name_tree
  | .null | .bool _ | .int _ | .float _ | .text _ | .list _ => rfl

/-- A renamed list of parts is read as the renamed parts. -/
theorem readAll_tree (tree : Tree) : (names.tree tree).readAll = names.nodes <$> tree.readAll := by
  match tree with
  | .list items => exact readItems_trees items
  | .record .attributes fields => rfl
  | .record .dictionary fields => cases fields <;> rfl
  | .null | .bool true | .bool false => rfl
  | .int _ | .float _ | .text _ =>
      simp only [Renaming.tree, Tree.readAll]
      split <;> rfl

theorem readItems_trees (items : List Tree) :
    Tree.readItems (names.trees items) = names.nodes <$> Tree.readItems items := by
  match items with
  | [] => rfl
  | item :: rest =>
      simp [trees, Tree.readItems, read_tree item, readItems_trees rest, Renaming.nodes]

theorem read_fields (fields : List (String × Tree)) (name : String) (value : Tree)
    (found : fields.lookup name = some value) :
    (names.tree value).read = names.node <$> value.read ∧
      (names.tree value).readAll = names.nodes <$> value.readAll := by
  match fields with
  | [] => cases found
  | (held, part) :: rest =>
      rw [List.lookup_cons] at found
      cases same : name == held with
      | true =>
          rw [same] at found
          cases found
          exact ⟨read_tree value, readAll_tree value⟩
      | false =>
          rw [same] at found
          exact read_fields rest name value found
end

end Renaming

namespace Renaming

variable (names : Renaming)

def successor : Successor → Successor
  | .nowhere => .nowhere
  | .done => .done
  | .visit node => .visit (names.node node)

def write (write : Node × Successor) : Node × Successor :=
  (names.node write.1, names.successor write.2)

/-- Nodes keep their labels. -/
theorem label_node (node : Node) : (names.node node).label = node.label := by
  have kind := Naming.kind?_node (some names) node
  have place := Naming.place_node (some names) node
  unfold Node.label
  rw [← kind, ← place]
  rfl

/-- Successors keep their labels. -/
theorem label?_successor (next : Successor) : (names.successor next).label? = next.label? := by
  cases next with
  | visit node => exact congrArg some (names.label_node node)
  | nowhere | done => rfl

/-- The first of a renamed row is renamed. -/
theorem first_nodes (body : List Node) (next : Successor) :
    Successor.first (names.nodes body) (names.successor next) = names.successor (.first body next) := by
  cases body <;> rfl

mutual
/-- Linking a renamed statement makes the same writes, renamed. -/
theorem writes_node (node : Node) (next : Successor) :
    (names.node node).writes (names.successor next) = (node.writes next).map names.write := by
  cases node with
  | program _ body =>
      simp only [Renaming.node, Node.writes, writes_nodes body, first_nodes, List.map_append]
      rfl
  | block _ body exit =>
      have leaves : Successor.leaving exit (names.successor next) =
          (Successor.leaving exit next).map names.write := by
        cases exit <;> rfl
      have exits : Successor.exiting exit (names.successor next) =
          names.successor (.exiting exit next) := by
        cases exit <;> rfl
      simp only [Renaming.node, Node.writes, leaves, exits, writes_nodes body, first_nodes,
        List.map_append]
      rfl
  | ifStatement _ _ consequent alternate =>
      simp only [Renaming.node, Node.writes, writes_node consequent, writes_node alternate,
        List.map_append]
      rfl
  | whileStatement place test body =>
      have inside := writes_node body (.visit (.whileStatement place test body))
      simp only [Renaming.node, Node.writes, List.map_append]
      rw [← inside]
      rfl
  | functionDeclaration _ _ _ body =>
      have inside := writes_node body .nowhere
      simp only [Renaming.node, Node.writes, List.map_append]
      rw [← inside]
      rfl
  | tryStatement _ guarded handler _ exit =>
      have inside := writes_node guarded (.visit (.handlerExit exit))
      have entered : (names.node guarded).entry (names.successor next) =
          names.successor (guarded.entry next) := by
        cases guarded with
        | program _ body | block _ body _ => exact names.first_nodes body next
        | _ => rfl
      simp only [Renaming.node, Node.writes, bodyWrites_node handler, List.map_append]
      rw [← inside, entered]
      rfl
  | _ => rfl

/-- The links of a renamed body are renamed. -/
theorem bodyWrites_node (node : Node) (next : Successor) :
    (names.node node).bodyWrites (names.successor next) = (node.bodyWrites next).map names.write := by
  cases node with
  | catchClause _ _ body | whileStatement _ _ body | functionDeclaration _ _ _ body
  | functionExpression _ _ _ body =>
      exact writes_node body next
  | _ => rfl

theorem writes_nodes (body : List Node) (next : Successor) :
    Node.writesOf (names.nodes body) (names.successor next) =
      (Node.writesOf body next).map names.write := by
  match body with
  | [] => rfl
  | statement :: rest =>
      simp only [Renaming.nodes, Node.writesOf, writes_nodes rest, first_nodes, writes_node statement,
        List.map_append]
end

mutual
/-- So does linking the functions of a renamed tree. -/
theorem functionWrites_node (node : Node) :
    (names.node node).functionWrites = node.functionWrites.map names.write := by
  match node with
  | .absent | .scopeExit _ | .handlerExit _ | .emptyStatement _ | .identifier _ | .literal .. => rfl
  | .program _ parts | .block _ parts _ | .declaration _ parts _ | .object _ parts
  | .array _ parts => exact functionWrites_nodes parts
  | .expressionStatement _ part | .declarator _ _ part | .returnStatement _ part
  | .throwStatement _ part | .catchClause _ _ part | .unary _ _ part | .property _ _ part =>
      exact functionWrites_node part
  | .functionDeclaration _ first _ second | .whileStatement _ first second
  | .binary _ _ first second | .logical _ _ first second | .assignment _ _ first second
  | .member _ first second _ =>
      simp only [Renaming.node, Node.functionWrites, functionWrites_node first,
        functionWrites_node second, List.map_append]
  | .ifStatement _ test consequent alternate =>
      simp only [Renaming.node, Node.functionWrites, functionWrites_node test,
        functionWrites_node consequent, functionWrites_node alternate, List.map_append]
  | .tryStatement _ guarded handler others _ =>
      simp only [Renaming.node, Node.functionWrites, functionWrites_node guarded,
        functionWrites_node handler, functionWrites_nodes others, List.map_append]
  | .call _ callee arguments =>
      simp only [Renaming.node, Node.functionWrites, functionWrites_node callee,
        functionWrites_nodes arguments, List.map_append]
  | .functionExpression _ name _ body =>
      have inside := names.writes_node body .nowhere
      simp only [Renaming.node, Node.functionWrites, functionWrites_node name,
        functionWrites_node body, List.map_append]
      rw [← inside]
      rfl

theorem functionWrites_nodes (nodes : List Node) :
    Node.functionWritesOf (names.nodes nodes) = (Node.functionWritesOf nodes).map names.write := by
  match nodes with
  | [] => rfl
  | node :: rest =>
      simp only [Renaming.nodes, Node.functionWritesOf, functionWrites_node node,
        functionWrites_nodes rest, List.map_append]
end

/-- Renamed writes leave renamed successors. -/
theorem next_setAll {links other : Links}
    (same : ∀ node, other.next (names.node node) = names.successor (links.next node))
    (writes : List (Node × Successor)) (node : Node) :
    (other.setAll (writes.map names.write)).next (names.node node) =
      names.successor ((links.setAll writes).next node) := by
  have place : ∀ node : Node, (names.node node).place = node.place := Naming.place_node (some names)
  induction writes generalizing links other with
  | nil => exact same node
  | cons write rest ih =>
      refine ih fun node => ?_
      by_cases here : node.place.id = write.1.place.id
      · rw [Links.next_set_self here, Links.next_set_self (by simp [Renaming.write, place, here])]
        rfl
      · rw [Links.next_set_of_ne here, Links.next_set_of_ne (by simpa [Renaming.write, place] using here)]
        exact same node

variable {links other : Links}

/-- A line of the outline does not show names. -/
theorem outlineLine_node (same : ∀ node, other.next (names.node node) = names.successor (links.next node))
    (source : Option String) (indent : Int) (node : Node) :
    (names.node node).outlineLine source indent other = node.outlineLine source indent links := by
  have kind : (names.node node).kind? = node.kind? := Naming.kind?_node (some names) node
  have place : (names.node node).place = node.place := Naming.place_node (some names) node
  have excerpt : (names.node node).excerpt source = node.excerpt source :=
    Naming.excerpt_node (some names) node source
  have shown : (names.node node).isShownWithSource = node.isShownWithSource := by
    cases node <;> rfl
  unfold Node.outlineLine Node.kindText
  rw [shown, same, label?_successor, excerpt, kind, place]

mutual
/-- An outline shows no names, so that a renamed tree has the outline of the tree itself. -/
theorem outline_node (same : ∀ node, other.next (names.node node) = names.successor (links.next node))
    (source : Option String) (indent : Int) (node : Node) :
    (names.node node).outline source indent other = node.outline source indent links := by
  have line := names.outlineLine_node same source indent node
  have absent : ∀ node : Node, (names.node node).isAbsent = node.isAbsent :=
    Naming.isAbsent_node (some names)
  cases node with
  | absent => rfl
  | program _ body | block _ body _ =>
      rw [Renaming.node] at line ⊢
      rw [Node.outline, Node.outline, line, outlineBody_nodes same source (indent + 2) body]
  | ifStatement _ _ consequent alternate =>
      rw [Renaming.node] at line ⊢
      rw [Node.outline, Node.outline, line, outline_node same source (indent + 2) consequent,
        outline_node same source (indent + 2) alternate, absent]
  | whileStatement _ _ body | functionDeclaration _ _ _ body =>
      rw [Renaming.node] at line ⊢
      rw [Node.outline, Node.outline, line, outline_node same source (indent + 2) body]
  | tryStatement _ guarded handler _ _ =>
      rw [Renaming.node] at line ⊢
      rw [Node.outline, Node.outline, line, outline_node same source (indent + 2) guarded,
        outlineHandler_node same source (indent + 2) handler]
  | _ =>
      exact congrArg (fun first => [first]) line

theorem outlineHandler_node
    (same : ∀ node, other.next (names.node node) = names.successor (links.next node))
    (source : Option String) (indent : Int) (node : Node) :
    (names.node node).outlineHandler source indent other =
      node.outlineHandler source indent links := by
  cases node with
  | catchClause _ _ body | whileStatement _ _ body | functionDeclaration _ _ _ body
  | functionExpression _ _ _ body =>
      exact outline_node same source indent body
  | _ => rfl

theorem outlineBody_nodes
    (same : ∀ node, other.next (names.node node) = names.successor (links.next node))
    (source : Option String) (indent : Int) (body : List Node) :
    Node.outlineBody source indent other (names.nodes body) =
      Node.outlineBody source indent links body := by
  match body with
  | [] => rfl
  | statement :: rest =>
      rw [Renaming.nodes, Node.outlineBody, Node.outlineBody, outline_node same source indent statement,
        outlineBody_nodes same source indent rest]
end

end Renaming

/-- A renamed program is loaded as the program is, or refused as the program is. -/
theorem Machine.load_tree (machine : Machine) (names : Renaming) (tree : Tree) :
    machine.load (names.tree tree) = names.node <$> machine.load tree := by
  unfold Machine.load Machine.readTree
  cases reads : tree.read 0 with
  | error fault counted =>
      have fails : (names.tree tree).read 0 = .error fault counted := by
        rw [names.read_tree]
        dsimp only [Functor.map, EStateM.map]
        rw [reads]
      rw [fails]
      rfl
  | ok program counted =>
      have readsAgain : (names.tree tree).read 0 = .ok (names.node program) counted := by
        rw [names.read_tree]
        dsimp only [Functor.map, EStateM.map]
        rw [reads]
      have isProgram : (names.node program).isProgram = program.isProgram := by cases program <;> rfl
      have writes : (names.node program).functionWrites ++ (names.node program).writes .done =
          (program.functionWrites ++ program.writes .done).map names.write := by
        rw [names.functionWrites_node, List.map_append, ← names.writes_node program .done]
        rfl
      have outlined : ∀ writes : List (Node × Successor),
          Machine.outline machine.source 0 (names.node program)
              (Links.empty.setAll (writes.map names.write)) =
            Machine.outline machine.source 0 program (Links.empty.setAll writes) := by
        intro writes
        have unlinked : ∀ node, Links.empty.next (names.node node) =
            names.successor (Links.empty.next node) := fun _ => rfl
        unfold Machine.outline
        rw [names.outline_node (names.next_setAll unlinked writes)]
      rw [readsAgain]
      simp only [pure_bind]
      rw [isProgram, names.label_node, Node.linked_eq .done (Tree.linksFunctions_of_read reads),
        Node.linked_eq .done (Tree.linksFunctions_of_read readsAgain), names.linkable_node, writes]
      cases program.isProgram with
      | false => rfl
      | true =>
          cases program.linkable with
          | false => rfl
          | true =>
              cases machine.config.outline with
              | false => rfl
              | true =>
                  simp [Action.fromExcept, outlined, -List.map_append]

end ScriptMachine
