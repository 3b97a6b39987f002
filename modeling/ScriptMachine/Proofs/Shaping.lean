/-
This file hands one tree over in different shapes. Main statement: a tree that suits both shapes is read,
loaded and run alike as dictionaries and as attributes.
-/

import ScriptMachine.Proofs.Acceptance

namespace ScriptMachine

/-- The fields that hold a flag each. -/
def Kind.flags : Kind → List String
  | .functionDeclaration | .functionExpression => ["generator", "async"]
  | .memberExpression => ["computed"]
  | .property => ["computed", "method"]
  | _ => []

/-- The fields that hold a scalar each, besides those that hold one in every kind. -/
def Kind.scalars : Kind → List String
  | .literal => ["value"]
  | .binaryExpression | .unaryExpression | .logicalExpression | .assignmentExpression => ["operator"]
  | .variableDeclaration | .property => ["kind"]
  | _ => []

namespace Tree

def isRecord : Tree → Bool
  | .record .. => true
  | _ => false

def isScalar : Tree → Bool
  | .list _ | .record .. => false
  | _ => true

def holdsNull (name : String) : Tree → Bool
  | .record _ fields => (fields.lookup name).any isNull
  | _ => false

/-- What both shapes ask for at one position: scalars where they are expected, no records for flags and lists,
and a kind that is not null where there is a default for it. -/
def isNeutral (tree : Tree) : Bool :=
  tree.kind.isScalar && (tree.field "name").isScalar && tree.kind?.all fun kind =>
    kind.scalars.all (fun name => (tree.field name).isScalar) &&
    (kind.several ++ kind.flags).all (fun name => !(tree.field name).isRecord) &&
    !(kind.scalars.contains "kind" && tree.holdsNull "kind")

mutual
/-- A tree that suits both shapes. Nothing is asked of ranges. -/
def suits : Tree → Bool
  | .list items => allSuit items
  | .record shape fields => (record shape fields).isNeutral && fieldsSuit fields
  | _ => true

def allSuit : List Tree → Bool
  | [] => true
  | first :: rest => suits first && allSuit rest

def fieldsSuit : List (String × Tree) → Bool
  | [] => true
  | (name, value) :: rest => (name == "range" || suits value) && fieldsSuit rest
end

mutual
/-- The same tree with all its records in one shape. Ranges, which are plain data, stay as they are. -/
def shaped (shape : Shape) : Tree → Tree
  | .list items => .list (allShaped shape items)
  | .record _ fields => .record shape (fieldsShaped shape fields)
  | tree => tree

def allShaped (shape : Shape) : List Tree → List Tree
  | [] => []
  | first :: rest => shaped shape first :: allShaped shape rest

def fieldsShaped (shape : Shape) : List (String × Tree) → List (String × Tree)
  | [] => []
  | (name, value) :: rest =>
      (name, if name == "range" then value else shaped shape value) :: fieldsShaped shape rest
end

section Fields

variable (shape : Shape) {old : Shape} {fields : List (String × Tree)} {tree : Tree} {name : String}

theorem lookup_fieldsShaped (name : String) :
    (fieldsShaped shape fields).lookup name =
      (fields.lookup name).map fun value => if name == "range" then value else value.shaped shape := by
  induction fields with
  | nil => rfl
  | cons field rest ih =>
      obtain ⟨held, value⟩ := field
      simp only [fieldsShaped, List.lookup_cons, ih]
      cases same : name == held with
      | true =>
          obtain rfl : name = held := by simpa using same
          rfl
      | false => rfl

theorem isNull_shaped (tree : Tree) : (tree.shaped shape).isNull = tree.isNull := by
  cases tree <;> rfl

theorem shaped_of_isScalar (scalar : tree.isScalar = true) : tree.shaped shape = tree := by
  cases tree with
  | list | record => cases scalar
  | _ => rfl

theorem truthy_shaped (flat : tree.isRecord = false) : (tree.shaped shape).truthy = tree.truthy := by
  cases tree with
  | list items => cases items <;> rfl
  | record => cases flat
  | _ => rfl

/-- A field reads alike in every shape, since null stands for what is missing. -/
theorem field_eq_lookup (name : String) :
    (record shape fields).field name = (fields.lookup name).getD .null := by
  unfold field fieldOr field?
  dsimp only
  rw [Shape.find?_eq]
  cases fields.lookup name with
  | none => rfl
  | some value => cases value <;> cases shape <;> rfl

/-- A field of the shaped record is shaped, its range apart. -/
theorem field_shaped (name : String) :
    ((record old fields).shaped shape).field name =
      if name == "range" then (record old fields).field name
      else ((record old fields).field name).shaped shape := by
  rw [shaped, field_eq_lookup, field_eq_lookup, lookup_fieldsShaped]
  cases fields.lookup name with
  | none => cases name == "range" <;> rfl
  | some value => rfl

/-- What is asked of a field is answered alike in another shape if the value itself answers alike. -/
theorem view_field_shaped {A : Type} (view : Tree → A)
    (same : view (((record old fields).field name).shaped shape) = view ((record old fields).field name)) :
    view (((record old fields).shaped shape).field name) = view ((record old fields).field name) := by
  rw [field_shaped]
  split
  · rfl
  · exact same

theorem field_of_isScalar (scalar : ((record old fields).field name).isScalar = true) :
    ((record old fields).shaped shape).field name = (record old fields).field name :=
  view_field_shaped shape id (shaped_of_isScalar shape scalar)

theorem field_of_suits (suited : tree.suits = true) (plain : name ∈ ["type", "name", "range"]) :
    (tree.shaped shape).field name = tree.field name := by
  cases tree with
  | record old fields =>
      have neutral := (Bool.and_eq_true_iff.mp suited).1
      simp only [isNeutral, Bool.and_eq_true] at neutral
      simp only [List.mem_cons, List.not_mem_nil, or_false] at plain
      rcases plain with rfl | rfl | rfl
      · exact field_of_isScalar shape neutral.1.1
      · exact field_of_isScalar shape neutral.1.2
      · exact field_shaped shape "range"
  | _ => rfl

/-- Keys that suit both shapes are spelled alike. -/
theorem propertyKey_shaped (suited : tree.suits = true) :
    Reader.propertyKey (tree.shaped shape) = Reader.propertyKey tree := by
  have same : (tree.shaped shape).kind = tree.kind := field_of_suits shape suited (by decide)
  unfold Reader.propertyKey
  rw [same, field_of_suits shape suited (by decide)]
  split
  · rfl
  split
  · rename_i isLiteral
    cases tree with
    | record old fields =>
        have kinded : (record old fields).kind? = some .literal := kind?_eq_some.mpr ⟨by decide, isLiteral⟩
        have neutral := (Bool.and_eq_true_iff.mp suited).1
        simp only [isNeutral, kinded, Option.all_some, Kind.scalars, List.all_cons, Bool.and_eq_true] at neutral
        rw [field_of_isScalar shape neutral.2.1.1.1]
    | _ => cases isLiteral
  · rfl

end Fields

/-- A value that stands under a name is read alike when the record is in another shape. -/
structure Alike (shape : Shape) (name : String) (value : Tree) : Prop where
  suits : name ≠ "range" → value.suits = true
  read : (if name == "range" then value else value.shaped shape).read = value.read
  readAll : value.isRecord = false →
    (if name == "range" then value else value.shaped shape).readAll = value.readAll

/-- What a record is read through. -/
def item (shape : Shape) (fields : List (String × Tree)) : Reader.Item :=
  ⟨record shape fields, readFields fields⟩

section Items

variable {shape old : Shape} {fields : List (String × Tree)} {name : String}

theorem place_shaped : (item shape (fieldsShaped shape fields)).place = (item old fields).place := by
  have range : (record shape (fieldsShaped shape fields)).field "range" = (record old fields).field "range" :=
    field_shaped shape "range"
  simp only [Reader.Item.place, Reader.Item.field, item, range]

/-- A shaped node is read as before. -/
theorem node_shaped (alike : ∀ value, fields.lookup name = some value → value.Alike shape name) :
    (item shape (fieldsShaped shape fields)).node name = (item old fields).node name := by
  simp only [Reader.Item.node, Reader.Item.part, item, lookup_readFields, lookup_fieldsShaped]
  cases found : fields.lookup name with
  | none => rfl
  | some value => exact (alike value found).read

theorem nodes_shaped (alike : ∀ value, fields.lookup name = some value → value.Alike shape name)
    (flat : ((record old fields).field name).isRecord = false) :
    (item shape (fieldsShaped shape fields)).nodes name = (item old fields).nodes name := by
  rw [field_eq_lookup] at flat
  simp only [Reader.Item.nodes, Reader.Item.part, item, lookup_readFields, lookup_fieldsShaped]
  cases found : fields.lookup name with
  | none => rfl
  | some value =>
      rw [found] at flat
      exact (alike value found).readAll flat

/-- A default stands for what is missing in every shape, and for null in some. -/
theorem fieldOr_shaped (scalar : ((record old fields).field name).isScalar = true)
    (present : (record old fields).holdsNull name = false) (default : Tree) :
    ((record old fields).shaped shape).fieldOr name default = (record old fields).fieldOr name default := by
  rw [field_eq_lookup] at scalar
  simp only [fieldOr, field?, shaped, Shape.find?_eq, lookup_fieldsShaped]
  cases found : fields.lookup name with
  | none => rfl
  | some value =>
      rw [found] at scalar
      have notNull : value.isNull = false := by simpa [holdsNull, found] using present
      have unchanged : value.shaped shape = value := shaped_of_isScalar shape scalar
      simp [Option.filter, unchanged, notNull]

open Reader in
/-- A reader asks for nothing in which the shapes differ. -/
theorem ofKind_shaped {kind : Kind} (kinded : (record old fields).kind? = some kind)
    (suited : (record old fields).suits = true)
    (alike : ∀ name value, fields.lookup name = some value → value.Alike shape name) :
    ofKind (item shape (fieldsShaped shape fields)) kind = ofKind (item old fields) kind := by
  have neutral := (Bool.and_eq_true_iff.mp suited).1
  simp only [isNeutral, kinded, Option.all_some, Bool.and_eq_true, List.all_eq_true,
    Bool.not_eq_true'] at neutral
  obtain ⟨⟨-, named⟩, ⟨scalars, flat⟩, present⟩ := neutral
  have suits : ∀ name, name ≠ "range" → ((record old fields).field name).suits = true := by
    intro name apart
    rw [field_eq_lookup]
    cases found : fields.lookup name with
    | none => rfl
    | some value => exact (alike name value found).suits apart
  let before := item old fields
  let after := item shape (fieldsShaped shape fields)
  have place : after.place = before.place := place_shaped
  have node : ∀ name, after.node name = before.node name := fun name => node_shaped (alike name)
  have nodes : ∀ name ∈ kind.several, after.nodes name = before.nodes name :=
    fun name member => nodes_shaped (alike name) (flat name (List.mem_append_left _ member))
  have isSet : ∀ name ∈ kind.several ++ kind.flags, after.isSet name = before.isSet name :=
    fun name member => view_field_shaped shape truthy (truthy_shaped shape (flat name member))
  have isNull : ∀ name, (after.field name).isNull = (before.field name).isNull :=
    fun name => view_field_shaped shape Tree.isNull (isNull_shaped shape _)
  have scalar : ∀ name ∈ "name" :: kind.scalars, after.field name = before.field name := by
    intro name member
    rcases List.mem_cons.mp member with rfl | member
    · exact field_of_isScalar shape named
    · exact field_of_isScalar shape (scalars name member)
  have missing : ∀ tree, "kind" ∈ kind.scalars →
      after.raw.fieldOr "kind" tree = before.raw.fieldOr "kind" tree :=
    fun tree member => fieldOr_shaped (scalars "kind" member) (by simpa [member] using present) tree
  have dotted : ∀ name ∈ ["type", "name", "range"],
      (after.field "property").field name = (before.field "property").field name :=
    fun name member => view_field_shaped shape (Tree.field · name)
      (field_of_suits shape (suits "property" (by decide)) member)
  have key : propertyKey (after.field "key") = propertyKey (before.field "key") :=
    view_field_shaped shape propertyKey (propertyKey_shaped shape (suits "key" (by decide)))
  change ofKind after kind = ofKind before kind
  cases kind <;>
    simp (disch := decide) only [ofKind, block, declarator, functionDeclaration, functionExpression,
      plainFunction, params, tryStatement, handlers, catchClause, identifier, Reader.literal, assignment,
      member, Reader.property, Tree.kind, place, node, nodes, isSet, isNull, scalar, missing, dotted, key]
  -- What is left decides in the same way on both sides whether a name stands behind a dot.
  rfl

end Items

mutual
/-- A tree that suits both shapes is read alike in each of them. -/
theorem read_shaped (shape : Shape) (tree : Tree) (suited : tree.suits = true) :
    (tree.shaped shape).read = tree.read := by
  match tree with
  | .record old fields =>
      have inner := alike_of_lookup shape fields (Bool.and_eq_true_iff.mp suited).2
      have same : (record shape (fieldsShaped shape fields)).kind = (record old fields).kind :=
        field_of_suits shape suited (by decide)
      rw [shaped, read, read, Reader.record, Reader.record, same]
      cases written : (record old fields).kind with
      | text text =>
          cases known : Kind.ofText? text with
          | none => simp only [known]
          | some kind =>
              have kinded : (record old fields).kind? = some kind := by
                unfold kind?
                rw [written]
                exact known
              simp only [known]
              exact ofKind_shaped kinded suited inner
      | _ => rfl
  | .null | .bool _ | .int _ | .float _ | .text _ | .list _ => rfl

/-- Shaped lists are read as before. -/
theorem readAll_shaped (shape : Shape) (tree : Tree) (flat : tree.isRecord = false)
    (suited : tree.suits = true) : (tree.shaped shape).readAll = tree.readAll := by
  match tree with
  | .list items => exact readItems_shaped shape items suited
  | .null | .bool _ | .int _ | .float _ | .text _ => rfl

theorem readItems_shaped (shape : Shape) (items : List Tree) (suited : allSuit items = true) :
    readItems (allShaped shape items) = readItems items := by
  match items with
  | [] => rfl
  | item :: rest =>
      obtain ⟨first, others⟩ := Bool.and_eq_true_iff.mp suited
      simp only [allShaped, readItems, read_shaped shape item first, readItems_shaped shape rest others]

/-- Every field is read alike in either shape. -/
theorem alike_of_lookup (shape : Shape) (fields : List (String × Tree)) (suited : fieldsSuit fields = true)
    (name : String) (value : Tree) (found : fields.lookup name = some value) : value.Alike shape name := by
  match fields with
  | [] => cases found
  | (held, part) :: rest =>
      obtain ⟨here, others⟩ := Bool.and_eq_true_iff.mp suited
      rw [List.lookup_cons] at found
      cases same : name == held with
      | true =>
          rw [same] at found
          cases found
          obtain rfl : name = held := by simpa using same
          by_cases isRange : name = "range"
          · subst isRange
            exact ⟨fun apart => absurd rfl apart, rfl, fun _ => rfl⟩
          · have suited : value.suits = true := by simpa [isRange] using here
            have read := read_shaped shape value suited
            refine ⟨fun _ => suited, by simpa [isRange] using read, fun flat => ?_⟩
            rw [if_neg (by simpa using isRange)]
            exact readAll_shaped shape value flat suited
      | false =>
          rw [same] at found
          exact alike_of_lookup shape rest others name value found
end

end Tree

/-- A tree that suits both shapes is read as the same nodes or refused with the same fault, whether it is
handed over as dictionaries or as attributes, and loading and running it come to the same. -/
theorem Machine.run_alike (tree : Tree) (suited : tree.suits = true) :
    (tree.shaped .attributes).read = (tree.shaped .dictionary).read ∧
      ∀ machine : Machine, machine.load (tree.shaped .attributes) = machine.load (tree.shaped .dictionary) ∧
        ∀ steps,
          machine.run steps (tree.shaped .attributes) = machine.run steps (tree.shaped .dictionary) := by
  have same : (tree.shaped .attributes).read = (tree.shaped .dictionary).read := by
    rw [Tree.read_shaped .attributes tree suited, Tree.read_shaped .dictionary tree suited]
  refine ⟨same, fun machine => ?_⟩
  have loads : machine.load (tree.shaped .attributes) = machine.load (tree.shaped .dictionary) := by
    unfold Machine.load Machine.readTree
    rw [same]
  refine ⟨loads, fun steps => ?_⟩
  unfold Machine.run Machine.begin
  rw [loads]

namespace Sample

/-- A member of an object, where some fields are null and some are missing. -/
def sparse : Tree := program
  [node "VariableDeclaration" [("declarations", .list
      [node "VariableDeclarator" [("id", name "o"), ("init", object []), ("range", .null)]])],
    node "ExpressionStatement" [("expression", node "MemberExpression"
      [("object", name "o"), ("property", name "k"), ("computed", .null)])]]

end Sample

theorem Machine.run_alike_of_sparse :
    Sample.sparse.suits = true ∧
      Ends (Machine.run ⟨.default, none⟩ 4 (Sample.sparse.shaped .attributes)) (Session.start false)
        (fun progress _ => progress.state.isDone = true) fun _ _ => False := by
  have suited : Sample.sparse.suits = true := by decide +kernel
  refine ⟨suited, ?_⟩
  rw [((run_alike Sample.sparse suited).2 _).2]
  decide +kernel

end ScriptMachine
