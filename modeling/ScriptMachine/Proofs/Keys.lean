/-
This file compares the keys of object literals with the keys of member accesses. Main statement: a property
is read under the literal that it was written with exactly if the literal is shown as it is converted.
-/

import ScriptMachine.Proofs.Grounding
import ScriptMachine.Proofs.Reading
import ScriptMachine.Proofs.Spelling

namespace ScriptMachine

/-- A tree that writes a key as a literal. -/
def Tree.Writes (tree key : Tree) : Prop := tree.kind.isText "Literal" = true ∧ tree.field "value" = key

/-- A property of an object literal, read from a tree, whose key is written as a literal. -/
def Node.IsKeyed (node value : Node) (key : Tree) : Prop :=
  (∃ (tree : Tree) (counted after : Nat), tree.read counted = .ok node after ∧
    tree.kind.isText "Property" = true ∧ (tree.field "key").Writes key) ∧
  ∃ place name, node = .property place name value

/-- A computed member access, read from a tree, whose selector is written as a literal. -/
def Node.IsAccess (node holder : Node) (key : Tree) : Prop :=
  (∃ (tree : Tree) (counted after : Nat), tree.read counted = .ok node after ∧
    tree.kind.isText "MemberExpression" = true ∧ (tree.field "computed").truthy = true ∧
    (tree.field "property").Writes key) ∧
  ∃ place selector computed, node = .member place holder selector computed

/-- In an object literal, a key is written with the text that it is shown with. -/
theorem Node.IsKeyed.exists_property {node value : Node} {key : Tree} (keyed : node.IsKeyed value key) :
    ∃ place name, node = .property place name value ∧ name.key = .ok (.text key.shown) := by
  obtain ⟨⟨tree, counted, after, reads, isKind, isLiteral, written⟩, place, name, rfl⟩ := keyed
  obtain ⟨item, read, rfl, -, -⟩ := Tree.exists_read_eq (show Kind.property ∈ Kind.readable by decide) isKind
  have spelled : Reader.propertyKey (item.field "key") = pure (.text key.shown) := by
    unfold Reader.propertyKey
    rw [Reader.Item.field, Tree.eq_text_of_isText isLiteral, written]
    rfl
  have gives : Reader.Gives (Reader.property item) fun node =>
      ∃ place name value, node = .property place name value ∧ name.written = .text key.shown := by
    unfold Reader.property
    rw [spelled]
    refine Reader.gives_bind_any fun place => ?_
    have makes : Reader.Gives (do
        return Node.property place ⟨.text key.shown, place.id⟩ (← item.node "value")) fun node =>
        ∃ place name value, node = .property place name value ∧ name.written = .text key.shown :=
      Reader.gives_bind_any fun value => Reader.gives_pure ⟨place, _, value, rfl, rfl⟩
    dsimp only
    split
    · exact Reader.gives_bind_any fun _ => makes
    · exact makes
  rw [read] at reads
  obtain ⟨_, _, _, ⟨⟩, named⟩ := (gives counted).of_ok reads
  exact ⟨place, name, rfl, by rw [Name.key, named]⟩

theorem Node.IsAccess.exists_member {node holder : Node} {key : Tree} (access : node.IsAccess holder key) :
    ∃ place inner, node = .member place holder (.literal inner key) true := by
  obtain ⟨⟨tree, counted, after, reads, isKind, computed, isLiteral, written⟩, place, selector, flag, rfl⟩ :=
    access
  obtain ⟨item, read, rfl, nodes, -⟩ :=
    Tree.exists_read_eq (show Kind.memberExpression ∈ Kind.readable by decide) isKind
  have selects : Reader.Gives (item.node "property") fun node => ∃ inner, node = .literal inner key := by
    obtain ⟨inner, innerRead, same, -, -⟩ :=
      Tree.exists_read_eq (show Kind.literal ∈ Kind.readable by decide) isLiteral
    rw [nodes, innerRead]
    show Reader.Gives (Reader.literal inner) _
    have makes : Reader.Gives (do return Node.literal (← inner.place) (inner.field "value")) fun node =>
        ∃ inner, node = .literal inner key :=
      Reader.gives_bind_any fun place => Reader.gives_pure ⟨place, by rw [Reader.Item.field, same, written]⟩
    unfold Reader.literal
    split
    · exact Reader.gives_bind_any fun _ => makes
    · exact makes
  have gives : Reader.Gives (Reader.member item) fun node =>
      ∃ place holder inner, node = .member place holder (.literal inner key) true := by
    have isComputed : item.isSet "computed" = true := computed
    unfold Reader.member
    rw [isComputed]
    refine Reader.gives_bind_any fun place => Reader.gives_bind_any fun holder => ?_
    refine selects.bind ?_
    rintro selector ⟨inner, rfl⟩
    exact Reader.gives_pure ⟨place, holder, inner, rfl⟩
  rw [read] at reads
  obtain ⟨_, _, inner, ⟨⟩⟩ := (gives counted).of_ok reads
  exact ⟨place, inner, rfl⟩

theorem Node.evaluate_object (inverted : Bool) (scope : Scope) (place : Place) (properties : List Node) :
    (Node.object place properties).evaluate inverted scope = scope.beginObject >>= fun object => do
      Node.evaluateProperties inverted scope object properties
      return .value (.object object) := by
  rw [Node.evaluate]
  simp only [Scope.beginObject, bind_assoc]

/-- A key that is sought has a literal's text. -/
theorem Tree.exists_of_sought {key : Tree} {text : String} (sought : key.sought = .ok text) :
    ∃ value primitive, key.literal = .ok value ∧ value.toPrimitive = .ok primitive ∧
      primitive.toText = .ok text := by
  unfold Tree.sought at sought
  cases isLiteral : key.literal with
  | error fault =>
      rw [isLiteral] at sought
      cases sought
  | ok value =>
      cases isPrimitive : value.toPrimitive with
      | error fault =>
          rw [isLiteral] at sought
          simp only [bind, Except.bind, isPrimitive] at sought
          cases sought
      | ok primitive =>
          rw [isLiteral] at sought
          simp only [bind, Except.bind, isPrimitive] at sought
          exact ⟨value, primitive, rfl, isPrimitive, sought⟩

/-- Literals are no references, so that they are read as they are. -/
theorem Tree.readFrom_literal {key : Tree} {value : Value} (isLiteral : key.literal = .ok value)
    (store : Store) : (Operand.value value).readFrom store = value := by
  have plain := Tree.isPlain_of_literal isLiteral
  cases value with
  | reference identity address => cases plain
  | _ => rfl

/-- A member access by a literal looks for the text that the literal converts to. -/
theorem Node.IsAccess.evaluate_eq {node holder : Node} {key : Tree} {text : String}
    (access : node.IsAccess holder key) (sought : key.sought = .ok text) {inverted : Bool} {scope : Scope}
    {start arrived : Scratch} {object : Object}
    (held : holder.value inverted scope start = .ok (.object object) arrived) :
    node.evaluate inverted scope start = .ok (.location (arrived.session.located object text).1)
      ⟨(arrived.session.located object text).2, arrived.store⟩ := by
  obtain ⟨place, inner, rfl⟩ := access.exists_member
  have selects : (Node.member place holder (.literal inner key) true).evaluate inverted scope start = (do
      let selected ← (← (Node.literal inner key).evaluate inverted scope).read
      object.select selected) arrived := by
    conv => lhs; rw [Node.evaluate]
    exact (congrFun (bind_assoc _ _ _).symm start).trans ((bind_of_ok held).trans rfl)
  obtain ⟨value, primitive, isLiteral, isPrimitive, isText⟩ := Tree.exists_of_sought sought
  rw [selects]
  refine Ends.eq_ok ?_
  have reads : (Operand.value value).readFrom arrived.store = value := Tree.readFrom_literal isLiteral _
  simp only [Node.evaluate, Object.select, bind_assoc, pure_bind, ends_bind, ends_liftExcept, isLiteral,
    ends_read, reads, isPrimitive, isText, ends_liftAction, ends_locate, Name.key_ofText, ends_pure]
  exact ⟨rfl, rfl⟩

namespace Layout

variable {since session : Session} {layout : Layout} {object : Object}

/-- Two slots of objects have one address only if they have one key. -/
theorem Frames.key_eq (laid : Frames since layout session) {first second : Nat} {proto protoAgain : Address}
    {outer outerAgain : List Nat} (role : layout.roles[first]? = some (.object proto outer))
    (roleAgain : layout.roles[second]? = some (.object protoAgain outerAgain)) {key found : Key}
    {address : Address} (bound : (session.slots first).address? key = some address)
    (boundAgain : (session.slots second).address? found = some address) : key = found := by
  by_cases isProto : key = protoKey
  · by_cases isProtoAgain : found = protoKey
    · rw [isProto, isProtoAgain]
    · exact (laid.slot_eq roleAgain role isProtoAgain boundAgain bound).2.symm
  · exact (laid.slot_eq role roleAgain isProto bound boundAgain).2

/-- Looking for another property of an object does not change where one is found. -/
theorem resolve?_located_of_found {key found : String} {address : Address}
    (resolves : session.resolve? object.properties (.text found) = some address) :
    (session.located object key).2.resolve? object.properties (.text found) = some address := by
  unfold Session.located Session.locate
  cases missing : session.resolve? object.properties (.text key) with
  | some other => exact resolves
  | none =>
      have different : Key.text found ≠ .text key := by
        intro same
        rw [same, missing] at resolves
        cases resolves
      rw [← resolves]
      exact Session.resolve?_congr fun frame _ => session.address?_declare_of_ne _ (.inr different)

/-- Looking for two properties of an object comes to one address exactly if they are the same. -/
theorem Frames.located_eq_iff (laid : Frames since layout session) (good : layout.Good (.object object))
    (first second : String) :
    (session.located object first).1 = ((session.located object first).2.located object second).1 ↔
      first = second := by
  obtain ⟨later, passed, kept⟩ := laid.located good first
  have goodLater := good.later passed
  have found := laid.resolve?_located good first
  constructor
  · intro same
    obtain ⟨last, further, keeps⟩ := kept.located goodLater second
    have foundAgain := kept.resolve?_located goodLater second
    have still := @resolve?_located_of_found _ object second first _ found
    rw [same] at still
    obtain ⟨frame, member, bound⟩ := List.exists_of_findSome?_eq_some still
    obtain ⟨other, otherMember, boundAgain⟩ := List.exists_of_findSome?_eq_some foundAgain
    have chained := (goodLater.later further).chained
    obtain ⟨proto, outer, role⟩ := keeps.exists_outer chained frame member
    obtain ⟨protoAgain, outerAgain, roleAgain⟩ := keeps.exists_outer chained other otherMember
    exact Key.text.inj (keeps.key_eq role roleAgain bound boundAgain)
  · rintro rfl
    rw [Session.located_of_found found]

end Layout

/-- Every access to an object by a literal denotes an address. -/
def Tree.Denotes (key : Tree) (object : Object) (scratch : Scratch) (address : Address) (after : Scratch) :
    Prop :=
  ∀ (node holder : Node) (inverted : Bool) (scope : Scope) (start : Scratch), node.IsAccess holder key →
    holder.value inverted scope start = .ok (.object object) scratch →
    node.evaluate inverted scope start = .ok (.location address) after

/-- Every access to an object by a literal reads a value and changes nothing. -/
def Tree.Reads (key : Tree) (object : Object) (scratch : Scratch) (value : Value) : Prop :=
  ∀ (node holder : Node) (inverted : Bool) (scope : Scope) (start : Scratch), node.IsAccess holder key →
    holder.value inverted scope start = .ok (.object object) scratch →
    node.value inverted scope start = .ok value scratch

/-- A sought key denotes where it is located. -/
theorem Tree.denotes_of_sought {key : Tree} {text : String} (sought : key.sought = .ok text)
    (object : Object) (scratch : Scratch) :
    key.Denotes object scratch (scratch.session.located object text).1
      ⟨(scratch.session.located object text).2, scratch.store⟩ :=
  fun _ _ _ _ _ access held => access.evaluate_eq sought held

theorem Tree.Denotes.reads {key : Tree} {object : Object} {scratch : Scratch} {address : Address}
    (denotes : key.Denotes object scratch address scratch) :
    key.Reads object scratch (scratch.store.get address) :=
  fun _ _ _ _ _ access held => bind_of_ok (denotes _ _ _ _ _ access held)

/-- An own property is found before those of prototypes. -/
theorem Session.located_of_own {session : Session} {object : Object} {key : String} {address : Address}
    (own : (session.slots object.properties.inner).address? (.text key) = some address) :
    session.located object key = (address, session) := by
  have found : session.resolve? object.properties (.text key) = some address := by
    unfold Session.resolve? Scope.chain
    rw [List.findSome?_cons, own]
  exact located_of_found found

/-- The slots of an object for either of two keys. -/
def Object.slotsFor (object : Object) (session : Session) (first second : Key) : Slots :=
  (session.slots object.properties.inner).filter fun slot => slot.key == first || slot.key == second

/-- Two keys that an object has share a slot exactly if they are the same. -/
theorem Session.Grounded.slotsFor_iff {ground : Nat} {session : Session} {object : Object}
    (grounded : session.Grounded ground) (above : ground ≤ object.properties.inner) {first second : Key}
    (has : (session.slots object.properties.inner).address? first ≠ none)
    (hasAgain : (session.slots object.properties.inner).address? second ≠ none) :
    (object.slotsFor session first second).length = 1 ↔ first = second := by
  have distinct := grounded.distinct object.properties.inner above
  unfold Object.slotsFor
  generalize session.slots object.properties.inner = slots at distinct has hasAgain ⊢
  constructor
  · intro single
    obtain ⟨slot, only⟩ := List.length_eq_one_iff.mp single
    have known : ∀ key, key = first ∨ key = second → slots.address? key ≠ none → slot.key = key := by
      intro key either has
      obtain ⟨address, found⟩ := Option.ne_none_iff_exists'.mp has
      obtain ⟨other, member, rfl, -⟩ := Slots.exists_of_address? found
      have among : other ∈ slots.filter fun slot => slot.key == first || slot.key == second :=
        List.mem_filter.mpr ⟨member, by simpa using either⟩
      rw [only] at among
      rw [List.mem_singleton.mp among]
    rw [← known first (.inl rfl) has, known second (.inr rfl) hasAgain]
  · rintro rfl
    have member : first ∈ slots.map Slot.key :=
      Classical.byContradiction fun absent => has (Slots.address?_eq_none_iff.mpr absent)
    have count := distinct.count (a := first)
    rw [if_pos member, List.count_eq_length_filter, List.filter_map, List.length_map] at count
    simpa [Function.comp_def] using count

namespace Scope.Placed

variable {base : Session} {layout : Layout} {scope : Scope} {scratch : Scratch} {object : Object}
  {inverted : Bool}

/-- An object that has been given a property under a key. -/
theorem fill (placed : scope.Placed base layout scratch)
    (building : (Account.layout (Machine.begun base) .empty).Building layout object)
    (hasProto : object.proto ≠ 0) {place : Place} {name : Name} {expression : Node} {key : Key}
    (named : name.key = .ok key) {value : Value} {filled : Scratch}
    (evaluated : expression.value inverted scope scratch = .ok value filled) :
    ∃ later slot final,
      Node.evaluateProperties inverted scope object [.property place name expression] scratch =
        .ok () final ∧
      Layout.Frames (Machine.begun base) later final.session ∧ later.Good (.object object) ∧
      (final.session.slots object.properties.inner).address? key = some slot ∧
      final.store.get slot = value := by
  obtain ⟨after, passed, reached, -, -⟩ := placed.value inverted evaluated
  have built := (Regime.layout (Machine.begun base) .empty).building_later passed building
  obtain ⟨later, further, frames, -⟩ :=
    @Layout.reaches_fill _ filled.session .empty after object key name.written reached.laid.frames built
  have good := built.1.later further
  have inside : object.properties.inner < filled.session.frames.size := by
    rw [← reached.laid.frames.size]
    exact (Layout.native_of_object built.1).lt
  have own := Session.address?_declare_self key name.written inside
  have notNull : (filled.session.declare object.properties.inner key name.written).1 ≠ 0 := by
    by_cases isProto : key = Layout.protoKey
    · subst isProto
      rw [(frames.proto _ _ _ good).1] at own
      rw [← Option.some.inj own]
      exact hasProto
    · exact frames.present _ _ _ (.inr ⟨⟨_, _, good⟩, isProto⟩) own
  refine ⟨later, (filled.session.declare object.properties.inner key name.written).1, ⟨_, filled.store.insert
    (filled.session.declare object.properties.inner key name.written).1 value⟩, ?_, frames, good, own, ?_⟩
  · rw [Node.evaluateProperties_cons, bind_of_ok evaluated]
    refine Ends.eq_ok ?_
    simp only [Node.evaluateProperties, ends_bind, ends_liftAction, ends_declare, named, ends_extend,
      Store.extend_of_ne notNull, ends_pure, and_self]
  · exact Store.get_extend_self (Store.extend_of_ne notNull)

end Scope.Placed

/-- An object has all the properties that a literal gives it. -/
theorem Node.bound_of_evaluateProperties {inverted : Bool} {scope : Scope} {object : Object}
    {properties : List Node} {start final : Scratch}
    (inside : object.properties.inner < start.session.frames.size)
    (ended : Node.evaluateProperties inverted scope object properties start = .ok () final)
    {place : Place} {name : Name} {value : Node} (member : .property place name value ∈ properties)
    {key : Key} (named : name.key = .ok key) :
    (final.session.slots object.properties.inner).address? key ≠ none := by
  induction properties generalizing start with
  | nil => cases member
  | cons property rest ih =>
      by_cases isProperty : ∃ place key value, property = .property place key value
      · obtain ⟨headPlace, headName, headValue, rfl⟩ := isProperty
        rw [Node.evaluateProperties_cons] at ended
        obtain ⟨held, filled, valued, ended⟩ := exists_of_bind ended
        have room := Nat.lt_of_lt_of_le inside (Draft.grows_of_ok valued).size
        obtain ⟨address, declared, declares, ended⟩ := exists_of_bind ended
        have stays := Nat.lt_of_lt_of_le room (Draft.grows_of_ok declares).size
        obtain ⟨_, written, stored, completed⟩ := exists_of_bind ended
        have kept := Draft.grows_of_ok stored
        -- What is bound for this property stays bound while the rest of them are evaluated.
        rcases List.mem_cons.mp member with same | deeper
        · cases same
          have found : (declared.session.slots object.properties.inner).address? key = some address := by
            have ends : Ends (liftM (object.properties.declare name) : Draft Address) filled
                (fun address declared =>
                  (declared.session.slots object.properties.inner).address? key = some address)
                fun _ _ => True := by
              simp only [ends_liftAction, ends_declare, named]
              exact Session.address?_declare_self _ _ room
            exact ends.of_ok declares
          have grows := kept.trans (Draft.grows_of_ok completed)
          rw [grows.kept _ _ _ found]
          exact Option.some_ne_none _
        · exact ih (Nat.lt_of_lt_of_le stays kept.size) completed deeper
      · obtain ⟨fault, refused⟩ := Node.exists_evaluateProperties_eq_throw inverted
          (fun place key value same => isProperty ⟨place, key, value, same⟩) rest
        rw [refused] at ended
        cases ended

namespace Machine

variable {machine : Machine} {program : Node} {base : Session} {held : Exploration} {state : State}
  {scope : Scope} {inverted : Bool}

/-- The keys of object literals and of member accesses agree exactly where a literal is shown as it is
converted. A property is found under the literal that it was written with if and only if that is so, and
what it was given is read there. The properties of two such literals have a single slot exactly if accesses
by them denote one address. -/
theorem Explored.keys_agree (explored : machine.Explored program base held) (member : state ∈ held.states)
    (uses : state.Uses scope) {earlier : List Node} {values : List Value} {start : Scratch}
    (evaluated : Node.values inverted scope earlier ⟨held.session, state.store⟩ = .ok values start) :
    ∃ object created, scope.beginObject start = .ok object created ∧
      (∀ key property expression value filled place, key.isKey = true → property.IsKeyed expression key →
        expression.value inverted scope created = .ok value filled →
        ∃ slot final address after,
          (Node.object place [property]).evaluate inverted scope start = .ok (.value (.object object)) final ∧
          (final.session.slots object.properties.inner).address? (.text key.shown) = some slot ∧
          final.store.get slot = value ∧ key.Denotes object final address after ∧
          (address = slot ↔ key.isFaithful = true) ∧
          (key.isFaithful = true → key.Reads object final value)) ∧
      ∀ first second properties firstProperty secondProperty firstExpression secondExpression place final,
        first.isKey = true → second.isKey = true → firstProperty.IsKeyed firstExpression first →
        secondProperty.IsKeyed secondExpression second → firstProperty ∈ properties →
        secondProperty ∈ properties →
        (Node.object place properties).evaluate inverted scope start = .ok (.value (.object object)) final →
        ∃ address after other last, first.Denotes object final address after ∧
          second.Denotes object after other last ∧
          (address = other ↔ first.sought = second.sought) ∧
          ((object.slotsFor final.session (.text first.shown) (.text second.shown)).length = 1 ↔
            first.shown = second.shown) ∧
          (first.isFaithful = true → second.isFaithful = true →
            ((object.slotsFor final.session (.text first.shown) (.text second.shown)).length = 1 ↔
              address = other)) := by
  obtain ⟨layout, placed⟩ := explored.placed member uses
  obtain ⟨begun, -, placed⟩ := placed.values inverted evaluated
  obtain ⟨object, created, later, begins, passed, reached, hasProto, building⟩ := placed.beginObject
  refine ⟨object, created, begins, ?_, ?_⟩
  · intro key property expression value filled place valid keyed valued
    obtain ⟨inner, name, rfl, named⟩ := keyed.exists_property
    obtain ⟨text, sought⟩ := Tree.exists_sought valid
    obtain ⟨last, slot, final, ended, laid, good, own, stored⟩ :=
      @Scope.Placed.fill _ _ _ _ _ _ reached building hasProto inner name expression _ named value filled
        valued
    have faithful : text = key.shown ↔ key.isFaithful = true := by
      rw [← Tree.sought_eq_shown_iff valid, sought, Except.ok.injEq]
    have same := laid.located_eq_iff good key.shown text
    rw [Session.located_of_own own] at same
    refine ⟨slot, final, _, _, ?_, own, stored, Tree.denotes_of_sought sought object final, ?_, ?_⟩
    · rw [Node.evaluate_object, bind_of_ok begins, bind_of_ok ended]
      rfl
    · rw [eq_comm, same, eq_comm]
      exact faithful
    · intro isFaithful
      obtain rfl := faithful.mpr isFaithful
      have denotes := Tree.denotes_of_sought sought object final
      rw [Session.located_of_own own] at denotes
      rw [← stored]
      exact denotes.reads
  · intro first second properties firstProperty secondProperty firstExpression secondExpression place final
      firstValid secondValid firstKeyed secondKeyed firstMember secondMember ended
    obtain ⟨firstPlace, firstName, rfl, firstNamed⟩ := firstKeyed.exists_property
    obtain ⟨secondPlace, secondName, rfl, secondNamed⟩ := secondKeyed.exists_property
    obtain ⟨firstText, firstSought⟩ := Tree.exists_sought firstValid
    obtain ⟨secondText, secondSought⟩ := Tree.exists_sought secondValid
    rw [Node.evaluate_object, bind_of_ok begins] at ended
    obtain ⟨_, settled, filled, done⟩ := exists_of_bind ended
    cases done
    obtain ⟨last, further, settles⟩ := reached.evaluateProperties inverted building filled
    have inside : object.properties.inner < created.session.frames.size := by
      rw [← reached.laid.frames.size]
      exact (Layout.native_of_object building.1).lt
    have single := settles.grounded.frames.slotsFor_iff
      (Nat.le_trans (by simp [Machine.begun, Globals.underway]; omega) building.2)
      (Node.bound_of_evaluateProperties inside filled firstMember firstNamed)
      (Node.bound_of_evaluateProperties inside filled secondMember secondNamed)
    have same := settles.laid.frames.located_eq_iff (building.1.later further) firstText secondText
    have count : (object.slotsFor final.session (.text first.shown) (.text second.shown)).length = 1 ↔
        first.shown = second.shown := by
      rw [single, Key.text.injEq]
    refine ⟨_, _, _, _, Tree.denotes_of_sought firstSought object final,
      Tree.denotes_of_sought secondSought object _, ?_, count, ?_⟩
    · rw [same, firstSought, secondSought, Except.ok.injEq]
    · intro firstFaithful secondFaithful
      rw [← Tree.sought_eq_shown_iff firstValid, firstSought] at firstFaithful
      rw [← Tree.sought_eq_shown_iff secondValid, secondSought] at secondFaithful
      cases firstFaithful
      cases secondFaithful
      rw [count, same]

end Machine

namespace Sample

/-- A property with a literal key. -/
def keyed (key value : Tree) : Tree :=
  node "Property" [("key", node "Literal" [("value", key)]), ("value", value)]

/-- An object is made with a key that is a double, and its property is looked for under the same key. -/
def misspelled : Tree := program
  [declare "o" (node "ObjectExpression" [("properties", .list [keyed (.float 1.0) (literal "v")])]),
    declare "r" (node "MemberExpression" [("object", name "o"), ("computed", .bool true),
      ("property", node "Literal" [("value", .float 1.0)])])]

theorem read_keyed (key : Tree) (text : String) (counted : Nat) :
    (keyed key (literal text)).read counted =
      .ok (.property ⟨counted, .null⟩ ⟨.text key.shown, counted⟩
        (.literal ⟨↑(counted + 1), .null⟩ (.text text))) (counted + 2) := by
  cases key <;> rfl

end Sample

namespace Machine

/-- A key that is no integer is written and looked for under one text. -/
theorem Explored.keys_agree_of_half :
    ∃ program counted held state start object created property expression final,
      Sample.twins.read 0 = .ok program counted ∧
      Explored ⟨.default, none⟩ program (Session.start false) held ∧ state ∈ held.states ∧
      state.Uses ⟨0, []⟩ ∧ Node.values false ⟨0, []⟩ [] ⟨held.session, state.store⟩ = .ok [] start ∧
      Scope.beginObject ⟨0, []⟩ start = .ok object created ∧
      Node.IsKeyed property expression (.float 0.5) ∧
      expression.value false ⟨0, []⟩ created = .ok (.string "v") created ∧
      (Node.object ⟨0, .null⟩ [property]).evaluate false ⟨0, []⟩ start = .ok (.value (.object object)) final ∧
      Tree.Reads (.float 0.5) object final (.string "v") := by
  obtain ⟨program, counted, reads, -⟩ : ∃ program counted,
      Sample.twins.read 0 = .ok program counted ∧ True := Ends.exists_ok (by decide +kernel)
  obtain ⟨progress, after, ran, scopes⟩ : ∃ progress after,
      Machine.run ⟨.default, none⟩ 3 Sample.twins (Session.start false) = .ok progress after ∧
        progress.state.scopes = [⟨0, []⟩] := Ends.exists_ok (by decide +kernel)
  obtain ⟨states, member, explored⟩ := explored_of_run rfl reads ran
  have uses : progress.state.Uses ⟨0, []⟩ := .inl (by simp [scopes])
  have evaluated : Node.values false ⟨0, []⟩ [] ⟨after, progress.state.store⟩ =
      .ok [] ⟨after, progress.state.store⟩ := rfl
  obtain ⟨object, created, begins, single, -⟩ := explored.keys_agree member uses evaluated
  have keyed : Node.IsKeyed (.property ⟨0, .null⟩ ⟨.text (Tree.float 0.5).shown, 0⟩
      (.literal ⟨1, .null⟩ (.text "v"))) (.literal ⟨1, .null⟩ (.text "v")) (.float 0.5) :=
    ⟨⟨Sample.keyed (.float 0.5) (Sample.literal "v"), 0, 2, Sample.read_keyed _ _ 0, by decide, by decide,
      rfl⟩, _, _, rfl⟩
  have valued : (Node.literal ⟨1, .null⟩ (.text "v")).value false ⟨0, []⟩ created =
      .ok (.string "v") created := by
    rw [Node.value, Inquiry.evaluate_text]
    rfl
  obtain ⟨slot, final, address, last, ended, -, -, -, -, faithful⟩ :=
    single _ _ _ _ _ ⟨0, .null⟩ (by decide +kernel) keyed valued
  exact ⟨program, counted, _, progress.state, _, object, created, _, _, final, reads, explored, member, uses,
    evaluated, begins, keyed, valued, ended, faithful (by decide +kernel)⟩

/-- A property that was written under a double is not found under the same double if that is an integer. -/
theorem Explored.keys_differ :
    ∃ program counted held state object address, Sample.misspelled.read 0 = .ok program counted ∧
      Explored ⟨.default, none⟩ program (Session.start false) held ∧ state ∈ held.states ∧
      Tree.isKey (.float 1.0) = true ∧ state.store.get 7 = .object object ∧
      (held.session.slots object.properties.inner).address? (.text (Tree.float 1.0).shown) = some 6 ∧
      (state.store.get 6).display? = some "v" ∧
      held.session.resolve? ⟨0, []⟩ (.text "r") = some address ∧
      (state.store.get address).display? = some "undefined" := by
  obtain ⟨program, counted, reads, -⟩ : ∃ program counted,
      Sample.misspelled.read 0 = .ok program counted ∧ True := Ends.exists_ok (by decide +kernel)
  obtain ⟨progress, after, ran, made, own, stored, found, missed⟩ : ∃ progress after,
      Machine.run ⟨.default, none⟩ 3 Sample.misspelled (Session.start false) = .ok progress after ∧
        (progress.state.store.get 7).object? = some ⟨3, ⟨2, [1]⟩⟩ ∧
        (after.slots 2).address? (.text (Tree.float 1.0).shown) = some 6 ∧
        (progress.state.store.get 6).display? = some "v" ∧
        after.resolve? ⟨0, []⟩ (.text "r") = some 9 ∧
        (progress.state.store.get 9).display? = some "undefined" := Ends.exists_ok (by decide +kernel)
  obtain ⟨states, member, explored⟩ := explored_of_run rfl reads ran
  exact ⟨program, counted, _, progress.state, _, 9, reads, explored, member, by decide +kernel,
    Value.eq_object made, own, stored, found, missed⟩

end Machine

end ScriptMachine
