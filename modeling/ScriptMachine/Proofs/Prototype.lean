/-
This file follows the prototype of objects. Main statement: as long as a program writes nothing under
the key by which objects know their prototypes, the prototype of objects stays in its place, and every
object has it both by its address and by its frame.
-/

import ScriptMachine.Proofs.Member

namespace ScriptMachine

/-- The names by which a node itself binds variables or looks them up. -/
def Node.identifiers : Node → List Name
  | .identifier ident => [ident.name]
  | .declarator _ target _ => [target.name]
  | .catchClause _ param _ => [param.name]
  | .functionDeclaration _ _ params _ | .functionExpression _ _ params _ => params.map Ident.name
  | _ => []

/-- No variable has the name under which the prototype of objects is found. -/
def Node.leavesIntrinsic (node : Node) : Bool :=
  node.identifiers.all fun name => !name.written.isText "%ObjectPrototype%"

/-- The name after a dot is a text. -/
def Node.selectsByText : Node → Bool
  | .member _ _ (.literal _ (.text _)) false => true
  | .member _ _ _ computed => computed
  | _ => true

/-- Nothing is written under the key of prototypes, neither by an object literal nor by an assignment
to a member. -/
def Node.leavesProto : Node → Bool
  | .property _ key _ => !key.written.isText "__proto__"
  | .assignment _ _ (.member _ _ (.literal _ value) _) _ => !value.isText "__proto__"
  | _ => true

/-- Nodes that let the prototype of objects be. -/
def Node.spares (node : Node) : Bool :=
  node.assignsByName && node.selectsByText && node.leavesIntrinsic && node.leavesProto

theorem Name.written_of_key {name : Name} {text : String} (keyed : name.key = .ok (.text text)) :
    name.written.isText text = true := by
  obtain ⟨written, occurrence⟩ := name
  cases written with
  | text value =>
      cases keyed
      exact beq_self_eq_true text
  | float value =>
      simp only [Name.key, Key.ofFloat, Except.ok.injEq] at keyed
      split at keyed
      · cases keyed
      · split at keyed <;> cases keyed
  | null | bool value | int value | list items | record shape fields => cases keyed

namespace Node

variable {node : Node}

theorem spares_exit (exit : node.isExit = true) : node.spares = true := by
  cases node with
  | scopeExit | handlerExit => rfl
  | _ => cases exit

theorem leavesIntrinsic_of_spares (spares : node.spares = true) : node.leavesIntrinsic = true := by
  simp only [Node.spares, Bool.and_eq_true] at spares
  exact spares.1.2

variable {name : Name} {key : Key}

/-- Variables are not found where the prototype of objects is. -/
theorem key_ne_intrinsic (leaves : node.leavesIntrinsic = true) (member : name ∈ node.identifiers)
    (named : name.key = .ok key) : key ≠ Layout.intrinsicKey := by
  rintro rfl
  have other := List.all_eq_true.mp leaves name member
  rw [Name.written_of_key named] at other
  cases other

/-- No declaration names the intrinsic slot. -/
theorem key_ne_intrinsic_of_declaredName (every : node.Every spares)
    (declared : node.declaredName? = some name) (named : name.key = .ok key) : key ≠ Layout.intrinsicKey := by
  have leaves := leavesIntrinsic_of_spares (every node .self)
  induction node using Node.declaredName?.induct with
  | case1 ident =>
      cases declared
      exact key_ne_intrinsic leaves List.mem_cons_self named
  | case2 place target init =>
      cases declared
      exact key_ne_intrinsic leaves List.mem_cons_self named
  | case3 place inner params body ih =>
      have deeper := (Node.every_iff.mp every).2 inner List.mem_cons_self
      exact ih deeper declared (leavesIntrinsic_of_spares (deeper inner .self))
  | case4 place params body =>
      cases declared
      cases named
      exact Key.noConfusion
  | case5 place inner params body present ih =>
      have deeper := (Node.every_iff.mp every).2 inner List.mem_cons_self
      rw [Node.declaredName?] at declared
      · exact ih deeper declared (leavesIntrinsic_of_spares (deeper inner .self))
      · exact present
  | case6 => simp_all [Node.declaredName?]

/-- Neither are variables that a statement declares. -/
theorem key_ne_intrinsic_of_declares (every : node.Every spares) (declared : name ∈ node.declares)
    (named : name.key = .ok key) : key ≠ Layout.intrinsicKey := by
  cases node with
  | functionDeclaration place inner params body =>
      exact key_ne_intrinsic_of_declaredName
        ((Node.every_iff.mp every).2 inner List.mem_cons_self) (Option.mem_toList.mp declared) named
  | declaration place declarators keyword =>
      obtain ⟨declarator, member, found⟩ := List.mem_filterMap.mp declared
      exact key_ne_intrinsic_of_declaredName ((Node.every_iff.mp every).2 declarator member) found named
  | _ => cases declared

/-- A selection by text has a literal selector. -/
theorem exists_of_selectsByText {place : Place} {holder selector : Node}
    (selects : (Node.member place holder selector false).selectsByText = true) :
    ∃ literalPlace text, selector = .literal literalPlace (.text text) := by
  unfold Node.selectsByText at selects
  split at selects
  · rename_i same
    cases same
    exact ⟨_, _, rfl⟩
  · rename_i same
    cases same
    cases selects
  · rename_i notMember
    exact absurd rfl (notMember place holder selector false)

/-- No property names the prototype slot. -/
theorem key_ne_proto {place : Place} {value : Node}
    (spares : (Node.property place name value).spares = true) (named : name.key = .ok key) :
    key ≠ Layout.protoKey := by
  rintro rfl
  simp [Node.spares, Node.leavesProto, Name.written_of_key named] at spares

end Node

namespace Prototype

/-- Where the prototype of objects is kept. -/
def address : Address := 3

/-- All other objects have the prototype of objects as theirs, by its address and by its frame. -/
def Shaped (base : Session) (object : Object) : Prop :=
  object = Globals.prototype base ∨
    object.proto = address ∧ object.properties.outer = (Globals.prototype base).properties.chain

/-- What is asked of values besides their layout. -/
def Fits (base : Session) : Value → Prop
  | .function closure => closure.code.body.Every Node.spares ∧
      ∀ param ∈ closure.code.params, ∀ key, param.name.key = .ok key → key ≠ Layout.intrinsicKey
  | .object object => Shaped base object
  | _ => True

/-- Scopes know the prototype of objects by one address only. -/
structure Frames (base : Session) (layout : Layout) (session : Session) : Prop where
  laid : Layout.Frames (Machine.begun base) layout session
  began : (Layout.initial base).Later layout
  seeded : (session.slots base.frames.size).address? Layout.intrinsicKey = some address
  only : ∀ frame, layout.roles[frame]? = some .scope → ∀ found,
    (session.slots frame).address? Layout.intrinsicKey = some found → found = address

/-- The prototype of objects is in its place. -/
structure Stores (base : Session) (layout : Layout) (store : Store) : Prop where
  laid : Layout.Stores .empty layout store
  fits : ∀ found, Fits base (store.get found)
  kept : store.get address = .object (Globals.prototype base)

section

variable {base session after : Session} {layout later : Layout} (frames : Frames base layout session)
include frames

/-- A slot of its own has another address, unless it is the one of a scope for the prototype. -/
theorem Frames.ne_address {frame : Nat} {key : Key} {found : Address} (own : layout.Own frame key)
    (other : key ≠ Layout.intrinsicKey ∨ layout.roles[frame]? ≠ some .scope)
    (bound : (session.slots frame).address? key = some found) : found ≠ address := by
  rintro rfl
  have globals := frames.began.role (Layout.role_globals base)
  obtain ⟨rfl, rfl⟩ :=
    frames.laid.apart frame key _ _ _ own (.inl globals) bound frames.seeded
  rcases other with different | notScope
  · exact different rfl
  · exact notScope globals

/-- Binding a name keeps the address where it does not bind the name of the prototype in a scope. -/
theorem Frames.renew (laid : Layout.Frames (Machine.begun base) later after)
    (passed : layout.Later later) (roles : later.roles = layout.roles) (grows : session.Grows after)
    (same : ∀ frame, layout.roles[frame]? = some .scope →
      (after.slots frame).address? Layout.intrinsicKey =
        (session.slots frame).address? Layout.intrinsicKey) : Frames base later after where
  laid := laid
  began := frames.began.trans passed
  seeded := grows.kept _ _ _ frames.seeded
  only frame scope found bound := by
    rw [roles] at scope
    rw [same frame scope] at bound
    exact frames.only frame scope found bound

/-- A new frame keeps the address where it does not bind anything or is no frame for names. -/
theorem Frames.push {role : Role} (laid : Layout.Frames (Machine.begun base) later after)
    (passed : layout.Later later) (roles : later.roles = layout.roles ++ [role])
    (slots : ∀ frame, frame ≠ session.frames.size → after.slots frame = session.slots frame)
    (fresh : role = .scope → after.slots session.frames.size = []) : Frames base later after := by
  have globals : base.frames.size ≠ session.frames.size := by
    rw [← frames.laid.size]
    exact Nat.ne_of_lt (Layout.native_of_scope (frames.began.role (Layout.role_globals base))).lt
  refine ⟨laid, frames.began.trans passed, ?_, ?_⟩
  · rw [slots _ globals]
    exact frames.seeded
  · intro frame scope found bound
    rw [roles] at scope
    by_cases inside : frame < layout.roles.length
    · rw [List.getElem?_append_left inside] at scope
      rw [slots frame (frames.laid.size ▸ Nat.ne_of_lt inside)] at bound
      exact frames.only frame scope found bound
    · have last : frame = layout.roles.length := by
        have limit := (List.getElem?_eq_some_iff.mp scope).1
        rw [List.length_append, List.length_singleton] at limit
        omega
      subst last
      rw [List.getElem?_append_right (Nat.le_refl _), Nat.sub_self] at scope
      rw [frames.laid.size, fresh (Option.some.inj scope)] at bound
      cases bound

end

end Prototype

/-- What is said about a run that lets the prototype of objects be. Its address may be read, but not
written. -/
def Account.prototype (base : Session) : Account where
  World := Layout
  Later := Layout.Later
  Frames := Prototype.Frames base
  Stores := Prototype.Stores base
  Good layout value := layout.Good value ∧ Prototype.Fits base value
  Readable := Layout.Handed
  Writable layout found := layout.Handed found ∧ found ≠ Prototype.address
  Sees layout scope node := layout.Visible scope ∧ node.Every Node.spares
  Stands layout control scope := layout.Visible scope ∧ control.Every Node.spares
  Binds layout scope key := layout.Visible scope ∧ key ≠ Layout.intrinsicKey
  Building layout object := (Account.layout (Machine.begun base) .empty).Building layout object ∧
    Prototype.Shaped base object
  Assigned key := key ≠ Layout.protoKey
  Rebinds := True

namespace Prototype

variable {base session : Session} {layout : Layout}

/-- A member that may be assigned to is selected by a text other than the key of prototypes. -/
theorem assignable {place : Place} {left right : Node}
    (every : (Node.assignment place .assign left right).Every Node.spares) :
    (Account.prototype base).Assignable left := by
  have spares := every _ .self
  have inner := (Node.every_iff.mp every).2 left List.mem_cons_self left .self
  simp only [Node.spares, Bool.and_eq_true] at spares inner
  cases left with
  | member memberPlace holder selector computed =>
      obtain rfl : computed = false := by simpa [Node.assignsByName] using spares.1.1.1
      obtain ⟨literalPlace, text, rfl⟩ := Node.exists_of_selectsByText inner.1.1.2
      rintro ⟨⟩
      exact absurd spares.2 (by simp [Node.leavesProto, Tree.isText])
  | _ => trivial

/-- Functions take their parameters by other names, and their bodies let the prototype be. -/
theorem fits_of_mem_codes {node : Node} {code : Code} {identity : Nat} {scope : Scope}
    (every : node.Every Node.spares) (made : code ∈ node.codes) :
    Fits base (.function ⟨identity, code, scope⟩) := by
  obtain ⟨function, inside, isCode⟩ := Node.exists_of_mem_codes node code made
  refine ⟨fun deeper within => every deeper
    ((inside.trans (.part .self (Node.body_mem_parts isCode))).trans within), ?_⟩
  intro param member key named
  refine Node.key_ne_intrinsic (Node.leavesIntrinsic_of_spares (every function inside)) ?_ named
  cases function with
  | functionExpression | functionDeclaration =>
      cases isCode
      exact List.mem_map_of_mem member
  | _ => cases isCode

variable (frames : Frames base layout session)
include frames

/-- A scope inside another one gets a frame that binds nothing yet. -/
theorem reaches_addFrame {allocator : Nat} {outer : List Nat}
    (machine : allocator = Session.machineAllocator)
    (visible : ∀ frame ∈ outer, layout.roles[frame]? = some .scope) :
    (Account.prototype base).Reaches layout (session.addFrame allocator) fun later =>
      later.Visible ⟨session.frames.size, outer⟩ := by
  obtain ⟨later, passed, laid, roles, inner⟩ :=
    @Layout.reaches_addFrame _ _ .empty _ _ _ frames.laid machine visible
  exact ⟨later, passed, frames.push laid passed roles (fun _ => session.slots_addFrame_of_ne _)
    fun _ => session.slots_addFrame_self _, inner⟩

/-- What binds a slot of its own keeps the address of the prototype, and takes another one. -/
theorem reaches_declare {frame : Nat} {key : Key} {written : Tree} (own : layout.Own frame key)
    (other : key ≠ Layout.intrinsicKey ∨ layout.roles[frame]? ≠ some .scope)
    (reaches : (Account.layout (Machine.begun base) .empty).Reaches layout
      (session.declare frame key written).2 fun later =>
        later.roles = layout.roles ∧ later.Handed (session.declare frame key written).1) :
    (Account.prototype base).Reaches layout (session.declare frame key written).2 fun later =>
      later.Handed (session.declare frame key written).1 ∧
        (session.declare frame key written).1 ≠ address := by
  obtain ⟨later, passed, laid, roles, handed⟩ := reaches
  have renewed : Frames base later (session.declare frame key written).2 := by
    refine frames.renew laid passed roles (session.grows_declare ..) fun found scope => ?_
    refine session.address?_declare_of_ne written ?_
    rcases other with different | notScope
    · exact .inr fun same => different same.symm
    · exact .inl fun same => notScope (same ▸ scope)
  have inside : frame < session.frames.size := by
    rw [← frames.laid.size]
    exact own.native.lt
  have still : later.Own frame key := by
    unfold Layout.Own
    rw [roles]
    exact own
  exact ⟨later, passed, renewed, handed, renewed.ne_address still (roles ▸ other)
    (session.address?_declare_self key written inside)⟩

/-- A property is looked for in frames of objects, so that its slot is not the one for the prototype. -/
theorem reaches_locate {object : Object} {key : Key} (written : Tree)
    (good : layout.Good (.object object)) :
    (Account.prototype base).Reaches layout (session.locate object.properties key written).2
      fun later => later.Handed (session.locate object.properties key written).1 ∧
        (key ≠ Layout.protoKey → (session.locate object.properties key written).1 ≠ address) := by
  have reaches := @Layout.reaches_locate _ _ .empty _ _ key written frames.laid good
  unfold Session.locate at reaches ⊢
  cases found : session.resolve? object.properties key with
  | some held =>
      obtain ⟨frame, member, bound⟩ := List.exists_of_findSome?_eq_some found
      obtain ⟨proto, outer, role⟩ := frames.laid.exists_outer good.chained frame member
      refine ⟨layout, .refl layout, frames, ?_, fun notProto => ?_⟩
      · exact frames.laid.slots frame (Layout.native_of_object role) key held bound
      · exact frames.ne_address (.inr ⟨⟨proto, outer, role⟩, notProto⟩) (.inr (by simp [role])) bound
  | none =>
      rw [found] at reaches
      have role : layout.roles[object.properties.inner]? = _ := good
      have notProto : key ≠ Layout.protoKey := by
        rintro rfl
        have missing := List.findSome?_eq_none_iff.mp found object.properties.inner List.mem_cons_self
        rw [(frames.laid.proto _ _ _ role).1] at missing
        cases missing
      obtain ⟨later, passed, kept, handed, different⟩ := reaches_declare frames
        (.inr ⟨⟨_, _, role⟩, notProto⟩) (.inr (by simp [role])) reaches
      exact ⟨later, passed, kept, handed, fun _ => different⟩

end Prototype

/-- Programs that write nothing under the key of prototypes keep the prototype of objects. -/
def Regime.prototype (base : Session) : Regime where
  toAccount := .prototype base
  later_refl := Layout.Later.refl
  later_trans := Layout.Later.trans
  stores_later passed stores := ⟨stores.laid.later passed, stores.fits, stores.kept⟩
  good_later passed good := ⟨good.1.later passed, good.2⟩
  readable_later passed handed := handed.later passed
  writable_later passed writable := ⟨writable.1.later passed, writable.2⟩
  sees_later passed sees := ⟨sees.1.later passed, sees.2⟩
  stands_later passed stands := ⟨stands.1.later passed, stands.2⟩
  binds_later passed binds := ⟨binds.1.later passed, binds.2⟩
  building_later passed building := ⟨⟨building.1.1.later passed, building.1.2⟩, building.2⟩
  plain {_ value} isPlain := by
    cases value <;> simp_all [Value.isPlain, Account.prototype, Layout.Good, Prototype.Fits]
  own good := good.1.1
  direct bad := nomatch bad.1
  read stores _ := ⟨stores.laid.good _, stores.fits _⟩
  write {layout store found value next} stores writable good extended := by
    refine ⟨stores.laid.extend writable.1 good.1 extended, fun other => ?_, ?_⟩
    · rw [Store.get_extend extended]
      split
      · exact good.2
      · exact stores.fits other
    · rw [Store.get_extend_of_ne extended (Ne.symm writable.2)]
      exact stores.kept
  report output journal frames :=
    ⟨frames.laid.report output journal, frames.began, frames.seeded, frames.only⟩
  sees_operand sees operand :=
    ⟨sees.1, (Node.every_iff.mp sees.2).2 _ (Node.mem_parts_of_operand operand)⟩
  sees_of_stands stands := ⟨stands.1, stands.2.1⟩
  binds_of_stands stands declared named :=
    ⟨stands.1, Node.key_ne_intrinsic_of_declares stands.2.1 declared named⟩
  flow stands flows := ⟨stands.1, flows.every (fun _ => Node.spares_exit) stands.2⟩
  assigned sees := Prototype.assignable sees.2
  close := by
    intro layout session scope node code frames sees made
    have visible := sees.1.later (.identify layout)
    refine ⟨_, .identify layout, ⟨frames.laid.identify, frames.began.trans (.identify layout),
      frames.seeded, frames.only⟩, ⟨?_, visible⟩, Prototype.fits_of_mem_codes sees.2 made⟩
    rw [frames.laid.identities]
    exact Nat.lt_succ_self _
  resolve := by
    intro layout session scope ident key found frames sees named resolved
    have handed := frames.laid.handed_of_visible sees.1 resolved
    have other : key ≠ Layout.intrinsicKey :=
      Node.key_ne_intrinsic (Node.leavesIntrinsic_of_spares (sees.2 _ .self)) List.mem_cons_self named
    obtain ⟨frame, member, bound⟩ := List.exists_of_findSome?_eq_some resolved
    exact ⟨handed, fun _ => ⟨handed, frames.ne_address (.inl (sees.1 frame member)) (.inl other) bound⟩⟩
  declare := by
    intro layout session scope key written frames binds
    have role := binds.1 scope.inner List.mem_cons_self
    exact Prototype.reaches_declare frames (.inl role) (.inl binds.2)
      (Layout.reaches_bind written frames.laid binds.1)
  opens := by
    intro layout session control scope params entered frames stands opens
    have native := Layout.native_of_scope (stands.1 scope.inner List.mem_cons_self)
    obtain ⟨every, clauses⟩ := opens.every (fun _ => Node.spares_exit) stands.2
    obtain ⟨later, passed, kept, inner⟩ :=
      Prototype.reaches_addFrame frames (frames.laid.own scope.inner native) stands.1
    refine ⟨later, passed, kept, ⟨inner, every⟩, fun param member key named => ⟨inner, ?_⟩⟩
    obtain ⟨place, body, spares⟩ := clauses param member
    exact Node.key_ne_intrinsic (Node.leavesIntrinsic_of_spares spares) List.mem_cons_self named
  enter := by
    intro layout session closure frames good
    obtain ⟨later, passed, kept, inner⟩ := Prototype.reaches_addFrame frames rfl good.1.2
    exact ⟨later, passed, kept, ⟨inner, good.2.1, trivial⟩, fun param member key named =>
      ⟨inner, good.2.2 param member key named⟩⟩
  create := by
    intro layout session store scope place properties proto frames stores sees found
    obtain ⟨frame, member, bound⟩ := List.exists_of_findSome?_eq_some found
    obtain rfl := frames.only frame (sees.1 frame member) proto bound
    obtain ⟨later, passed, laid, roles, building⟩ :=
      Layout.reaches_addObject frames.laid stores.laid sees.1 found
    refine ⟨later, passed, frames.push laid passed roles (fun _ => session.slots_addObject_of_ne _ _)
      Role.noConfusion, building, .inr ⟨rfl, ?_⟩⟩
    unfold Store.prototypeChain
    rw [stores.kept]
  fill := by
    intro layout session scope object place key name value written frames building sees named
    have role : layout.roles[object.properties.inner]? = _ := building.1.1
    have notProto := Node.key_ne_proto (sees.2 _ .self) named
    exact Prototype.reaches_declare frames (.inr ⟨⟨_, _, role⟩, notProto⟩) (.inr (by simp [role]))
      (Layout.reaches_fill written frames.laid building.1)
  finish building := ⟨building.1.1, building.2⟩
  locate := by
    intro layout session object key written frames good
    obtain ⟨later, passed, kept, handed, different⟩ := Prototype.reaches_locate frames written good.1
    exact ⟨later, passed, kept, handed, fun notProto => ⟨handed, different notProto⟩⟩

namespace Prototype

variable {base : Session}

/-- The first frames keep the prototype. -/
theorem frames_begun (allocates : Session.machineAllocator < base.allocators.size) :
    Frames base (Layout.initial base) (Machine.begun base) where
  laid := Layout.frames_begun allocates
  began := .refl _
  seeded := by
    rw [Layout.slots_begun_globals]
    rfl
  only frame scope found bound := by
    obtain foreign | ⟨rfl, -⟩ | ⟨-, object⟩ := Layout.roles_initial base scope
    · cases foreign
    · rw [Layout.slots_begun_globals] at bound
      exact (Option.some.inj bound).symm
    · cases object

theorem stores_begun : Stores base (Layout.initial base) (Globals.store base) where
  laid := Layout.stores_begun
  fits := by
    refine Globals.forall_get_store base ?_ (.inl rfl) fun _ _ => trivial
    intro value isPlain
    cases value <;> simp_all [Value.isPlain, Fits]
  kept := by
    unfold Globals.store
    rw [Store.get_insert_of_ne (by decide) (by decide), Store.get_insert_of_ne (by decide) (by decide)]
    exact Store.get_extend_self (Store.extend_of_ne (by decide))

theorem stores_of_sound {layout : Layout} {state : State}
    (sound : (Account.prototype base).Sound layout state) : Stores base layout state.store := by
  cases state <;> exact sound.1

end Prototype

/-- The globals know the prototype of objects, and all states have it in its place. Every object has a
prototype by its address that it has by its frame, too, or none at all, and all but one of them have the
prototype of objects. -/
structure Exploration.KeepsPrototype (base : Session) (held : Exploration) : Prop where
  kept : ∃ address,
    held.session.resolve? (Machine.globalScope base) (.text "%ObjectPrototype%") = some address ∧
    ∀ state ∈ held.states, state.store.get address = .object (Globals.prototype base) ∧
      ∀ found object, state.store.get found = .object object →
        object = Globals.prototype base ∨ object.proto = address
  agrees : ∀ state ∈ held.states, ∀ found object, state.store.get found = .object object →
    object.proto = 0 ∧ object.properties.outer = [] ∨
      ∃ parent, state.store.get object.proto = .object parent ∧
        object.properties.outer = parent.properties.chain

/-- An object is given a property by a literal, and another by an assignment. -/
def Sample.keeper : Tree := program
  [declare "o" (object [("k", literal "one")]), assign "o" "j" (literal "two"),
    declare "p" (object [])]

/-- The key of prototypes is assigned to. -/
def Sample.usurper : Tree := program
  [declare "o" (object []), assign "o" "__proto__" (literal "one"), declare "p" (object [])]

/-- The key of prototypes stands in a literal. -/
def Sample.pretender : Tree := program
  [declare "o" (object [("__proto__", literal "one")]), declare "p" (object [])]

namespace Machine

variable {machine : Machine} {tree : Tree} {program : Node} {base : Session} {held : Exploration}
  {count counted : Nat}

/-- A program that names no variable as the prototype of objects, and writes nothing under the key of
prototypes, keeps the prototype of objects. -/
theorem Explored.keepsPrototype (explored : machine.Explored program base held)
    (reads : tree.read count = .ok program counted) (dotted : program.Every Node.selectsByText)
    (named : program.Every Node.leavesIntrinsic) (spared : program.Every Node.leavesProto) :
    held.KeepsPrototype base := by
  have byName := Tree.assignsByName_of_read reads
  have spares : program.Every Node.spares := by
    intro node within
    simp only [Node.spares, Bool.and_eq_true]
    exact ⟨⟨⟨byName node within, dotted node within⟩, named node within⟩, spared node within⟩
  obtain ⟨layout, -, frames, sound⟩ := (Regime.prototype base).explored explored fun allocates =>
    ⟨Prototype.frames_begun allocates, Prototype.stores_begun, Layout.visible_begun, spares, trivial⟩
  have stores := fun state member => Prototype.stores_of_sound (sound state member)
  have shaped : ∀ state ∈ held.states, ∀ found object, state.store.get found = .object object →
      Prototype.Shaped base object := by
    intro state member found object stored
    have fits := (stores state member).fits found
    rw [stored] at fits
    exact fits
  constructor
  · refine ⟨Prototype.address, ?_, fun state member => ⟨(stores state member).kept, ?_⟩⟩
    · unfold Session.resolve? globalScope Scope.chain
      rw [List.findSome?_cons]
      have seeded := frames.seeded
      unfold Layout.intrinsicKey at seeded
      rw [seeded]
    · intro found object stored
      exact (shaped state member found object stored).imp_right And.left
  · intro state member found object stored
    rcases shaped state member found object stored with rfl | ⟨proto, outer⟩
    · exact .inl ⟨rfl, rfl⟩
    · exact .inr ⟨Globals.prototype base, proto ▸ (stores state member).kept, outer⟩

/-- Objects with properties of their own have the prototype of objects. -/
theorem Explored.keepsPrototype_of_keeper :
    ∃ program counted held state first second, Sample.keeper.read 0 = .ok program counted ∧
      Explored ⟨.default, none⟩ program (Session.start false) held ∧ state ∈ held.states ∧
      state.store.get 7 = .object first ∧ state.store.get 9 = .object second ∧ first ≠ second ∧
      held.KeepsPrototype (Session.start false) := by
  obtain ⟨program, counted, reads, dotted, named, spared⟩ : ∃ program counted,
      Sample.keeper.read 0 = .ok program counted ∧ program.all Node.selectsByText = true ∧
        program.all Node.leavesIntrinsic = true ∧ program.all Node.leavesProto = true :=
    Ends.exists_ok (by decide +kernel)
  obtain ⟨progress, after, ran, first, second⟩ : ∃ progress after,
      Machine.run ⟨.default, none⟩ 4 Sample.keeper (Session.start false) = .ok progress after ∧
        (progress.state.store.get 7).object? = some ⟨3, ⟨2, [1]⟩⟩ ∧
        (progress.state.store.get 9).object? = some ⟨3, ⟨3, [1]⟩⟩ := Ends.exists_ok (by decide +kernel)
  obtain ⟨states, member, explored⟩ := explored_of_run rfl reads ran
  exact ⟨program, counted, _, progress.state, _, _, reads, explored, member, Value.eq_object first,
    Value.eq_object second, by decide, explored.keepsPrototype reads (Node.every_of_all dotted)
      (Node.every_of_all named) (Node.every_of_all spared)⟩

/-- A program that names no variable as the prototype of objects comes to lose it. -/
def Loses (tree : Tree) : Prop :=
  ∃ program counted held, tree.read 0 = .ok program counted ∧ program.Every Node.selectsByText ∧
    program.Every Node.leavesIntrinsic ∧
    Explored ⟨.default, none⟩ program (Session.start false) held ∧
    ¬ held.KeepsPrototype (Session.start false)

/-- A run that ends with no object there has lost it. -/
theorem loses_of_ends {steps : Nat} {address : Address}
    (read : Ends tree.read 0 (fun program _ => program.all Node.selectsByText = true ∧
      program.all Node.leavesIntrinsic = true) fun _ _ => False)
    (ran : Ends (Machine.run ⟨.default, none⟩ steps tree) (Session.start false)
      (fun progress after => after.resolve? (globalScope (Session.start false))
          (.text "%ObjectPrototype%") = some address ∧
        (progress.state.store.get address).object? = none) fun _ _ => False) :
    Loses tree := by
  obtain ⟨program, counted, reads, dotted, named⟩ := read.exists_ok
  obtain ⟨progress, after, ran, found, lost⟩ := ran.exists_ok
  obtain ⟨states, member, explored⟩ := explored_of_run rfl reads ran
  refine ⟨program, counted, _, reads, Node.every_of_all dotted, Node.every_of_all named, explored, ?_⟩
  rintro ⟨⟨known, resolved, kept⟩, -⟩
  cases found.symm.trans resolved
  rw [(kept progress.state member).1] at lost
  cases lost

/-- What is written under the key of prototypes takes the place of the prototype of objects, whether it is
assigned to a member or stands in a literal. -/
theorem Explored.prototype_lost : Loses Sample.usurper ∧ Loses Sample.pretender :=
  ⟨@loses_of_ends _ 3 3 (by decide +kernel) (by decide +kernel),
    @loses_of_ends _ 3 3 (by decide +kernel) (by decide +kernel)⟩

end Machine

end ScriptMachine
