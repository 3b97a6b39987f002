/-
This file says that the globals are in scope wherever control stands, so that object literals always find
their prototype. Main statement: an expression can be evaluated in every scope of a state that is held, and
an object literal can be begun there.
-/

import ScriptMachine.Proofs.Confinement

namespace ScriptMachine

/-- The globals know the prototype of objects, and no frame of a run has two slots for one key. -/
structure Session.Grounded (ground : Nat) (session : Session) : Prop where
  seeded : ∃ proto, (session.slots ground).address? Layout.intrinsicKey = some proto
  distinct : ∀ frame, ground ≤ frame → ((session.slots frame).map Slot.key).Nodup

namespace Session.Grounded

variable {ground : Nat} {session after : Session} (grounded : session.Grounded ground)
include grounded

/-- Of the frames that change, each may gain slots and has one for each key. -/
theorem renew (grows : session.Grows after)
    (distinct : ∀ frame, ground ≤ frame → after.slots frame ≠ session.slots frame →
      ((after.slots frame).map Slot.key).Nodup) : after.Grounded ground where
  seeded := by
    obtain ⟨proto, found⟩ := grounded.seeded
    exact ⟨proto, grows.kept ground _ proto found⟩
  distinct frame above := by
    by_cases same : after.slots frame = session.slots frame
    · rw [same]
      exact grounded.distinct frame above
    · exact distinct frame above same

/-- Declaring keeps the session grounded. -/
theorem declare (frame : Nat) (key : Key) (written : Tree) :
    (session.declare frame key written).2.Grounded ground := by
  refine grounded.renew (session.grows_declare frame key written) fun other above changed => ?_
  obtain rfl : other = frame :=
    Classical.byContradiction fun different => changed (session.slots_declare_of_ne _ _ different)
  cases bound : (session.slots other).address? key with
  | some address =>
      rw [Session.declare_of_bound bound] at changed
      exact absurd rfl changed
  | none =>
      have inside : other < session.frames.size := by
        refine Classical.byContradiction fun outside => changed ?_
        rw [Session.slots_of_not_lt outside, Session.slots_of_not_lt (by rwa [session.size_declare])]
      rw [session.slots_declare_of_missing _ inside bound, List.map_append, List.nodup_append]
      refine ⟨grounded.distinct other above, by simp, ?_⟩
      rintro found member new among rfl
      obtain rfl : found = key := by simpa using among
      exact Slots.address?_eq_none_iff.mp bound member

theorem addFrame (allocator : Nat) : (session.addFrame allocator).Grounded ground := by
  refine grounded.renew (session.grows_addFrame allocator) fun frame _ changed => ?_
  obtain rfl : frame = session.frames.size :=
    Classical.byContradiction fun different => changed (session.slots_addFrame_of_ne _ different)
  rw [session.slots_addFrame_self]
  exact List.nodup_nil

theorem addObject (allocator : Nat) (proto : Address) :
    (session.addObject allocator proto).Grounded ground := by
  refine grounded.renew (session.grows_addObject allocator proto) fun frame _ changed => ?_
  obtain rfl : frame = session.frames.size :=
    Classical.byContradiction fun different => changed (session.slots_addObject_of_ne _ _ different)
  rw [session.slots_addObject_self]
  simp

theorem locate (scope : Scope) (key : Key) (written : Tree) :
    (session.locate scope key written).2.Grounded ground := by
  unfold Session.locate
  split
  · exact grounded
  · exact grounded.declare _ _ _

end Session.Grounded

/-- Functions are closed over scopes that end at the globals. -/
def Value.Grounded (ground : Nat) : Value → Prop
  | .function closure => ground ∈ closure.scope.chain
  | .builtin _ _ _ routine => routine.isOwn = true
  | .reference .. => False
  | _ => True

theorem Value.grounded_of_isPlain {ground : Nat} {value : Value} (plain : value.isPlain = true) :
    value.Grounded ground := by
  cases value <;> simp_all [Value.isPlain, Value.Grounded]

/-- Wherever control stands, the globals are in scope. -/
def Account.grounded (ground : Nat) : Account where
  World := Unit
  Later _ _ := True
  Frames _ session := session.Grounded ground
  Stores _ store := ∀ address, (store.get address).Grounded ground
  Good _ value := value.Grounded ground
  Readable _ _ := True
  Writable _ _ := True
  Sees _ scope _ := ground ∈ scope.chain
  Stands _ _ scope := ground ∈ scope.chain
  Binds _ _ _ := True
  Building _ _ := True
  Assigned _ := True
  Rebinds := True

def Regime.grounded (ground : Nat) : Regime where
  toAccount := .grounded ground
  later_refl _ := trivial
  later_trans _ _ := trivial
  stores_later _ stores := stores
  good_later _ good := good
  readable_later _ _ := trivial
  writable_later _ _ := trivial
  sees_later _ sees := sees
  stands_later _ stands := stands
  binds_later _ _ := trivial
  building_later _ _ := trivial
  plain isPlain := Value.grounded_of_isPlain isPlain
  own good := good
  direct bad := bad
  read stores _ := stores _
  write := by
    intro _ store address value next stores _ good extended found
    rw [Store.get_extend extended]
    split
    · exact good
    · exact stores found
  report _ _ frames := ⟨frames.seeded, frames.distinct⟩
  sees_operand sees _ := sees
  sees_of_stands stands := stands
  binds_of_stands _ _ _ := trivial
  flow stands _ := stands
  assigned := by
    intro _ _ place left right _
    unfold Account.Assignable
    split <;> intros <;> trivial
  close frames sees _ := ⟨(), trivial, ⟨frames.seeded, frames.distinct⟩, sees⟩
  resolve _ _ _ _ := ⟨trivial, fun _ => trivial⟩
  declare written frames _ := ⟨(), trivial, frames.declare _ _ written, trivial⟩
  opens frames stands _ :=
    ⟨(), trivial, frames.addFrame _, List.mem_cons_of_mem _ stands, fun _ _ _ _ => trivial⟩
  enter frames good :=
    ⟨(), trivial, frames.addFrame _, List.mem_cons_of_mem _ good, fun _ _ _ _ => trivial⟩
  create frames _ _ _ := ⟨(), trivial, frames.addObject _ _, trivial⟩
  fill written frames _ _ _ := ⟨(), trivial, frames.declare _ _ written, trivial⟩
  finish _ := trivial
  locate written frames _ := ⟨(), trivial, frames.locate _ _ written, trivial, fun _ => trivial⟩

/-- The first session is grounded above the base. -/
theorem Session.grounded_begun (base : Session) : (Machine.begun base).Grounded base.frames.size where
  seeded := by
    rw [Layout.slots_begun_globals]
    exact ⟨3, by decide⟩
  distinct frame above := by
    by_cases first : frame = base.frames.size
    · rw [first, Layout.slots_begun_globals]
      decide
    · by_cases second : frame = base.frames.size + 1
      · rw [second, Layout.slots_begun_prototype]
        decide
      · rw [Session.slots_of_not_lt]
        · exact List.nodup_nil
        · simp [Machine.begun, Globals.underway]
          omega

/-- An object literal begins with an object that has no properties yet. -/
def Scope.beginObject (scope : Scope) : Draft Object := do
  let proto ← scope.resolve Globals.objectPrototype
  Object.create proto (← Draft.store) Session.machineAllocator

/-- A moment at which expressions are evaluated in a scope: all is laid out well, and the globals are in
scope. -/
structure Scope.Placed (base : Session) (layout : Layout) (scope : Scope) (scratch : Scratch) : Prop where
  laid : (Regime.layout (Machine.begun base) .empty).Holds layout scratch
  grounded : (Regime.grounded base.frames.size).Holds () scratch
  visible : layout.Visible scope
  ground : base.frames.size ∈ scope.chain

namespace Scope.Placed

variable {base : Session} {layout : Layout} {scope : Scope} {scratch after : Scratch}
  (placed : scope.Placed base layout scratch) (inverted : Bool)
include placed

/-- Work that keeps regimes leads from one such moment to another. -/
theorem of_keeps {A : Type} {work : Draft A} {result : A} {good : Layout → A → Prop} {also : Unit → A → Prop}
    (keeps : (Regime.layout (Machine.begun base) .empty).Keeps layout scratch work good)
    (keepsAgain : (Regime.grounded base.frames.size).Keeps () scratch work also)
    (ended : work scratch = .ok result after) :
    ∃ later, layout.Later later ∧ scope.Placed base later after ∧ good later result ∧ also () result := by
  obtain ⟨later, passed, frames, stores, holds⟩ := keeps.of_ok ended
  obtain ⟨_, _, grounds, closed, holdsAgain⟩ := keepsAgain.of_ok ended
  exact ⟨later, passed, ⟨⟨frames, stores⟩, ⟨grounds, closed⟩, placed.visible.later passed, placed.ground⟩,
    holds, holdsAgain⟩

/-- A value found by evaluating is placed. -/
theorem value {node : Node} {value : Value} (ended : node.value inverted scope scratch = .ok value after) :
    ∃ later, layout.Later later ∧ scope.Placed base later after ∧ later.Good value ∧
      value.Grounded base.frames.size := by
  let regime := Regime.layout (Machine.begun base) .empty
  let grounding := Regime.grounded base.frames.size
  have sees : regime.Sees layout scope node := placed.visible
  have seesAgain : grounding.Sees () scope node := placed.ground
  obtain ⟨later, passed, reached, good, grounded⟩ :=
    placed.of_keeps (regime.keeps_value inverted placed.laid sees)
      (grounding.keeps_value inverted placed.grounded seesAgain) ended
  exact ⟨later, passed, reached, good, grounded⟩

/-- Values found by evaluating are placed. -/
theorem values {nodes : List Node} {values : List Value}
    (ended : Node.values inverted scope nodes scratch = .ok values after) :
    ∃ later, layout.Later later ∧ scope.Placed base later after := by
  let regime := Regime.layout (Machine.begun base) .empty
  let grounding := Regime.grounded base.frames.size
  have sees : ∀ node ∈ nodes, regime.Sees layout scope node := fun _ _ => placed.visible
  have seesAgain : ∀ node ∈ nodes, grounding.Sees () scope node := fun _ _ => placed.ground
  obtain ⟨later, passed, reached, -⟩ := placed.of_keeps (regime.keeps_values inverted placed.laid sees)
    (grounding.keeps_values inverted placed.grounded seesAgain) ended
  exact ⟨later, passed, reached⟩

theorem evaluateProperties {object : Object} {properties : List Node}
    (building : (Account.layout (Machine.begun base) .empty).Building layout object)
    (ended : Node.evaluateProperties inverted scope object properties scratch = .ok () after) :
    ∃ later, layout.Later later ∧ scope.Placed base later after := by
  let regime := Regime.layout (Machine.begun base) .empty
  let grounding := Regime.grounded base.frames.size
  have sees : ∀ property ∈ properties, regime.Sees layout scope property := fun _ _ => placed.visible
  have seesAgain : ∀ property ∈ properties, grounding.Sees () scope property := fun _ _ => placed.ground
  obtain ⟨later, passed, reached, -⟩ := placed.of_keeps
    (regime.evaluateProperties inverted object properties sees placed.laid building)
    (grounding.evaluateProperties inverted object properties seesAgain placed.grounded trivial) ended
  exact ⟨later, passed, reached⟩

/-- An object literal can always be begun. -/
theorem beginObject : ∃ object created later, scope.beginObject scratch = .ok object created ∧
    layout.Later later ∧ scope.Placed base later created ∧ object.proto ≠ 0 ∧
    (Account.layout (Machine.begun base) .empty).Building later object := by
  obtain ⟨seed, seeded⟩ := placed.grounded.frames.seeded
  have isFound : (scratch.session.resolve? scope Layout.intrinsicKey).isSome = true := by
    rw [Session.resolve?, List.findSome?_isSome_iff]
    exact ⟨base.frames.size, placed.ground, by rw [seeded]; rfl⟩
  obtain ⟨proto, found⟩ := Option.isSome_iff_exists.mp isFound
  obtain ⟨later, passed, frames, -, building⟩ :=
    Layout.reaches_addObject placed.laid.frames placed.laid.stores placed.visible found
  have begins : scope.beginObject scratch =
      .ok ⟨proto, ⟨scratch.session.frames.size, scratch.store.prototypeChain proto⟩⟩
        ⟨scratch.session.addObject Session.machineAllocator proto, scratch.store⟩ := by
    refine Ends.eq_ok ?_
    unfold Scope.beginObject
    simp only [ends_bind, ends_liftAction, ends_resolve, Globals.objectPrototype, Name.key_ofText,
      ends_store, ends_create]
    rw [show Key.text "%ObjectPrototype%" = Layout.intrinsicKey from rfl, found]
    exact ⟨rfl, rfl⟩
  refine ⟨_, _, later, begins, passed, ?_, ?_, building⟩
  · exact ⟨⟨frames, placed.laid.stores.later passed⟩,
      ⟨placed.grounded.frames.addObject _ _, placed.grounded.stores⟩, placed.visible.later passed,
      placed.ground⟩
  · obtain ⟨frame, member, bound⟩ := List.exists_of_findSome?_eq_some found
    exact placed.laid.frames.present _ _ _ (.inl (placed.visible frame member)) bound

end Scope.Placed

namespace Machine

variable {machine : Machine} {program : Node} {base : Session} {held : Exploration} {state : State}
  {scope : Scope}

/-- In every scope of a state that is held, expressions can be evaluated. -/
theorem Explored.placed (explored : machine.Explored program base held) (member : state ∈ held.states)
    (uses : state.Uses scope) : ∃ layout, scope.Placed base layout ⟨held.session, state.store⟩ := by
  let regime := Regime.grounded base.frames.size
  obtain ⟨layout, -, laid, sound⟩ := explored.layout
  have grounds : regime.Reaches () held.session fun later =>
      ∀ state ∈ held.states, regime.Sound later state :=
    regime.explored explored fun _ => ⟨Session.grounded_begun base,
      Globals.forall_get_store base Value.grounded_of_isPlain trivial fun _ isOwn => isOwn,
      List.mem_singleton_self _⟩
  obtain ⟨_, _, grounded, soundAgain⟩ := grounds
  have closed : regime.Stores () state.store := Account.stores_of_sound (soundAgain state member)
  refine ⟨layout, ⟨laid, Layout.stores_of_sound (sound state member)⟩, ⟨grounded, closed⟩,
    Layout.visible_of_uses (sound state member) uses, ?_⟩
  rcases uses with goesOn | ⟨address, closure, stored, same⟩
  · obtain ⟨_, ground⟩ := Account.exists_stands (soundAgain state member) goesOn
    exact ground
  · have good : (state.store.get address).Grounded base.frames.size := closed address
    rw [stored] at good
    rw [← same]
    exact good

end Machine

end ScriptMachine
