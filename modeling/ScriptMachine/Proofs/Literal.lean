/-
This file says what object literals make. Main statement: a literal whose values can be evaluated gives a new
object with one slot for each of its keys, and each slot holds the value that its key was given last.
-/

import ScriptMachine.Proofs.Keys

namespace ScriptMachine

/-- A value that leads to no property of the object with the given frame. -/
def Value.Avoids (frame : Nat) : Value → Prop
  | .object held => frame ∉ held.properties.chain
  | _ => True

variable {frame : Nat} {value : Value} {layout : Layout} {key : Key}

theorem Value.avoids_of_isPlain (plain : value.isPlain = true) : value.Avoids frame := by
  cases value with
  | object => cases plain
  | _ => trivial

/-- What stands around a new object avoids what stored values avoid. -/
theorem Store.not_mem_prototypeChain {store : Store} (avoids : ∀ address, (store.get address).Avoids frame)
    (proto : Address) : frame ∉ store.prototypeChain proto := by
  have held := avoids proto
  unfold Store.prototypeChain
  split
  · rename_i object stored
    rw [stored] at held
    exact held
  · exact List.not_mem_nil

variable {outer : List Nat} {entries : List (Key × Value)} {scope : Scope}

/-- The address of a property belongs to no slot of another frame. -/
theorem Layout.Frames.ne_of_elsewhere {since session : Session} (laid : Layout.Frames since layout session)
    {other : Nat} {found : Key} {address proto : Address}
    (role : layout.roles[frame]? = some (.object proto outer)) (ordinary : key ≠ protoKey)
    (native : layout.Native other) (different : other ≠ frame)
    (bound : (session.slots other).address? found = some address) :
    (session.slots frame).address? key ≠ some address := by
  intro held
  have own : layout.Own frame key := .inr ⟨⟨proto, outer, role⟩, ordinary⟩
  by_cases shared : layout.Own other found
  · exact different (laid.apart other found frame key address shared own bound held).1
  · -- the address of a prototype belongs to a slot of a scope, or is null
    obtain ⟨rfl, around, known⟩ := laid.proto_of_not_own native shared bound
    obtain ⟨-, rfl | ⟨scope, scopeRole, scopeBound⟩⟩ := laid.proto other address around known
    · exact laid.present frame key 0 own held rfl
    · obtain ⟨rfl, -⟩ := laid.apart scope intrinsicKey frame key address (.inl scopeRole) own scopeBound held
      cases role.symm.trans scopeRole

/-- The object with the given frame has been set aside: nothing that is evaluated leads to it, and it is as it
was before. -/
structure Layout.Aside (since : Session) (frame : Nat) (before : Scratch) (layout : Layout)
    (session : Session) : Prop where
  laid : Layout.Frames since layout session
  role : ∃ proto outer, layout.roles[frame]? = some (.object proto outer)
  slots : session.slots frame = before.session.slots frame

/-- No stored value leads to the object that has been set aside, and its properties hold what they held. -/
structure Layout.Untouched (frame : Nat) (before : Scratch) (layout : Layout) (store : Store) : Prop where
  laid : Layout.Stores .empty layout store
  avoids : ∀ address, (store.get address).Avoids frame
  values : ∀ key address, key ≠ protoKey → (before.session.slots frame).address? key = some address →
    store.get address = before.store.get address ∧ store.contains address = before.store.contains address

/-- An address that is not one of a property of the object that has been set aside. -/
structure Layout.Elsewhere (frame : Nat) (before : Scratch) (layout : Layout) (address : Address) : Prop where
  handed : layout.Handed address
  apart : ∀ key, key ≠ protoKey → (before.session.slots frame).address? key ≠ some address

/-- What is said while an expression is evaluated and an object is set aside. -/
def Account.aside (since : Session) (frame : Nat) (before : Scratch) : Account where
  World := Layout
  Later := Layout.Later
  Frames := Layout.Aside since frame before
  Stores := Layout.Untouched frame before
  Good layout value := layout.Good value ∧ value.Avoids frame
  Readable := Layout.Handed
  Writable := Layout.Elsewhere frame before
  Sees layout scope _ := layout.Visible scope
  Stands _ _ _ := False
  Binds _ _ _ := False
  Building layout object :=
    (Account.layout since .empty).Building layout object ∧ frame ∉ object.properties.chain
  Assigned _ := True
  Rebinds := True

namespace Layout

variable {since session after : Session} {frame : Nat} {before : Scratch} {layout later : Layout}
  {store next : Store}

/-- What changes other frames only leaves the object aside. -/
theorem Aside.renew (aside : Aside since frame before layout session) (passed : layout.Later later)
    (laid : Frames since later after) (same : after.slots frame = session.slots frame) :
    Aside since frame before later after where
  laid := laid
  role := by
    obtain ⟨proto, outer, role⟩ := aside.role
    exact ⟨proto, outer, passed.role role⟩
  slots := same.trans aside.slots

theorem Aside.lt (aside : Aside since frame before layout session) : frame < session.frames.size := by
  obtain ⟨proto, outer, role⟩ := aside.role
  rw [← aside.laid.size]
  exact (native_of_object role).lt

variable {address : Address} {other : Nat}

/-- What another frame binds is written to without harm. -/
theorem Aside.elsewhere (aside : Aside since frame before layout session) {found : Key}
    (native : layout.Native other) (different : other ≠ frame)
    (bound : (session.slots other).address? found = some address) :
    layout.Elsewhere frame before address where
  handed := aside.laid.slots other native found address bound
  apart key ordinary := by
    obtain ⟨proto, outer, role⟩ := aside.role
    rw [← aside.slots]
    exact aside.laid.ne_of_elsewhere role ordinary native different bound

/-- What a visible scope resolves lies elsewhere. -/
theorem Aside.elsewhere_of_visible (aside : Aside since frame before layout session) {scope : Scope}
    (visible : layout.Visible scope) (found : session.resolve? scope key = some address) :
    layout.Elsewhere frame before address := by
  obtain ⟨other, member, bound⟩ := List.exists_of_findSome?_eq_some found
  have seen := visible other member
  refine aside.elsewhere (native_of_scope seen) ?_ bound
  rintro rfl
  obtain ⟨proto, outer, role⟩ := aside.role
  cases seen.symm.trans role

/-- A write elsewhere leaves the frame untouched. -/
theorem Untouched.extend (untouched : Untouched frame before layout store)
    (elsewhere : layout.Elsewhere frame before address) (good : layout.Good value)
    (avoids : value.Avoids frame) (extended : store.extend address value = .ok next) :
    Untouched frame before layout next where
  laid := untouched.laid.extend elsewhere.handed good extended
  avoids other := by
    rw [Store.get_extend extended]
    split
    · exact avoids
    · exact untouched.avoids other
  values key other ordinary bound := by
    have different : other ≠ address := by
      rintro rfl
      exact elsewhere.apart key ordinary bound
    rw [Store.get_extend_of_ne extended different, Store.contains_extend_of_ne extended different]
    exact untouched.values key other ordinary bound

/-- Another object binds a key. -/
theorem Aside.reaches_declare (aside : Aside since frame before layout session) (written : Tree)
    (native : layout.Native other) (different : other ≠ frame) (passed : layout.Later later)
    (laid : Frames since later (session.declare other key written).2) :
    Aside since frame before later (session.declare other key written).2 ∧
      later.Elsewhere frame before (session.declare other key written).1 := by
  have renewed := aside.renew passed laid (session.slots_declare_of_ne key written (Ne.symm different))
  have inside : other < session.frames.size := by
    rw [← aside.laid.size]
    exact native.lt
  exact ⟨renewed, renewed.elsewhere (native.later passed) different (Session.address?_declare_self _ _ inside)⟩

end Layout

/-- Evaluation leaves an object alone that no value leads to. -/
def Inquiry.aside (since : Session) (frame : Nat) (before : Scratch) : Inquiry where
  toAccount := .aside since frame before
  later_refl := Layout.Later.refl
  later_trans := Layout.Later.trans
  stores_later passed untouched := ⟨untouched.laid.later passed, untouched.avoids, untouched.values⟩
  good_later passed good := ⟨good.1.later passed, good.2⟩
  readable_later passed handed := handed.later passed
  writable_later passed elsewhere := ⟨elsewhere.handed.later passed, elsewhere.apart⟩
  sees_later passed visible := visible.later passed
  building_later passed building := ⟨⟨building.1.1.later passed, building.1.2⟩, building.2⟩
  plain isPlain := ⟨Layout.good_of_isPlain isPlain, Value.avoids_of_isPlain isPlain⟩
  direct bad := nomatch bad.1
  read untouched _ := ⟨untouched.laid.good _, untouched.avoids _⟩
  write untouched elsewhere good extended := untouched.extend elsewhere good.1 good.2 extended
  report output journal aside := aside.renew (.refl _) (aside.laid.report output journal) rfl
  sees_operand visible _ := visible
  assigned {_ _ _ left _} _ := by
    unfold Account.Assignable
    split <;> intros <;> trivial
  close := by
    intro layout session scope node code aside visible _
    have passed := Layout.Later.identify layout
    refine ⟨_, passed, aside.renew passed aside.laid.identify rfl, ⟨?_, visible.later passed⟩, trivial⟩
    rw [aside.laid.identities]
    exact Nat.lt_succ_self _
  resolve aside visible _ found :=
    ⟨aside.laid.handed_of_visible visible found, fun _ => aside.elsewhere_of_visible visible found⟩
  create := by
    intro layout session store scope place properties proto aside untouched visible found
    obtain ⟨later, passed, laid, -, building⟩ :=
      Layout.reaches_addObject aside.laid untouched.laid visible found
    have different : frame ≠ session.frames.size := Nat.ne_of_lt aside.lt
    refine ⟨later, passed, aside.renew passed laid (session.slots_addObject_of_ne _ _ different), building, ?_⟩
    exact List.not_mem_cons_of_ne_of_not_mem different (Store.not_mem_prototypeChain untouched.avoids proto)
  fill := by
    intro layout session scope object place key name value written aside building _ _
    obtain ⟨later, passed, laid, -, -⟩ := Layout.reaches_fill written aside.laid building.1
    have different : object.properties.inner ≠ frame := fun same =>
      building.2 (same ▸ List.mem_cons_self)
    have native := Layout.native_of_object building.1.1
    exact ⟨later, passed, aside.reaches_declare written native different passed laid⟩
  finish building := ⟨building.1.1, building.2⟩
  locate := by
    intro layout session object key written aside good
    obtain ⟨later, passed, laid, -⟩ :=
      @Layout.reaches_locate since session .empty layout object key written aside.laid good.1
    have around : ∀ other ∈ object.properties.chain, other ≠ frame := fun other member same =>
      good.2 (same ▸ member)
    unfold Session.locate at laid ⊢
    cases found : session.resolve? object.properties key with
    | some address =>
        obtain ⟨other, member, bound⟩ := List.exists_of_findSome?_eq_some found
        have native := aside.laid.native_of_chained good.1.chained other member
        have elsewhere := aside.elsewhere native (around other member) bound
        exact ⟨layout, .refl layout, aside, elsewhere.handed, fun _ => elsewhere⟩
    | none =>
        rw [found] at laid
        obtain ⟨renewed, elsewhere⟩ := aside.reaches_declare written (Layout.native_of_object good.1)
          (around _ List.mem_cons_self) passed laid
        exact ⟨later, passed, renewed, elsewhere.handed, fun _ => elsewhere⟩

/-- A property is bound in a frame and given a value. -/
def Scratch.fill (scratch : Scratch) (frame : Nat) (key : Key) (written : Tree) (value : Value) : Scratch :=
  ⟨(scratch.session.declare frame key written).2,
    scratch.store.insert (scratch.session.declare frame key written).1 value⟩

variable {scratch : Scratch}

/-- The values of properties are evaluated one after the other, each of them once those before it have been
bound in the frame of a new object. -/
inductive Node.Entered (inverted : Bool) (scope : Scope) (frame : Nat) :
    List Node → Scratch → List (Key × Value) → Scratch → Prop where
  | nil {scratch : Scratch} : Entered inverted scope frame [] scratch [] scratch
  | cons {place : Place} {name : Name} {expression : Node} {key : Key} {value : Value} {properties : List Node}
      {entries : List (Key × Value)} {start evaluated final : Scratch} (named : name.key = .ok key)
      (valued : expression.value inverted scope start = .ok value evaluated)
      (rest : Entered inverted scope frame properties (evaluated.fill frame key name.written value) entries
        final) :
      Entered inverted scope frame (.property place name expression :: properties) start
        ((key, value) :: entries) final

/-- What an object has been given so far, since a moment before it was made. -/
structure Object.Holds (object : Object) (start : Scratch) (entries : List (Key × Value)) (scratch : Scratch) :
    Prop where
  keys : (scratch.session.slots object.properties.inner).map Slot.key =
    Layout.protoKey :: (entries.map Prod.fst).eraseDups
  fresh : ∀ key (address : Int), key ≠ Layout.protoKey →
    (scratch.session.slots object.properties.inner).address? key = some address →
    start.session.allocated Session.machineAllocator < address
  values : ∀ key value, key ≠ Layout.protoKey → entries.reverse.lookup key = some value →
    ∃ address, (scratch.session.slots object.properties.inner).address? key = some address ∧
      scratch.store.contains address = true ∧ scratch.store.get address = value
  avoids : ∀ address, (scratch.store.get address).Avoids object.properties.inner

variable {object : Object}

/-- A last key counts unless it is there already. -/
theorem eraseDups_concat {keys : List Key} :
    (keys ++ [key]).eraseDups = if key ∈ keys then keys.eraseDups else keys.eraseDups ++ [key] := by
  rw [List.eraseDups_append]
  split
  · rename_i known
    simp [List.removeAll, known]
  · rename_i unknown
    simp [List.removeAll, List.eraseDups_cons, unknown]

/-- A further property is given to an object that nothing else has changed. Its slot is new, or it is the one
that the key had before. -/
theorem Object.Holds.fill {start after : Scratch} {written : Tree}
    (holds : object.Holds start entries scratch)
    (same : after.session.slots object.properties.inner = scratch.session.slots object.properties.inner)
    (untouched : layout.Untouched object.properties.inner scratch after.store)
    (inside : object.properties.inner < after.session.frames.size) (ordinary : key ≠ Layout.protoKey)
    (avoids : value.Avoids object.properties.inner)
    (notNull : (after.session.declare object.properties.inner key written).1 ≠ 0)
    (fresh : (after.session.slots object.properties.inner).address? key = none →
      start.session.allocated Session.machineAllocator <
        (after.session.declare object.properties.inner key written).1)
    (apart : ∀ found, found ≠ Layout.protoKey →
      ((after.session.declare object.properties.inner key written).2.slots object.properties.inner).address?
        found = some (after.session.declare object.properties.inner key written).1 → found = key) :
    object.Holds start (entries ++ [(key, value)]) (after.fill object.properties.inner key written value) := by
  have extended := @Store.extend_of_ne after.store _ value notNull
  have self := Session.address?_declare_self key written inside
  have kept {found : Key} (other : found ≠ key) :
      ((after.session.declare object.properties.inner key written).2.slots object.properties.inner).address?
        found = (scratch.session.slots object.properties.inner).address? found := by
    rw [Session.address?_declare_of_ne _ _ (.inr other), same]
  have known : key ∈ entries.map Prod.fst ↔
      (after.session.slots object.properties.inner).address? key ≠ none := by
    rw [same, ne_eq, Slots.address?_eq_none_iff, Decidable.not_not, holds.keys]
    simp [ordinary, List.mem_eraseDups]
  exact {
    keys := by
      unfold Scratch.fill
      rw [List.map_append, List.map_singleton, eraseDups_concat]
      cases bound : (after.session.slots object.properties.inner).address? key with
      | some address =>
          -- A key that comes again keeps the place where it came first.
          rw [if_pos (known.mpr (by simp [bound])), Session.declare_of_bound bound, same]
          exact holds.keys
      | none =>
          rw [if_neg fun member => known.mp member bound, Session.slots_declare_of_missing _ inside bound,
            List.map_append, same, holds.keys]
          rfl
    fresh := by
      intro found address other held
      by_cases again : found = key
      · subst again
        cases self.symm.trans held
        cases bound : (after.session.slots object.properties.inner).address? found with
        | none => exact fresh bound
        | some address =>
            rw [Session.declare_of_bound bound]
            exact holds.fresh found address other (same ▸ bound)
      · exact holds.fresh found address other ((kept again).symm.trans held)
    values := by
      intro found given other last
      rw [List.reverse_append, List.reverse_singleton, List.singleton_append, List.lookup_cons] at last
      by_cases again : found = key
      · subst again
        rw [beq_self_eq_true] at last
        cases last
        exact ⟨_, self, by simp [Scratch.fill, Store.contains, Store.insert], Store.get_extend_self extended⟩
      · rw [beq_false_of_ne again] at last
        obtain ⟨address, held, contained, stored⟩ := holds.values found given other last
        -- No other key of the object has the address that is written to.
        have different : address ≠ (after.session.declare object.properties.inner key written).1 := by
          rintro rfl
          exact again (apart found other ((kept again).trans held))
        obtain ⟨stays, staysContained⟩ := untouched.values found address other held
        refine ⟨address, (kept again).trans held, ?_, ?_⟩
        · exact (Store.contains_extend_of_ne extended different).trans (staysContained.trans contained)
        · exact (Store.get_extend_of_ne extended different).trans (stays.trans stored)
    avoids := by
      intro address
      unfold Scratch.fill
      by_cases again : address = (after.session.declare object.properties.inner key written).1
      · rw [again, Store.get_extend_self extended]
        exact avoids
      · rw [Store.get_extend_of_ne extended again]
        exact untouched.avoids address }

namespace Scope.Placed

variable {base : Session} {layout : Layout} {scope : Scope} {scratch after : Scratch} {object : Object}
  {inverted : Bool}

/-- While the value of a property is evaluated, the new object is out of reach. -/
theorem value_aside (placed : scope.Placed base layout scratch)
    (building : (Account.layout (Machine.begun base) .empty).Building layout object)
    (avoids : ∀ address, (scratch.store.get address).Avoids object.properties.inner) {node : Node}
    (ended : node.value inverted scope scratch = .ok value after) :
    value.Avoids object.properties.inner ∧
      ∃ layout, Layout.Aside (Machine.begun base) object.properties.inner scratch layout after.session ∧
        Layout.Untouched object.properties.inner scratch layout after.store := by
  let inquiry := Inquiry.aside (Machine.begun base) object.properties.inner scratch
  have holds : inquiry.Holds layout scratch :=
    ⟨⟨placed.laid.frames, ⟨_, _, building.1⟩, rfl⟩, ⟨placed.laid.stores, avoids, fun _ _ _ _ => ⟨rfl, rfl⟩⟩⟩
  have sees : inquiry.Sees layout scope node := placed.visible
  have keeps : inquiry.Keeps layout scratch (node.value inverted scope) inquiry.Good :=
    inquiry.keeps_bind (inquiry.evaluate inverted node holds sees) fun _ _ _ _ held denotes =>
      inquiry.keeps_read held denotes
  obtain ⟨later, -, aside, untouched, good⟩ := keeps.of_ok ended
  exact ⟨good.2, later, aside, untouched⟩

/-- What is written into a slot of the new object. -/
theorem fill_holds (placed : scope.Placed base layout scratch)
    (building : (Account.layout (Machine.begun base) .empty).Building layout object) {start : Scratch}
    (grown : start.session.allocated Session.machineAllocator ≤ layout.allocated)
    {entries : List (Key × Value)} (holds : object.Holds start entries scratch) {expression : Node}
    (written : Tree) (ordinary : key ≠ Layout.protoKey)
    (valued : expression.value inverted scope scratch = .ok value after) :
    (after.session.declare object.properties.inner key written).1 ≠ 0 ∧
      (∃ later, layout.Later later ∧
        scope.Placed base later (after.fill object.properties.inner key written value)) ∧
      object.Holds start (entries ++ [(key, value)])
        (after.fill object.properties.inner key written value) := by
  obtain ⟨avoids, _, aside, untouched⟩ := placed.value_aside building holds.avoids valued
  obtain ⟨middle, passed, reached, good, grounded⟩ := placed.value inverted valued
  have built := (Regime.layout (Machine.begun base) .empty).building_later passed building
  obtain ⟨later, further, frames, -, handed⟩ :=
    @Layout.reaches_fill _ after.session .empty middle object key written reached.laid.frames built
  have inside : object.properties.inner < after.session.frames.size := aside.lt
  have bound := Session.address?_declare_self key written inside
  have role : later.roles[object.properties.inner]? = some (.object object.proto object.properties.outer) :=
    built.1.later further
  have own {found : Key} (other : found ≠ Layout.protoKey) : later.Own object.properties.inner found :=
    .inr ⟨⟨_, _, role⟩, other⟩
  have notNull := frames.present _ _ _ (own ordinary) bound
  have extended := @Store.extend_of_ne after.store _ value notNull
  refine ⟨notNull, ⟨later, passed.trans further, ?_⟩, ?_⟩
  · exact ⟨⟨frames, (reached.laid.stores.later further).extend handed (good.later further) extended⟩,
      ⟨reached.grounded.frames.declare _ _ _, (Regime.grounded base.frames.size).write reached.grounded.stores
        trivial grounded extended⟩, reached.visible.later further, reached.ground⟩
  · refine holds.fill aside.slots untouched inside ordinary avoids notNull ?_ ?_
    · intro missing
      have next := reached.laid.frames.lt_declare written (Layout.native_of_object built.1) missing
      exact Int.lt_of_le_of_lt (Int.ofNat_le.mpr (Nat.le_trans grown passed.allocated)) next
    · intro found other held
      exact (frames.apart _ found _ key _ (own other) (own ordinary) held bound).2

end Scope.Placed

theorem Scratch.fill_eq {name : Name} (named : name.key = .ok key)
    (notNull : (scratch.session.declare object.properties.inner key name.written).1 ≠ 0) (rest : Draft Unit) :
    (do
      Draft.extend (← object.properties.declare name) value
      rest : Draft Unit) scratch = rest (scratch.fill object.properties.inner key name.written value) := by
  have declares : (liftM (object.properties.declare name) : Draft Address) scratch =
      .ok (scratch.session.declare object.properties.inner key name.written).1
        ⟨(scratch.session.declare object.properties.inner key name.written).2, scratch.store⟩ := by
    apply Ends.eq_ok
    simp only [ends_liftAction, ends_declare, named, and_self]
  have extended : Draft.extend (scratch.session.declare object.properties.inner key name.written).1 value
      ⟨(scratch.session.declare object.properties.inner key name.written).2, scratch.store⟩ =
      .ok () (scratch.fill object.properties.inner key name.written value) := by
    apply Ends.eq_ok
    rw [ends_extend, Store.extend_of_ne notNull]
    exact ⟨rfl, rfl⟩
  rw [bind_of_ok declares, bind_of_ok extended]

/-- Properties that can be entered are given to the new object one after the other. -/
theorem Node.Entered.holds {base : Session} {inverted : Bool} {properties : List Node}
    {start final : Scratch}
    (entered : Node.Entered inverted scope object.properties.inner properties scratch entries final)
    (ordinary : ∀ entry ∈ entries, entry.1 ≠ Layout.protoKey) (placed : scope.Placed base layout scratch)
    (building : (Account.layout (Machine.begun base) .empty).Building layout object)
    (grown : start.session.allocated Session.machineAllocator ≤ layout.allocated)
    {before : List (Key × Value)} (holds : object.Holds start before scratch) :
    Node.evaluateProperties inverted scope object properties scratch = .ok () final ∧
      (∃ later, layout.Later later ∧ scope.Placed base later final) ∧
      object.Holds start (before ++ entries) final := by
  induction entered generalizing layout before with
  | nil =>
      refine ⟨rfl, ⟨layout, .refl layout, placed⟩, ?_⟩
      rw [List.append_nil]
      exact holds
  | @cons place name expression key value properties entries scratch evaluated final named valued _
      ih =>
      obtain ⟨first, others⟩ := List.forall_mem_cons.mp ordinary
      obtain ⟨notNull, ⟨later, passed, reached⟩, filled⟩ :=
        placed.fill_holds building grown holds name.written first valued
      obtain ⟨ended, ⟨last, further, settled⟩, held⟩ := ih others reached
        ((Regime.layout (Machine.begun base) .empty).building_later passed building)
        (Nat.le_trans grown passed.allocated) filled
      refine ⟨?_, ⟨last, passed.trans further, settled⟩, ?_⟩
      · rw [Node.evaluateProperties_cons, bind_of_ok valued, Scratch.fill_eq named notNull]
        exact ended
      · rw [List.append_assoc] at held
        exact held

/-- An object literal begins with the prototype that is in scope and with the frames around it. -/
theorem Scope.eq_of_beginObject {start created : Scratch}
    (begins : scope.beginObject start = .ok object created) :
    start.session.resolve? scope Layout.intrinsicKey = some object.proto ∧
      object.properties = ⟨start.session.frames.size, start.store.prototypeChain object.proto⟩ ∧
      created = ⟨start.session.addObject Session.machineAllocator object.proto, start.store⟩ := by
  have ends : Ends scope.beginObject start (fun object created =>
      start.session.resolve? scope Layout.intrinsicKey = some object.proto ∧
        object.properties = ⟨start.session.frames.size, start.store.prototypeChain object.proto⟩ ∧
        created = ⟨start.session.addObject Session.machineAllocator object.proto, start.store⟩)
      fun _ _ => True := by
    unfold Scope.beginObject
    simp only [ends_bind, ends_liftAction, ends_resolve, Globals.objectPrototype, Name.key_ofText,
      ends_store, ends_create]
    rw [show Key.text "%ObjectPrototype%" = Layout.intrinsicKey from rfl]
    split
    · rename_i proto found
      exact ⟨found, trivial, trivial⟩
    · trivial
  exact ends.of_ok begins

/-- An object is what a literal makes of keys and values. A key that it was not given is found around the
properties of what was stored as its prototype when the literal began, or gets a slot of the object's own that
nothing is stored in yet. -/
structure Object.Made (object : Object) (scope : Scope) (start : Scratch) (entries : List (Key × Value))
    (final : Scratch) : Prop where
  new : object.properties.inner = start.session.frames.size
  proto : start.session.resolve? scope Layout.intrinsicKey = some object.proto
  keys : (final.session.slots object.properties.inner).map Slot.key =
    Layout.protoKey :: (entries.map Prod.fst).eraseDups
  own : (final.session.slots object.properties.inner).address? Layout.protoKey = some object.proto
  values : ∀ key value, entries.reverse.lookup key = some value → ∃ address : Int,
    (final.session.slots object.properties.inner).address? key = some address ∧
      start.session.allocated Session.machineAllocator < address ∧ start.store.contains address = false ∧
      final.store.contains address = true ∧ final.store.get address = value
  apart : ∀ key other address, (final.session.slots object.properties.inner).address? key = some address →
    (final.session.slots object.properties.inner).address? other = some address → key = other
  absent : ∀ (name : Name) key, name.key = .ok key → key ≠ Layout.protoKey → key ∉ entries.map Prod.fst →
    match (start.store.prototypeChain object.proto).findSome? fun frame =>
        (final.session.slots frame).address? key with
    | some address => object.locate name final.session = .ok address final.session
    | none => ∃ (address : Int) (after : Session), object.locate name final.session = .ok address after ∧
        (after.slots object.properties.inner).address? key = some address ∧
        final.session.allocated Session.machineAllocator < address ∧ final.store.contains address = false

namespace Layout

variable {since session : Session} {kept store : Store} {layout : Layout}

/-- No stored value leads to a frame that is not there yet. -/
theorem Stores.avoids (stored : Stores kept layout store) (laid : Frames since layout session)
    (address : Address) : (store.get address).Avoids session.frames.size := by
  have good := stored.good address
  cases held : store.get address with
  | object object =>
      rw [held] at good
      intro member
      have inside := (laid.native_of_chained good.chained _ member).lt
      rw [laid.size] at inside
      exact Nat.lt_irrefl _ inside
  | _ => trivial

/-- Where an own slot is missing, a key is found around an object or gets a slot that no store has bound. -/
theorem Frames.locate_of_missing (laid : Frames since layout session) (stored : Stores kept layout store)
    (good : layout.Good (.object object)) {name : Name} (named : name.key = .ok key)
    (missing : (session.slots object.properties.inner).address? key = none) :
    match object.properties.outer.findSome? fun frame => (session.slots frame).address? key with
    | some address => object.locate name session = .ok address session
    | none => ∃ (address : Int) (after : Session), object.locate name session = .ok address after ∧
        (after.slots object.properties.inner).address? key = some address ∧
        session.allocated Session.machineAllocator < address ∧ store.contains address = false := by
  have located : object.locate name session =
      .ok (session.locate object.properties key name.written).1
        (session.locate object.properties key name.written).2 := by
    apply Ends.eq_ok
    rw [ends_locate, named]
    exact ⟨rfl, rfl⟩
  have resolves : session.resolve? object.properties key =
      object.properties.outer.findSome? fun frame => (session.slots frame).address? key := by
    rw [Session.resolve?, Scope.chain, List.findSome?_cons, missing]
  unfold Session.locate at located
  rw [resolves] at located
  split
  · rename_i address found
    rw [found] at located
    exact located
  · rename_i absent
    rw [absent] at located
    have native := native_of_object good
    have fresh := laid.lt_declare name.written native missing
    refine ⟨_, _, located, Session.address?_declare_self _ _ (laid.size ▸ native.lt), ?_, ?_⟩
    · rw [laid.allocated]
      exact fresh
    · exact Bool.eq_false_iff.mpr fun bound => absurd (stored.bound _ bound).2.2 (Int.not_le.mpr fresh)

end Layout

/-- A new object has been given nothing. -/
theorem Object.Holds.start (properties : object.properties = ⟨scratch.session.frames.size, outer⟩)
    (avoids : ∀ address, (scratch.store.get address).Avoids scratch.session.frames.size) :
    object.Holds scratch []
      ⟨scratch.session.addObject Session.machineAllocator object.proto, scratch.store⟩ where
  keys := by
    rw [properties, scratch.session.slots_addObject_self]
    rfl
  fresh key address ordinary bound := by
    rw [properties, scratch.session.slots_addObject_self, Slots.address?] at bound
    split at bound
    · exact absurd ‹_› (Ne.symm ordinary)
    · cases bound
  values _ _ _ impossible := nomatch impossible
  avoids := properties ▸ avoids

namespace Machine

variable {machine : Machine} {program : Node} {base : Session} {held : Exploration} {state : State}
  {scope : Scope} {inverted : Bool}

/-- Object literals build exactly their properties. Wherever the values of a literal can be evaluated one
after the other, it gives a new object with a slot for each of its keys, in the order in which they come
first. A slot holds the value that its key was given last, whatever was evaluated afterwards, and what the
literal does not name is looked for in the prototype as it was when the literal began. -/
theorem Explored.literal_made (explored : machine.Explored program base held) (member : state ∈ held.states)
    (uses : state.Uses scope) {earlier : List Node} {given : List Value} {start : Scratch}
    (evaluated : Node.values inverted scope earlier ⟨held.session, state.store⟩ = .ok given start) :
    ∃ object created, scope.beginObject start = .ok object created ∧
      ∀ place properties entries final,
        Node.Entered inverted scope object.properties.inner properties created entries final →
        (∀ entry ∈ entries, entry.1 ≠ Layout.protoKey) →
        (Node.object place properties).evaluate inverted scope start = .ok (.value (.object object)) final ∧
          object.Made scope start entries final := by
  obtain ⟨layout, placed⟩ := explored.placed member uses
  obtain ⟨begun, -, placed⟩ := placed.values inverted evaluated
  obtain ⟨object, created, later, begins, passed, reached, -, building⟩ := placed.beginObject
  refine ⟨object, created, begins, ?_⟩
  intro place properties entries final entered ordinary
  obtain ⟨found, framed, rfl⟩ := Scope.eq_of_beginObject begins
  have grown : start.session.allocated Session.machineAllocator ≤ later.allocated := by
    rw [placed.laid.frames.allocated]
    exact passed.allocated
  have empty := Object.Holds.start framed (placed.laid.stores.avoids placed.laid.frames)
  obtain ⟨ended, ⟨last, further, settled⟩, holds⟩ := entered.holds ordinary reached building grown empty
  have good : last.Good (.object object) := building.1.later further
  refine ⟨?_, ?_⟩
  · rw [Node.evaluate_object, bind_of_ok begins, bind_of_ok ended]
    rfl
  · exact {
      new := by rw [framed]
      proto := found
      keys := holds.keys
      own := (settled.laid.frames.proto _ _ _ good).1
      values := by
        intro key value latest
        obtain ⟨before, after, split, -⟩ := List.lookup_eq_some_iff.mp latest
        have among : (key, value) ∈ entries :=
          List.mem_reverse.mp (split ▸ List.mem_append_right before List.mem_cons_self)
        have other := ordinary _ among
        obtain ⟨address, bound, contained, stored⟩ := holds.values key value other latest
        have fresh := holds.fresh key address other bound
        refine ⟨address, bound, fresh, Bool.eq_false_iff.mpr fun early => ?_, contained, stored⟩
        have handed := (placed.laid.stores.bound address early).2.2
        rw [← placed.laid.frames.allocated] at handed
        exact absurd handed (Int.not_le.mpr fresh)
      apart := fun _ _ _ bound boundAgain => settled.laid.frames.key_eq good good bound boundAgain
      absent := by
        intro name key named other unlisted
        have missing : (final.session.slots object.properties.inner).address? key = none := by
          rw [Slots.address?_eq_none_iff, holds.keys]
          simp [other, unlisted, List.mem_eraseDups]
        have located := settled.laid.frames.locate_of_missing settled.laid.stores good named missing
        rw [framed] at located ⊢
        exact located }

end Machine

namespace Sample

def written (key : String) (value : Node) : Node := .property ⟨9, .null⟩ ⟨.text key, 9⟩ value

def content (text : String) : Node := .literal ⟨9, .null⟩ (.text text)

/-- A literal is assigned to a property that it reads itself. -/
def refilling : Node :=
  let member := Node.member ⟨9, .null⟩ (.identifier ⟨⟨9, .null⟩, ⟨.text "o", 9⟩⟩) (content "k") false
  .assignment ⟨9, .null⟩ .assign member (.object ⟨9, .null⟩ [written "k" member])

/-- Properties with a key that comes twice, and an assignment in between. -/
def crowd : List Node := [written "k" (content "one"), written "m" refilling, written "k" (content "two")]

end Sample

/-- A literal is made while another one is assigned, and its key keeps the value that it was given last. -/
theorem Machine.Explored.literal_made_of_crowd :
    ∃ program counted held state object assigned final, Sample.twins.read 0 = .ok program counted ∧
      Explored ⟨.default, none⟩ program (Session.start false) held ∧ state ∈ held.states ∧
      state.Uses ⟨0, []⟩ ∧
      (Node.object ⟨9, .null⟩ Sample.crowd).evaluate false ⟨0, []⟩ ⟨held.session, state.store⟩ =
        .ok (.value (.object object)) final ∧
      object.Made ⟨0, []⟩ ⟨held.session, state.store⟩
        [(.text "k", .string "one"), (.text "m", assigned), (.text "k", .string "two")] final := by
  obtain ⟨program, counted, reads, -⟩ : ∃ program counted,
      Sample.twins.read 0 = .ok program counted ∧ True := Ends.exists_ok (by decide +kernel)
  obtain ⟨progress, after, ran, scopes, assigns⟩ : ∃ progress after,
      Machine.run ⟨.default, none⟩ 3 Sample.twins (Session.start false) = .ok progress after ∧
        progress.state.scopes = [⟨0, []⟩] ∧
        Ends (Scope.beginObject ⟨0, []⟩) ⟨after, progress.state.store⟩ (fun object created =>
          Ends (Sample.refilling.value false ⟨0, []⟩)
            (created.fill object.properties.inner (.text "k") (.text "k") (.string "one"))
            (fun _ _ => True) fun _ _ => False) fun _ _ => False := Ends.exists_ok (by decide +kernel)
  obtain ⟨states, member, explored⟩ := explored_of_run rfl reads ran
  have uses : progress.state.Uses ⟨0, []⟩ := .inl (by simp [scopes])
  have evaluated : Node.values false ⟨0, []⟩ [] ⟨after, progress.state.store⟩ =
      .ok [] ⟨after, progress.state.store⟩ := rfl
  obtain ⟨object, created, begins, makes⟩ := explored.literal_made member uses evaluated
  obtain ⟨assigned, filled, valued, -⟩ := (assigns.of_ok begins).exists_ok
  have plain (text : String) (scratch : Scratch) :
      (Sample.content text).value false ⟨0, []⟩ scratch = .ok (.string text) scratch := by
    rw [Node.value, Sample.content, Inquiry.evaluate_text]
    rfl
  obtain ⟨ended, made⟩ := makes ⟨9, .null⟩ Sample.crowd _ _
    (.cons rfl (plain "one" _) (.cons rfl valued (.cons rfl (plain "two" _) .nil)))
    (by simp [Layout.protoKey])
  exact ⟨program, counted, _, progress.state, object, assigned, _, reads, explored, member, uses, ended, made⟩

end ScriptMachine
