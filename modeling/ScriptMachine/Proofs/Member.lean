/-
This file says what assigning to a member of an object does to the members of others. Main statement: a
member of another object shows the assigned value if it is found in the slot that was assigned to, and is
as it was otherwise.
-/

import ScriptMachine.Proofs.Address

namespace ScriptMachine

/-- A value is written where a property is found, or where it is bound when it is looked for. -/
def Object.assign (object : Object) (key : String) (value : Value) : Draft Unit := do
  (← object.select (.string key)).write value

/-- A value is read where a property is found, or where it is bound when it is looked for. -/
def Object.fetch (object : Object) (key : String) : Draft Value := do
  (← object.select (.string key)).read

/-- Only a prototype of the object has the property. -/
def Object.Inherits (session : Session) (object : Object) (key : Key) : Prop :=
  (session.slots object.properties.inner).address? key = none ∧
    session.resolve? object.properties key ≠ none

/-- Two objects find their properties in one slot. -/
def Object.Shares (session : Session) (object : Object) (key : String) (other : Object)
    (selected : String) : Prop :=
  ∃ slot, session.resolve? object.properties (.text key) = some slot ∧
    session.resolve? other.properties (.text selected) = some slot

/-- Assigning to a member of an object changes what another object reads there. -/
def Object.Shows (object other : Object) (key : String) (value : Value) (scratch : Scratch) : Prop :=
  Ends (object.assign key value) scratch (fun _ assigned =>
    Ends (other.fetch key) scratch (fun read _ =>
      Ends (other.fetch key) assigned (fun again _ => again.display? ≠ read.display?)
        fun _ _ => False) fun _ _ => False) fun _ _ => False

instance (object other : Object) (key : String) (value : Value) (scratch : Scratch) :
    Decidable (object.Shows other key value scratch) :=
  inferInstanceAs (Decidable (Ends _ _ _ _))

/-- Where an object looks for a property, and what the session is then. -/
def Session.located (session : Session) (object : Object) (key : String) : Address × Session :=
  session.locate object.properties (.text key) (.text key)

theorem Session.located_of_found {session : Session} {object : Object} {key : String} {address : Address}
    (found : session.resolve? object.properties (.text key) = some address) :
    session.located object key = (address, session) := by
  unfold Session.located Session.locate
  rw [found]

/-- A text selects where the property is located. -/
theorem Object.select_string (object : Object) (key : String) (session : Session) (store : Store) :
    object.select (.string key) ⟨session, store⟩ =
      .ok (.location (session.located object key).1) ⟨(session.located object key).2, store⟩ := by
  apply Ends.eq_ok
  unfold Object.select
  simp only [ends_bind, Value.toPrimitive, Value.toText, ends_liftExcept, ends_liftAction,
    ends_locate, Name.key_ofText, ends_pure]
  exact ⟨rfl, rfl⟩

/-- Fetching reads where the property is located. -/
theorem Object.fetch_eq (object : Object) (key : String) (session : Session) (store : Store) :
    object.fetch key ⟨session, store⟩ =
      .ok (store.get (session.located object key).1) ⟨(session.located object key).2, store⟩ :=
  bind_of_ok (object.select_string key session store)

/-- Assigning writes where the property is located. -/
theorem Object.assign_eq (object : Object) (key : String) (value : Value) {session : Session}
    {store : Store} (notNull : (session.located object key).1 ≠ 0) :
    object.assign key value ⟨session, store⟩ = .ok () ⟨(session.located object key).2,
      store.insert (session.located object key).1 value⟩ := by
  refine (bind_of_ok (object.select_string key session store)).trans (Ends.eq_ok ?_)
  unfold Operand.write
  simp only [Operand.address?, ends_extend, Store.extend_of_ne notNull, and_self]

def Value.object? : Value → Option Object
  | .object held => some held
  | _ => none

theorem Value.eq_object {value : Value} {object : Object} (found : value.object? = some object) :
    value = .object object := by
  cases value with
  | object held => rw [Option.some.inj found]
  | _ => cases found

/-- Two objects. -/
def Sample.twins : Tree := program [declare "o" (object []), declare "p" (object [])]

/-- An object that inherits from another one, because that was made the prototype of all. -/
def Sample.heir : Tree := program
  [declare "o" (object [("k", literal "old")]), assign "o" "__proto__" (name "o"),
    declare "p" (object [])]

namespace Layout

variable {since session : Session} {kept store : Store} {layout : Layout} {object other : Object}

/-- Two objects that a run has come by do not share their frame. -/
theorem eq_of_inner (good : layout.Good (.object object)) (goodAgain : layout.Good (.object other))
    (same : object.properties.inner = other.properties.inner) : object = other := by
  obtain ⟨proto, inner, outer⟩ := object
  obtain ⟨protoAgain, innerAgain, outerAgain⟩ := other
  obtain rfl : inner = innerAgain := same
  cases (show some (Role.object proto outer) = some (Role.object protoAgain outerAgain) from
    good.symm.trans goodAgain)
  rfl

section

variable (laid : Frames since layout session)
include laid

/-- An object's frame is in the session. -/
theorem Frames.inner_lt (good : layout.Good (.object object)) :
    object.properties.inner < session.frames.size := by
  rw [← laid.size]
  exact (native_of_object good).lt

/-- Looking for a property leaves the frames laid out well. -/
theorem Frames.located (good : layout.Good (.object object)) (key : String) :
    ∃ later, layout.Later later ∧ Frames since later (session.located object key).2 := by
  obtain ⟨later, passed, laidAfter, -⟩ := @reaches_locate since session .empty layout object (.text key)
    (.text key) laid good
  exact ⟨later, passed, laidAfter⟩

/-- A property that has been looked for is found. -/
theorem Frames.resolve?_located (good : layout.Good (.object object)) (key : String) :
    (session.located object key).2.resolve? object.properties (.text key) =
      some (session.located object key).1 := by
  unfold Session.located Session.locate
  cases found : session.resolve? object.properties (.text key) with
  | some address => exact found
  | none =>
      unfold Session.resolve? Scope.chain
      rw [List.findSome?_cons, Session.address?_declare_self _ _ (laid.inner_lt good)]

/-- Looking for a property gives a slot to nothing but this property, where it was missing. -/
theorem Frames.address?_located (good : layout.Good (.object object)) (key : String) (frame : Nat)
    (found : Key) :
    ((session.located object key).2.slots frame).address? found = (session.slots frame).address? found ∨
      (session.slots frame).address? found = none ∧
        ((session.located object key).2.slots frame).address? found =
          some (session.located object key).1 := by
  unfold Session.located Session.locate
  cases resolves : session.resolve? object.properties (.text key) with
  | some address => exact .inl rfl
  | none =>
      by_cases here : frame = object.properties.inner ∧ found = .text key
      · obtain ⟨rfl, rfl⟩ := here
        exact .inr ⟨List.findSome?_eq_none_iff.mp resolves _ List.mem_cons_self,
          session.address?_declare_self _ _ (laid.inner_lt good)⟩
      · exact .inl (session.address?_declare_of_ne _ (Decidable.not_and_iff_not_or_not.mp here))

/-- A property that is not inherited has a slot in the frame of its object once it was looked for. -/
theorem Frames.own_of_located (good : layout.Good (.object object)) {key : String}
    (notInherited : ¬ object.Inherits session (.text key)) :
    ((session.located object key).2.slots object.properties.inner).address? (.text key) =
      some (session.located object key).1 := by
  unfold Session.located Session.locate
  cases own : (session.slots object.properties.inner).address? (.text key) with
  | some address =>
      have found : session.resolve? object.properties (.text key) = some address := by
        unfold Session.resolve? Scope.chain
        rw [List.findSome?_cons, own]
      rw [found]
      exact own
  | none =>
      have missing : session.resolve? object.properties (.text key) = none :=
        Classical.byContradiction fun found => notInherited ⟨own, found⟩
      rw [missing]
      exact session.address?_declare_self _ _ (laid.inner_lt good)

/-- A property that is found elsewhere once another one was looked for was found there before. -/
theorem Frames.resolve?_of_located (good : layout.Good (.object object)) {key : String} {scope : Scope}
    {found : Key} {address : Address} (different : address ≠ (session.located object key).1)
    (resolves : (session.located object key).2.resolve? scope found = some address) :
    session.resolve? scope found = some address := by
  unfold Session.resolve? at resolves ⊢
  generalize scope.chain = chain at resolves ⊢
  induction chain with
  | nil => cases resolves
  | cons frame rest ih =>
      rw [List.findSome?_cons] at resolves ⊢
      rcases laid.address?_located good key frame found with same | ⟨-, bound⟩
      · rw [same] at resolves
        cases own : (session.slots frame).address? found with
        | some held => simpa [own] using resolves
        | none => exact ih (by simpa [own] using resolves)
      · rw [bound] at resolves
        exact absurd (Option.some.inj resolves).symm different

/-- A property that is missing once another one was looked for was missing before. -/
theorem Frames.resolve?_of_located_none (good : layout.Good (.object object)) {key : String} {scope : Scope}
    {found : Key} (missing : (session.located object key).2.resolve? scope found = none) :
    session.resolve? scope found = none := by
  refine List.findSome?_eq_none_iff.mpr fun frame member => ?_
  have after := List.findSome?_eq_none_iff.mp missing frame member
  rcases laid.address?_located good key frame found with same | ⟨before, -⟩
  · rw [← same, after]
  · exact before

/-- A slot of an object shares its address with no other slot of an object, unless it is the slot for the
prototype. -/
theorem Frames.slot_eq {first second : Nat} {proto protoAgain : Address} {outer outerAgain : List Nat}
    (role : layout.roles[first]? = some (.object proto outer))
    (roleAgain : layout.roles[second]? = some (.object protoAgain outerAgain)) {key found : Key}
    {address : Address} (notProto : key ≠ protoKey)
    (bound : (session.slots first).address? key = some address)
    (boundAgain : (session.slots second).address? found = some address) : first = second ∧ key = found := by
  have own : layout.Own first key := .inr ⟨⟨_, _, role⟩, notProto⟩
  by_cases isProto : found = protoKey
  · subst isProto
    obtain ⟨known, origin⟩ := laid.proto second protoAgain outerAgain roleAgain
    cases known.symm.trans boundAgain
    rcases origin with null | ⟨scope, scopeRole, scopeBound⟩
    · exact absurd null (laid.present _ _ _ own bound)
    · -- the prototype slot has the address of a scope's slot, and a scope is no object
      obtain ⟨rfl, -⟩ := laid.apart first key scope intrinsicKey _ own (.inl scopeRole) bound scopeBound
      cases role.symm.trans scopeRole
  · exact laid.apart first key second found address own (.inr ⟨⟨_, _, roleAgain⟩, isProto⟩) bound boundAgain

/-- An object that finds a property in a slot of another one does so under the same key and in its frame. -/
theorem Frames.mem_chain_of_resolve? (goodAgain : layout.Good (.object other)) {frame : Nat} {proto : Address}
    {outer : List Nat} (role : layout.roles[frame]? = some (.object proto outer)) {key found : Key}
    {address : Address} (notProto : key ≠ protoKey)
    (bound : (session.slots frame).address? key = some address)
    (resolves : session.resolve? other.properties found = some address) :
    found = key ∧ frame ∈ other.properties.chain := by
  obtain ⟨again, member, boundAgain⟩ := List.exists_of_findSome?_eq_some resolves
  obtain ⟨_, _, roleAgain⟩ := laid.exists_outer goodAgain.chained again member
  obtain ⟨rfl, rfl⟩ := laid.slot_eq role roleAgain notProto bound boundAgain
  exact ⟨rfl, member⟩

/-- A property that is found has an address, unless it is the prototype. -/
theorem Frames.resolve?_ne_zero (good : layout.Good (.object object)) {key : String} {address : Address}
    (notProto : key ≠ "__proto__")
    (found : session.resolve? object.properties (.text key) = some address) : address ≠ 0 := by
  obtain ⟨frame, member, bound⟩ := List.exists_of_findSome?_eq_some found
  obtain ⟨proto, outer, role⟩ := laid.exists_outer good.chained frame member
  exact laid.present frame _ _ (.inr ⟨⟨proto, outer, role⟩, fun same => notProto (Key.text.inj same)⟩) bound

/-- A property that is found nowhere is given the next address. -/
theorem Frames.located_of_missing (good : layout.Good (.object object)) {key : String}
    (missing : session.resolve? object.properties (.text key) = none) :
    (session.located object key).1 = ((layout.allocated + 1 : Nat) : Int) := by
  have native : layout.Native object.properties.inner := native_of_object good
  have unbound := List.findSome?_eq_none_iff.mp missing object.properties.inner List.mem_cons_self
  unfold Session.located Session.locate
  rw [missing]
  rw [session.declare_of_unbound _ unbound (laid.own _ native) laid.available, laid.allocated]

/-- Another object reads the value if it finds its property where the value was assigned, and reads what it
read before otherwise. -/
theorem get_located (stored : Stores kept layout store) (good : layout.Good (.object object))
    (goodAgain : layout.Good (.object other)) {key : String} (notProto : key ≠ "__proto__") (value : Value)
    (selected : String) :
    (store.insert (session.located object key).1 value).get
        ((session.located object key).2.located other selected).1 =
      if (session.located object key).2.resolve? other.properties (.text selected) =
        some (session.located object key).1 then value
      else store.get (session.located other selected).1 := by
  obtain ⟨later, passed, laidAfter⟩ := laid.located good key
  have found := laid.resolve?_located good key
  have notNull := laidAfter.resolve?_ne_zero (good.later passed) notProto found
  cases resolution : (session.located object key).2.resolve? other.properties (.text selected) with
  | some held =>
      rw [Session.located_of_found resolution, Store.get_extend (Store.extend_of_ne notNull)]
      by_cases same : held = (session.located object key).1
      · rw [if_pos same, if_pos (congrArg some same)]
      · rw [if_neg same, if_neg fun again => same (Option.some.inj again),
          Session.located_of_found (laid.resolve?_of_located good same resolution)]
  | none =>
      -- neither before nor after was the property anywhere, so that both reads come to fresh addresses
      have before := laid.located_of_missing goodAgain (laid.resolve?_of_located_none good resolution)
      have after := laidAfter.located_of_missing (goodAgain.later passed) resolution
      have grown := passed.allocated
      have old := (laidAfter.handed_of_findSome
        (laidAfter.native_of_chained (good.later passed).chained) found).2
      rw [if_neg nofun, before, after, stored.get_of_fresh (by omega), Store.get_insert_of_ne notNull,
        stored.get_of_fresh (by omega)]
      intro same
      rw [← same] at old
      exact absurd (Int.ofNat_le.mp old) (Nat.not_succ_le_self _)

end

end Layout

namespace Machine

variable {machine : Machine} {program : Node} {base : Session} {held : Exploration} {state : State}

/-- Assigning to a property of an object can be done. Another object then reads the value if it finds its
property in the slot of the assigned one, which takes the same key and a slot that the object inherits or
that the other object inherits from it. Otherwise the other object reads what it read before. -/
theorem Explored.assign_elsewhere (explored : machine.Explored program base held)
    (member : state ∈ held.states) {object other : Object} {address found : Address}
    (stored : state.store.get address = .object object)
    (storedAgain : state.store.get found = .object other) (distinct : object ≠ other) {key : String}
    (notProto : key ≠ "__proto__") (value : Value) (selected : String) :
    ∃ assigned read before again after,
      object.assign key value ⟨held.session, state.store⟩ = .ok () assigned ∧
      other.fetch selected ⟨held.session, state.store⟩ = .ok read before ∧
      other.fetch selected assigned = .ok again after ∧
      (object.Shares assigned.session key other selected → again = value ∧ selected = key ∧
        (object.Inherits held.session (.text key) ∨ object.properties.inner ∈ other.properties.outer)) ∧
      (¬ object.Shares assigned.session key other selected → again = read) := by
  obtain ⟨layout, -, laid, sound⟩ := explored.layout
  have stores := Layout.stores_of_sound (sound state member)
  have good : layout.Good (.object object) := stored ▸ stores.good address
  have goodAgain : layout.Good (.object other) := storedAgain ▸ stores.good found
  obtain ⟨later, passed, laidAfter⟩ := laid.located good key
  have resolves := laid.resolve?_located good key
  have notNull := laidAfter.resolve?_ne_zero (good.later passed) notProto resolves
  have again := other.fetch_eq selected (held.session.located object key).2
    (state.store.insert (held.session.located object key).1 value)
  rw [Layout.get_located laid stores good goodAgain notProto] at again
  refine ⟨_, _, _, _, _, object.assign_eq key value notNull, other.fetch_eq selected _ _, again, ?_, ?_⟩
  · rintro ⟨slot, shared, sharedAgain⟩
    cases shared.symm.trans resolves
    have notProtoKey : Key.text key ≠ Layout.protoKey := fun same => notProto (Key.text.inj same)
    have holds := @Layout.Frames.mem_chain_of_resolve? _ _ _ other laidAfter (goodAgain.later passed)
    obtain ⟨frame, inside, bound⟩ := List.exists_of_findSome?_eq_some resolves
    obtain ⟨_, _, role⟩ := laidAfter.exists_outer (good.later passed).chained frame inside
    refine ⟨if_pos sharedAgain, Key.text.inj (holds role notProtoKey bound sharedAgain).1, ?_⟩
    by_cases inherited : object.Inherits held.session (.text key)
    · exact .inl inherited
    · have own := laid.own_of_located good inherited
      rcases List.mem_cons.mp (holds (good.later passed) notProtoKey own sharedAgain).2 with same | around
      · exact absurd (Layout.eq_of_inner good goodAgain same) distinct
      · exact .inr around
  · intro apart
    exact if_neg fun same => apart ⟨_, resolves, same⟩

/-- Of two objects with one prototype, one that is assigned an inherited property shows it in the other one,
and shows no other property there. -/
theorem Explored.assign_elsewhere_of_twins :
    ∃ program counted held state object other, Sample.twins.read 0 = .ok program counted ∧
      Explored ⟨.default, none⟩ program (Session.start false) held ∧ state ∈ held.states ∧
      state.store.get 6 = .object object ∧ state.store.get 7 = .object other ∧ object ≠ other ∧
      (∃ assigned after,
        object.assign "toString" (.string "mine") ⟨held.session, state.store⟩ = .ok () assigned ∧
        other.fetch "toString" assigned = .ok (.string "mine") after) ∧
      ∀ key selected, key ≠ "__proto__" → selected ≠ key → ∃ assigned read before after,
        object.assign key (.string "mine") ⟨held.session, state.store⟩ = .ok () assigned ∧
        other.fetch selected ⟨held.session, state.store⟩ = .ok read before ∧
        other.fetch selected assigned = .ok read after := by
  obtain ⟨program, counted, reads, -⟩ : ∃ program counted,
      Sample.twins.read 0 = .ok program counted ∧ True := Ends.exists_ok (by decide +kernel)
  obtain ⟨progress, after, ran, first, second, shared⟩ : ∃ progress after,
      Machine.run ⟨.default, none⟩ 3 Sample.twins (Session.start false) = .ok progress after ∧
        (progress.state.store.get 6).object? = some ⟨3, ⟨2, [1]⟩⟩ ∧
        (progress.state.store.get 7).object? = some ⟨3, ⟨3, [1]⟩⟩ ∧
        Ends (Object.assign ⟨3, ⟨2, [1]⟩⟩ "toString" (.string "mine")) ⟨after, progress.state.store⟩
          (fun _ assigned => assigned.session.resolve? ⟨2, [1]⟩ (.text "toString") = some 5 ∧
            assigned.session.resolve? ⟨3, [1]⟩ (.text "toString") = some 5)
          fun _ _ => False := Ends.exists_ok (by decide +kernel)
  obtain ⟨states, member, explored⟩ := explored_of_run rfl reads ran
  have stored := Value.eq_object first
  have storedAgain := Value.eq_object second
  refine ⟨program, counted, _, progress.state, _, _, reads, explored, member, stored, storedAgain,
    by decide, ?_, ?_⟩
  · obtain ⟨assigned, _, _, again, last, assigns, -, fetches, shows, -⟩ := explored.assign_elsewhere member
      stored storedAgain (by decide) (show "toString" ≠ "__proto__" by decide) (.string "mine") "toString"
    obtain ⟨rfl, -⟩ := shows ⟨5, shared.of_ok assigns⟩
    exact ⟨assigned, last, assigns, fetches⟩
  · intro key selected notProto different
    obtain ⟨assigned, read, before, again, last, assigns, fetched, fetches, shows, spares⟩ :=
      explored.assign_elsewhere member stored storedAgain (by decide) notProto (.string "mine") selected
    obtain rfl := spares fun shares => different (shows shares).2.1
    exact ⟨assigned, again, before, last, assigns, fetched, fetches⟩

/-- Two objects with one prototype show what is assigned to one of them under a key of the prototype, and an
object shows what is assigned to its prototype. -/
theorem Explored.assign_shows :
    (∃ program counted held state object other, Sample.twins.read 0 = .ok program counted ∧
      Explored ⟨.default, none⟩ program (Session.start false) held ∧ state ∈ held.states ∧
      state.store.get 6 = .object object ∧ state.store.get 7 = .object other ∧ object ≠ other ∧
      object.Shows other "toString" (.string "mine") ⟨held.session, state.store⟩) ∧
    ∃ program counted held state object other, Sample.heir.read 0 = .ok program counted ∧
      Explored ⟨.default, none⟩ program (Session.start false) held ∧ state ∈ held.states ∧
      state.store.get 7 = .object object ∧ state.store.get 8 = .object other ∧ object ≠ other ∧
      ¬ object.Inherits held.session (.text "k") ∧
      object.Shows other "k" (.string "mine") ⟨held.session, state.store⟩ := by
  constructor
  · obtain ⟨program, counted, reads, -⟩ : ∃ program counted,
        Sample.twins.read 0 = .ok program counted ∧ True := Ends.exists_ok (by decide +kernel)
    obtain ⟨progress, after, ran, first, second, shows⟩ : ∃ progress after,
        Machine.run ⟨.default, none⟩ 3 Sample.twins (Session.start false) = .ok progress after ∧
          (progress.state.store.get 6).object? = some ⟨3, ⟨2, [1]⟩⟩ ∧
          (progress.state.store.get 7).object? = some ⟨3, ⟨3, [1]⟩⟩ ∧
          Object.Shows ⟨3, ⟨2, [1]⟩⟩ ⟨3, ⟨3, [1]⟩⟩ "toString" (.string "mine")
            ⟨after, progress.state.store⟩ := Ends.exists_ok (by decide +kernel)
    obtain ⟨states, member, explored⟩ := explored_of_run rfl reads ran
    exact ⟨program, counted, _, progress.state, _, _, reads, explored, member,
      Value.eq_object first, Value.eq_object second, by decide, shows⟩
  · obtain ⟨program, counted, reads, -⟩ : ∃ program counted,
        Sample.heir.read 0 = .ok program counted ∧ True := Ends.exists_ok (by decide +kernel)
    obtain ⟨progress, after, ran, first, second, own, shows⟩ : ∃ progress after,
        Machine.run ⟨.default, none⟩ 4 Sample.heir (Session.start false) = .ok progress after ∧
          (progress.state.store.get 7).object? = some ⟨3, ⟨2, [1]⟩⟩ ∧
          (progress.state.store.get 8).object? = some ⟨3, ⟨3, [2, 1]⟩⟩ ∧
          (after.slots 2).address? (.text "k") = some 6 ∧
          Object.Shows ⟨3, ⟨2, [1]⟩⟩ ⟨3, ⟨3, [2, 1]⟩⟩ "k" (.string "mine")
            ⟨after, progress.state.store⟩ := Ends.exists_ok (by decide +kernel)
    obtain ⟨states, member, explored⟩ := explored_of_run rfl reads ran
    refine ⟨program, counted, _, progress.state, _, _, reads, explored, member,
      Value.eq_object first, Value.eq_object second, by decide, ?_, shows⟩
    rintro ⟨missing, -⟩
    cases missing.symm.trans own

end Machine

end ScriptMachine
