/-
This file says how the frames and the addresses of a run are laid out. Main statements: every program
keeps its frames and stores laid out well, and what an object has once resolved it resolves to the same
address for good.
-/

import ScriptMachine.Proofs.Exploration
import ScriptMachine.Proofs.Placement

namespace ScriptMachine

/-- Sessions that bind a key alike in the frames of a scope resolve it alike. -/
theorem Session.resolve?_congr {session other : Session} {scope : Scope} {key : Key}
    (same : ∀ frame ∈ scope.chain,
      (other.slots frame).address? key = (session.slots frame).address? key) :
    other.resolve? scope key = session.resolve? scope key := by
  unfold Session.resolve?
  generalize scope.chain = chain at same ⊢
  induction chain with
  | nil => rfl
  | cons frame rest ih =>
      obtain ⟨first, others⟩ := List.forall_mem_cons.mp same
      rw [List.findSome?_cons, List.findSome?_cons, first, ih others]

/-- What a frame is for. Frames that were there before a run are foreign to it. -/
inductive Role where
  | foreign
  | scope
  | object (proto : Address) (outer : List Nat)

/-- What is known at a moment of a run: the roles of the frames, and how many addresses and identities
have been handed out. -/
structure Layout where
  roles : List Role
  allocated : Nat
  identities : Nat

namespace Layout

/-- The key under which an object keeps the address of its prototype. -/
def protoKey : Key := .text "__proto__"

/-- The key under which object literals look for their prototype. -/
def intrinsicKey : Key := .text "%ObjectPrototype%"

/-- Frames keep their roles and those that are added belong to the run, and what has been handed out
stays so. -/
structure Later (layout later : Layout) : Prop where
  roles : ∃ added, later.roles = layout.roles ++ added ∧ ∀ role ∈ added, role ≠ .foreign
  allocated : layout.allocated ≤ later.allocated
  identities : layout.identities ≤ later.identities

/-- A layout with the same roles that has handed out more is later. -/
theorem Later.of_roles {layout later : Layout} (same : later.roles = layout.roles)
    (allocated : layout.allocated ≤ later.allocated)
    (identities : layout.identities ≤ later.identities) : layout.Later later :=
  ⟨⟨[], by simp [same], fun role member => absurd member List.not_mem_nil⟩, allocated, identities⟩

theorem Later.refl (layout : Layout) : layout.Later layout :=
  .of_roles rfl (Nat.le_refl _) (Nat.le_refl _)

theorem Later.trans {first second third : Layout} (before : first.Later second)
    (after : second.Later third) : first.Later third := by
  obtain ⟨added, extended, native⟩ := before.roles
  obtain ⟨further, extendedAgain, nativeAgain⟩ := after.roles
  refine ⟨⟨added ++ further, ?_, ?_⟩, Nat.le_trans before.allocated after.allocated,
    Nat.le_trans before.identities after.identities⟩
  · rw [extendedAgain, extended, List.append_assoc]
  · intro role member
    rcases List.mem_append.mp member with early | late
    · exact native role early
    · exact nativeAgain role late

/-- Giving a role to a new frame makes a layout later. -/
theorem Later.push (layout : Layout) {role : Role} (native : role ≠ .foreign) :
    layout.Later { layout with roles := layout.roles ++ [role] } := by
  refine ⟨⟨[role], rfl, ?_⟩, Nat.le_refl _, Nat.le_refl _⟩
  intro added member
  rw [List.mem_singleton.mp member]
  exact native

/-- Handing out an address makes a layout later. -/
theorem Later.advance (layout : Layout) :
    layout.Later { layout with allocated := layout.allocated + 1 } :=
  .of_roles rfl (Nat.le_succ _) (Nat.le_refl _)

/-- Handing out an identity makes a layout later. -/
theorem Later.identify (layout : Layout) :
    layout.Later { layout with identities := layout.identities + 1 } :=
  .of_roles rfl (Nat.le_refl _) (Nat.le_succ _)

/-- The role of a frame never changes. -/
theorem Later.role {layout later : Layout} (passed : layout.Later later) {frame : Nat} {role : Role}
    (known : layout.roles[frame]? = some role) : later.roles[frame]? = some role := by
  obtain ⟨added, extended, -⟩ := passed.roles
  have inside : frame < layout.roles.length := (List.getElem?_eq_some_iff.mp known).1
  rw [extended, List.getElem?_append_left inside]
  exact known

theorem Later.roles_of_lt {layout later : Layout} (passed : layout.Later later) {frame : Nat}
    (inside : frame < layout.roles.length) : later.roles[frame]? = layout.roles[frame]? := by
  rw [passed.role (List.getElem?_eq_getElem inside), List.getElem?_eq_getElem inside]

/-- Frames of the run itself. -/
def Native (layout : Layout) (frame : Nat) : Prop :=
  ∃ role, layout.roles[frame]? = some role ∧ role ≠ .foreign

/-- The frames of an object and of its prototypes. -/
def Chained (layout : Layout) : List Nat → Prop
  | [] => True
  | frame :: outer => ∃ proto, layout.roles[frame]? = some (.object proto outer)

/-- Scopes are made of frames for names. -/
def Visible (layout : Layout) (scope : Scope) : Prop :=
  ∀ frame ∈ scope.chain, layout.roles[frame]? = some .scope

/-- Addresses that have been handed out, and the address of null. -/
def Handed (layout : Layout) (address : Address) : Prop :=
  0 ≤ address ∧ address ≤ (layout.allocated : Int)

/-- A slot with an address of its own. Only the slot that an object keeps for its prototype has none. -/
def Own (layout : Layout) (frame : Nat) (key : Key) : Prop :=
  layout.roles[frame]? = some .scope ∨
    (∃ proto outer, layout.roles[frame]? = some (.object proto outer)) ∧ key ≠ protoKey

/-- Values that a run has come by. -/
def Good (layout : Layout) : Value → Prop
  | .function closure => closure.identity < layout.identities ∧ layout.Visible closure.scope
  | .object object =>
      layout.roles[object.properties.inner]? = some (.object object.proto object.properties.outer)
  | .builtin identity _ _ routine => routine.isOwn = true ∧ identity < layout.identities
  | value => value.isPlain = true

section

variable {layout after : Layout}

/-- Addresses that were handed out start at one. -/
theorem Handed.one_le {address : Int} (handed : layout.Handed address) (notNull : address ≠ 0) :
    1 ≤ address := by
  have lower : 0 ≤ address := handed.1
  omega

variable {frame : Nat} {key : Key}

/-- Frames of scopes belong to the run. -/
theorem native_of_scope (role : layout.roles[frame]? = some .scope) :
    layout.Native frame := ⟨.scope, role, Role.noConfusion⟩

/-- Frames of objects belong to the run. -/
theorem native_of_object {proto : Address} {outer : List Nat}
    (role : layout.roles[frame]? = some (.object proto outer)) : layout.Native frame :=
  ⟨.object proto outer, role, Role.noConfusion⟩

/-- Values without parts are good everywhere. -/
theorem good_of_isPlain {value : Value} (isPlain : value.isPlain = true) : layout.Good value := by
  cases value <;> simp_all [Value.isPlain, Good]

/-- An object that a run has come by stands inside the frames of its prototypes. -/
theorem Good.chained {object : Object} (good : layout.Good (.object object)) :
    layout.Chained object.properties.chain := ⟨object.proto, good⟩

/-- What a frame may bind is bound in a frame of the run. -/
theorem Own.native (own : layout.Own frame key) : layout.Native frame := by
  rcases own with scope | ⟨⟨proto, outer, object⟩, -⟩
  · exact native_of_scope scope
  · exact native_of_object object

/-- A frame of the run may bind every key but that of the prototype. -/
theorem Native.own (native : layout.Native frame) (other : key ≠ protoKey) : layout.Own frame key := by
  obtain ⟨role, known, different⟩ := native
  cases role with
  | foreign => exact absurd rfl different
  | scope => exact .inl known
  | object proto outer => exact .inr ⟨⟨proto, outer, known⟩, other⟩

/-- The frames of a run have roles. -/
theorem Native.lt (native : layout.Native frame) : frame < layout.roles.length := by
  obtain ⟨role, known, -⟩ := native
  exact (List.getElem?_eq_some_iff.mp known).1

variable (passed : layout.Later after)
include passed

theorem Native.later (native : layout.Native frame) : after.Native frame := by
  obtain ⟨role, known, own⟩ := native
  exact ⟨role, passed.role known, own⟩

theorem Own.later (own : layout.Own frame key) : after.Own frame key := by
  rcases own with scope | ⟨⟨proto, outer, object⟩, different⟩
  · exact .inl (passed.role scope)
  · exact .inr ⟨⟨proto, outer, passed.role object⟩, different⟩

theorem Chained.later {chain : List Nat} (chained : layout.Chained chain) : after.Chained chain := by
  cases chain with
  | nil => trivial
  | cons frame outer =>
      obtain ⟨proto, role⟩ := chained
      exact ⟨proto, passed.role role⟩

theorem Visible.later {scope : Scope} (visible : layout.Visible scope) : after.Visible scope :=
  fun frame member => passed.role (visible frame member)

theorem Handed.later {address : Address} (handed : layout.Handed address) : after.Handed address :=
  ⟨handed.1, Int.le_trans handed.2 (Int.ofNat_le.mpr passed.allocated)⟩

theorem Good.later {value : Value} (good : layout.Good value) : after.Good value := by
  cases value with
  | function closure =>
      exact ⟨Nat.lt_of_lt_of_le good.1 passed.identities, good.2.later passed⟩
  | object object =>
      have role : layout.roles[object.properties.inner]? =
        some (.object object.proto object.properties.outer) := good
      exact passed.role role
  | builtin identity arity name routine =>
      exact ⟨good.1, Nat.lt_of_lt_of_le good.2 passed.identities⟩
  | _ => exact good

/-- Frames that were not there earlier belong to the run. -/
theorem Later.native (added : layout.roles.length ≤ frame) (inside : frame < after.roles.length) :
    after.Native frame := by
  obtain ⟨roles, extended, native⟩ := passed.roles
  obtain ⟨role, found⟩ : ∃ role, after.roles[frame]? = some role :=
    ⟨_, List.getElem?_eq_getElem inside⟩
  refine ⟨role, found, native role ?_⟩
  rw [extended, List.getElem?_append_right added] at found
  exact List.mem_of_getElem? found

end

/-- Frames as a run lays them out. Addresses of slots have been handed out, each of them to one slot of
its own, and an object knows its prototype by the address that a scope has for it. Since a given session,
an object has been given a property by looking for it only where its prototypes did not have it. -/
structure Frames (since : Session) (layout : Layout) (session : Session) : Prop where
  size : layout.roles.length = session.frames.size
  sinceSize : since.frames.size ≤ session.frames.size
  allocated : session.allocated Session.machineAllocator = layout.allocated
  identities : session.identities = layout.identities
  available : Session.machineAllocator < session.allocators.size
  own : ∀ frame, layout.Native frame → session.allocatorOf frame = Session.machineAllocator
  closed : ∀ frame proto outer, layout.roles[frame]? = some (.object proto outer) →
    layout.Chained outer ∧ ∀ other ∈ outer, other < frame
  slots : ∀ frame, layout.Native frame → ∀ key address,
    (session.slots frame).address? key = some address → layout.Handed address
  present : ∀ frame key address, layout.Own frame key →
    (session.slots frame).address? key = some address → address ≠ 0
  apart : ∀ frame key other found address, layout.Own frame key → layout.Own other found →
    (session.slots frame).address? key = some address →
    (session.slots other).address? found = some address → frame = other ∧ key = found
  proto : ∀ frame proto outer, layout.roles[frame]? = some (.object proto outer) →
    (session.slots frame).address? protoKey = some proto ∧
      (proto = 0 ∨ ∃ scope, layout.roles[scope]? = some .scope ∧
        (session.slots scope).address? intrinsicKey = some proto)
  late : ∀ frame proto outer, layout.roles[frame]? = some (.object proto outer) →
    frame < since.frames.size →
    ∀ other ∈ outer, ∀ key (address held : Int), (since.slots frame).address? key = none →
    (session.slots frame).address? key = some address →
    (session.slots other).address? key = some held → address < held

/-- Stores bind addresses that have been handed out to values that the run has come by, and go on to
bind the addresses of a given store. -/
structure Stores (kept : Store) (layout : Layout) (store : Store) : Prop where
  bound : ∀ address, store.contains address = true → address ≠ 0 ∧ layout.Handed address
  good : ∀ address, layout.Good (store.get address)
  keeps : ∀ address, kept.contains address = true → store.contains address = true

namespace Frames

variable {since session : Session} {layout : Layout} (laid : Frames since layout session)
include laid
variable {chain : List Nat} {key : Key} {address : Address} {frame : Nat}

/-- Every frame around the properties of an object belongs to a prototype of it. -/
theorem exists_outer (chained : layout.Chained chain) :
    ∀ frame ∈ chain, ∃ proto outer, layout.roles[frame]? = some (.object proto outer) := by
  induction chain with
  | nil => intro frame member; cases member
  | cons first outer ih =>
      intro frame member
      obtain ⟨proto, role⟩ := chained
      rcases List.mem_cons.mp member with rfl | deeper
      · exact ⟨proto, outer, role⟩
      · exact ih (laid.closed first proto outer role).1 frame deeper

/-- Addresses that are found in native frames have been handed out. -/
theorem handed_of_findSome (natives : ∀ frame ∈ chain, layout.Native frame)
    (found : chain.findSome? (fun frame => (session.slots frame).address? key) = some address) :
    layout.Handed address := by
  obtain ⟨frame, member, bound⟩ := List.exists_of_findSome?_eq_some found
  exact laid.slots frame (natives frame member) key address bound

/-- What a visible scope resolves was handed out. -/
theorem handed_of_visible {scope : Scope} (visible : layout.Visible scope)
    (found : session.resolve? scope key = some address) : layout.Handed address :=
  laid.handed_of_findSome (fun frame member => native_of_scope (visible frame member)) found

/-- The frames of an object belong to the run. -/
theorem native_of_chained (chained : layout.Chained chain) : ∀ frame ∈ chain, layout.Native frame := by
  intro frame member
  obtain ⟨proto, outer, role⟩ := laid.exists_outer chained frame member
  exact native_of_object role

/-- A new identity changes no frame. -/
theorem identify : Frames since { layout with identities := layout.identities + 1 } session.identify :=
  { laid with identities := congrArg (· + 1) laid.identities }

/-- Reporting changes no frame. -/
theorem report (output : String) (journal : Array Entry) :
    Frames since layout { session with output, journal } :=
  { laid with }

/-- What is said about a run since an earlier session is said since the present one. -/
theorem restart : Frames session layout session := by
  refine { laid with sinceSize := Nat.le_refl _, late := ?_ }
  intro frame proto outer _ _ other _ key address held missing found
  rw [missing] at found
  cases found

/-- A native frame has addresses of its own for all keys but one, and that one is bound. -/
theorem own_of_missing (native : layout.Native frame) (missing : (session.slots frame).address? key = none) :
    layout.Own frame key := by
  obtain ⟨role, known, different⟩ := native
  cases role with
  | foreign => exact absurd rfl different
  | scope => exact .inl known
  | object proto outer =>
      refine .inr ⟨⟨proto, outer, known⟩, ?_⟩
      rintro rfl
      rw [(laid.proto frame proto outer known).1] at missing
      cases missing

/-- A slot that has no address of its own holds the prototype of an object. -/
theorem proto_of_not_own (native : layout.Native frame) (shared : ¬ layout.Own frame key)
    (bound : (session.slots frame).address? key = some address) :
    key = protoKey ∧ ∃ outer, layout.roles[frame]? = some (.object address outer) := by
  have isProto : key = protoKey := Classical.byContradiction fun other => shared (native.own other)
  subst isProto
  obtain ⟨role, known, different⟩ := native
  cases role with
  | foreign => exact absurd rfl different
  | scope => exact absurd (.inl known) shared
  | object proto outer =>
      rw [(laid.proto frame proto outer known).1] at bound
      cases bound
      exact ⟨rfl, outer, known⟩

/-- A frame has the role that is added last, or the one that it had. -/
theorem role_of_append {role found : Role} (there : (layout.roles ++ [role])[frame]? = some found) :
    frame ≠ session.frames.size ∧ layout.roles[frame]? = some found ∨
      frame = session.frames.size ∧ role = found := by
  rw [← laid.size]
  by_cases inside : frame < layout.roles.length
  · rw [List.getElem?_append_left inside] at there
    exact .inl ⟨Nat.ne_of_lt inside, there⟩
  · have last : frame = layout.roles.length := by
      have limit := (List.getElem?_eq_some_iff.mp there).1
      rw [List.length_append, List.length_singleton] at limit
      omega
    subst last
    exact .inr ⟨rfl, by simpa using there⟩

/-- What an earlier frame may bind it could bind before. -/
theorem own_of_append {role : Role} (earlier : frame ≠ session.frames.size)
    (own : Own { layout with roles := layout.roles ++ [role] } frame key) : layout.Own frame key := by
  rcases own with scope | ⟨⟨proto, outer, object⟩, different⟩
  · obtain ⟨-, there⟩ | ⟨same, -⟩ := laid.role_of_append scope
    · exact .inl there
    · exact absurd same earlier
  · obtain ⟨-, there⟩ | ⟨same, -⟩ := laid.role_of_append object
    · exact .inr ⟨⟨proto, outer, there⟩, different⟩
    · exact absurd same earlier

/-- The prototype slot of a new object is the only slot that a new frame may have. -/
theorem push {after : Session} {role : Role} (native : role ≠ .foreign)
    (chained : ∀ proto outer, role = .object proto outer → layout.Chained outer)
    (size : after.frames.size = session.frames.size + 1)
    (allocators : after.allocators = session.allocators)
    (identities : after.identities = session.identities)
    (slots : ∀ frame, frame ≠ session.frames.size → after.slots frame = session.slots frame)
    (allocatorOf : ∀ frame, frame ≠ session.frames.size →
      after.allocatorOf frame = session.allocatorOf frame)
    (own : after.allocatorOf session.frames.size = Session.machineAllocator)
    (bound : ∀ key address, (after.slots session.frames.size).address? key = some address →
      role ≠ .scope ∧ key = protoKey ∧ ∃ scope, layout.roles[scope]? = some .scope ∧
        (session.slots scope).address? intrinsicKey = some address)
    (seeded : ∀ proto outer, role = .object proto outer →
      (after.slots session.frames.size).address? protoKey = some proto) :
    Frames since { layout with roles := layout.roles ++ [role] } after := by
  have passed := Later.push layout native
  have known : ∀ {frame found}, (layout.roles ++ [role])[frame]? = some found →
      frame ≠ session.frames.size ∧ layout.roles[frame]? = some found ∨
        frame = session.frames.size ∧ role = found := laid.role_of_append
  have outside : ∀ {frame}, layout.Native frame → frame ≠ session.frames.size := by
    intro frame there
    rw [← laid.size]
    exact Nat.ne_of_lt there.lt
  -- a slot of its own that is bound already belongs to a frame that was there before
  have before : ∀ {frame key address}, Own { layout with roles := layout.roles ++ [role] } frame key →
      (after.slots frame).address? key = some address →
      layout.Own frame key ∧ (session.slots frame).address? key = some address := by
    rintro frame key address (scope | ⟨⟨proto, outer, object⟩, different⟩) held
    · obtain ⟨apart, there⟩ | ⟨rfl, rfl⟩ := known scope
      · exact ⟨.inl there, slots frame apart ▸ held⟩
      · exact absurd rfl (bound key address held).1
    · obtain ⟨apart, there⟩ | ⟨rfl, rfl⟩ := known object
      · exact ⟨.inr ⟨⟨proto, outer, there⟩, different⟩, slots frame apart ▸ held⟩
      · exact absurd (bound key address held).2.1 different
  have still : ∀ {scope address}, layout.roles[scope]? = some .scope →
      (session.slots scope).address? intrinsicKey = some address →
      (layout.roles ++ [role])[scope]? = some .scope ∧
        (after.slots scope).address? intrinsicKey = some address := by
    intro scope address there held
    refine ⟨passed.role there, ?_⟩
    rw [slots scope (outside (native_of_scope there))]
    exact held
  exact {
    size := by rw [List.length_append, List.length_singleton, laid.size, size]
    sinceSize := by rw [size]; exact Nat.le_succ_of_le laid.sinceSize
    allocated := by
      unfold Session.allocated
      rw [allocators]
      exact laid.allocated
    identities := identities.trans laid.identities
    available := by rw [allocators]; exact laid.available
    own := by
      rintro frame ⟨found, there, different⟩
      obtain ⟨apart, earlier⟩ | ⟨rfl, -⟩ := known there
      · rw [allocatorOf frame apart]
        exact laid.own frame ⟨found, earlier, different⟩
      · exact own
    closed := by
      intro frame proto outer there
      obtain ⟨-, earlier⟩ | ⟨rfl, rfl⟩ := known there
      · obtain ⟨around, below⟩ := laid.closed frame proto outer earlier
        exact ⟨around.later passed, below⟩
      · have around := chained proto outer rfl
        refine ⟨around.later passed, fun other member => ?_⟩
        rw [← laid.size]
        exact (laid.native_of_chained around other member).lt
    slots := by
      rintro frame ⟨found, there, different⟩ key address held
      obtain ⟨apart, earlier⟩ | ⟨rfl, -⟩ := known there
      · rw [slots frame apart] at held
        exact laid.slots frame ⟨found, earlier, different⟩ key address held
      · obtain ⟨-, -, scope, role, bound⟩ := bound key address held
        exact laid.slots scope (native_of_scope role) _ _ bound
    present := by
      intro frame key address own held
      obtain ⟨own, held⟩ := before own held
      exact laid.present frame key address own held
    apart := by
      intro frame key other found address own ownAgain held heldAgain
      obtain ⟨own, held⟩ := before own held
      obtain ⟨ownAgain, heldAgain⟩ := before ownAgain heldAgain
      exact laid.apart frame key other found address own ownAgain held heldAgain
    proto := by
      intro frame proto outer there
      obtain ⟨apart, earlier⟩ | ⟨rfl, rfl⟩ := known there
      · rw [slots frame apart]
        obtain ⟨held, origin⟩ := laid.proto frame proto outer earlier
        refine ⟨held, origin.imp_right ?_⟩
        rintro ⟨scope, role, bound⟩
        exact ⟨scope, still role bound⟩
      · have held := seeded proto outer rfl
        obtain ⟨-, -, scope, role, bound⟩ := bound _ proto held
        exact ⟨held, .inr ⟨scope, still role bound⟩⟩
    late := by
      intro frame proto outer there early other member key address held missing first second
      obtain ⟨apart, earlier⟩ | ⟨rfl, -⟩ := known there
      · have around := laid.native_of_chained (laid.closed frame proto outer earlier).1 other member
        rw [slots frame apart] at first
        rw [slots other (outside around)] at second
        exact laid.late frame proto outer earlier early other member key address held missing first
          second
      -- The new frame was not there in the earlier session.
      · exact absurd early (Nat.not_lt.mpr laid.sinceSize) }

/-- A new scope is laid out as a scope. -/
theorem addFrame :
    Frames since { layout with roles := layout.roles ++ [.scope] }
      (session.addFrame Session.machineAllocator) := by
  refine laid.push Role.noConfusion (fun _ _ impossible => Role.noConfusion impossible) (by simp) rfl rfl
    (fun _ => session.slots_addFrame_of_ne _) (fun _ => session.allocatorOf_addFrame_of_ne _)
    (session.allocatorOf_addFrame_self _) ?_ (fun _ _ impossible => Role.noConfusion impossible)
  intro key address held
  rw [session.slots_addFrame_self] at held
  cases held

/-- A new object is laid out behind its prototype. -/
theorem addObject {outer : List Nat} {proto : Address} (chained : layout.Chained outer) {scope : Nat}
    (role : layout.roles[scope]? = some .scope)
    (bound : (session.slots scope).address? intrinsicKey = some proto) :
    Frames since { layout with roles := layout.roles ++ [.object proto outer] }
      (session.addObject Session.machineAllocator proto) := by
  refine laid.push Role.noConfusion ?_ (by simp) rfl rfl
    (fun _ => session.slots_addObject_of_ne _ _) ?_ ?_ ?_ ?_
  · rintro _ _ ⟨⟩
    exact chained
  · intro frame different
    rw [session.allocatorOf_addObject, session.allocatorOf_addFrame_of_ne _ different]
  · rw [session.allocatorOf_addObject, session.allocatorOf_addFrame_self]
  · intro key address held
    rw [session.slots_addObject_self] at held
    unfold Slots.address? at held
    split at held
    · rename_i same
      cases held
      exact ⟨Role.noConfusion, same.symm, scope, role, bound⟩
    · cases held
  · rintro _ _ ⟨⟩
    rw [session.slots_addObject_self]
    rfl

/-- A native frame that binds a further name takes the next address. An object that was there already
may do so where its prototypes do not have the name. -/
theorem declare (written : Tree) (native : layout.Native frame)
    (missing : (session.slots frame).address? key = none)
    (unseen : ∀ proto outer, layout.roles[frame]? = some (.object proto outer) →
      frame < since.frames.size → ∀ other ∈ outer, (session.slots other).address? key = none) :
    Frames since { layout with allocated := layout.allocated + 1 }
      (session.declare frame key written).2 := by
  have own := laid.own frame native
  have inside : frame < session.frames.size := by
    rw [← laid.size]
    exact native.lt
  have next : (session.declare frame key written).1 = ((layout.allocated + 1 : Nat) : Int) := by
    rw [session.declare_of_unbound written missing own laid.available, laid.allocated]
  have self := @Session.address?_declare_self key written session frame inside
  rw [next] at self
  have kept : ∀ {other found}, other ≠ frame ∨ found ≠ key →
      ((session.declare frame key written).2.slots other).address? found =
        (session.slots other).address? found := session.address?_declare_of_ne written
  have known : ∀ {other found address}, layout.Native other →
      ((session.declare frame key written).2.slots other).address? found = some address →
      (other = frame ∧ found = key ∧ address = ((layout.allocated + 1 : Nat) : Int)) ∨
        (session.slots other).address? found = some address ∧ layout.Handed address := by
    intro other found address there held
    by_cases same : other = frame ∧ found = key
    · obtain ⟨rfl, rfl⟩ := same
      rw [self] at held
      exact .inl ⟨rfl, rfl, (Option.some.inj held).symm⟩
    · rw [kept (Decidable.not_and_iff_or_not.mp same)] at held
      exact .inr ⟨held, laid.slots other there found address held⟩
  exact {
    size := by rw [session.size_declare]; exact laid.size
    sinceSize := by rw [session.size_declare]; exact laid.sinceSize
    allocated := by
      rw [session.allocated_declare written missing own laid.available, laid.allocated]
    identities := (session.identities_declare ..).trans laid.identities
    available := by rw [session.allocators_declare]; exact laid.available
    own := fun other there => (session.allocatorOf_declare ..).trans (laid.own other there)
    closed := laid.closed
    slots := by
      intro other there found address held
      obtain ⟨-, -, rfl⟩ | ⟨-, lower, upper⟩ := known there held
      · exact ⟨Int.natCast_nonneg _, Int.le_refl _⟩
      · exact ⟨lower, Int.le_trans upper (Int.ofNat_le.mpr (Nat.le_succ _))⟩
    present := by
      intro other found address there held
      obtain ⟨-, -, rfl⟩ | ⟨before, -⟩ := known there.native held
      · exact Int.natCast_ne_zero.mpr (Nat.succ_ne_zero _)
      · exact laid.present other found address there before
    apart := by
      intro first firstKey second secondKey address there thereAgain held heldAgain
      obtain ⟨rfl, rfl, rfl⟩ | ⟨before, -, upper⟩ := known there.native held
      · obtain ⟨rfl, rfl, -⟩ | ⟨-, -, upper⟩ := known thereAgain.native heldAgain
        · exact ⟨rfl, rfl⟩
        · exact absurd (Int.ofNat_le.mp upper) (Nat.not_succ_le_self _)
      · obtain ⟨rfl, rfl, rfl⟩ | ⟨beforeAgain, -⟩ := known thereAgain.native heldAgain
        · exact absurd (Int.ofNat_le.mp upper) (Nat.not_succ_le_self _)
        · exact laid.apart first firstKey second secondKey address there thereAgain before beforeAgain
    proto := by
      intro other proto outer role
      obtain ⟨held, origin⟩ := laid.proto other proto outer role
      have grows := session.grows_declare frame key written
      refine ⟨grows.kept other _ proto held, origin.imp_right ?_⟩
      rintro ⟨scope, there, bound⟩
      exact ⟨scope, there, grows.kept scope _ proto bound⟩
    late := by
      intro other proto outer role early around member found address held absent first second
      have aroundNative := laid.native_of_chained (laid.closed other proto outer role).1 around member
      have below := (laid.closed other proto outer role).2 around member
      obtain ⟨rfl, rfl, rfl⟩ | ⟨first, -, upper⟩ := known (native_of_object role) first
      · -- the new slot: its prototypes lack the key, before and after
        rw [kept (.inl (Nat.ne_of_lt below)), unseen proto outer role early around member] at second
        cases second
      · obtain ⟨-, -, rfl⟩ | ⟨second, -⟩ := known aroundNative second
        · exact Int.lt_of_le_of_lt upper (Int.ofNat_lt.mpr (Nat.lt_succ_self _))
        · exact laid.late other proto outer role early around member found address held absent first
            second }

/-- What is bound next has a higher address than anything before. -/
theorem lt_declare (written : Tree) (native : layout.Native frame)
    (missing : (session.slots frame).address? key = none) :
    (layout.allocated : Int) < (session.declare frame key written).1 := by
  rw [session.declare_of_unbound written missing (laid.own frame native) laid.available, laid.allocated]
  exact Int.ofNat_lt.mpr (Nat.lt_succ_self _)

end Frames

namespace Stores

variable {kept : Store} {layout after : Layout} {store next : Store}

/-- A store in order stays in order. -/
theorem later (passed : layout.Later after) (stored : Stores kept layout store) :
    Stores kept after store where
  bound address contained :=
    ⟨(stored.bound address contained).1, (stored.bound address contained).2.later passed⟩
  good address := (stored.good address).later passed
  keeps := stored.keeps

/-- Writing a good value where it may be written keeps a store in order. -/
theorem extend {address : Address} {value : Value} (stored : Stores kept layout store)
    (handed : layout.Handed address) (good : layout.Good value)
    (extended : store.extend address value = .ok next) : Stores kept layout next where
  bound other contained := by
    obtain rfl | before := Store.contains_of_extend extended contained
    · exact ⟨Store.ne_of_extend extended, handed⟩
    · exact stored.bound other before
  good other := by
    rw [Store.get_extend extended]
    split
    · exact good
    · exact stored.good other
  keeps other contained := Store.contains_extend extended (stored.keeps other contained)

/-- The frames of a prototype stand around those of a new object. -/
theorem chained (stored : Stores kept layout store) (proto : Address) :
    layout.Chained (store.prototypeChain proto) := by
  have good := stored.good proto
  unfold Store.prototypeChain
  cases held : store.get proto with
  | object object =>
      rw [held] at good
      exact good.chained
  | _ => trivial

/-- What is bound next is not bound by any store yet. -/
theorem get_of_fresh (stored : Stores kept layout store) {address : Int}
    (fresh : (layout.allocated : Int) < address) : store.get address = .undefined := by
  have notNull : address ≠ 0 := by omega
  refine Store.get_of_unbound notNull ?_
  cases contained : store.contains address with
  | false => rfl
  | true => exact absurd (stored.bound address contained).2.2 (Int.not_le.mpr fresh)

/-- Every store keeps its own addresses. -/
theorem restart (stored : Stores kept layout store) : Stores store layout store :=
  ⟨stored.bound, stored.good, fun _ contained => contained⟩

end Stores

end Layout

/-- What is said about the layout of a run, wherever control stands. An object that is being built was
not there before. -/
def Account.layout (since : Session) (kept : Store) : Account where
  World := Layout
  Later := Layout.Later
  Frames := Layout.Frames since
  Stores := Layout.Stores kept
  Good := Layout.Good
  Readable := Layout.Handed
  Writable := Layout.Handed
  Sees layout scope _ := layout.Visible scope
  Stands layout _ scope := layout.Visible scope
  Binds layout scope _ := layout.Visible scope
  Building layout object :=
    layout.Good (.object object) ∧ since.frames.size ≤ object.properties.inner
  Assigned _ := True
  Rebinds := True

namespace Layout

variable {since session : Session} {kept : Store} {layout : Layout}

/-- A native frame binds a name, and its address has been handed out then. No frame is added. -/
theorem reaches_declare {frame : Nat} {key : Key} (written : Tree)
    (laid : Frames since layout session) (native : layout.Native frame)
    (unseen : (session.slots frame).address? key = none →
      ∀ proto outer, layout.roles[frame]? = some (.object proto outer) → frame < since.frames.size →
      ∀ other ∈ outer, (session.slots other).address? key = none) :
    (Account.layout since kept).Reaches layout (session.declare frame key written).2
      fun later => later.roles = layout.roles ∧ later.Handed (session.declare frame key written).1 := by
  cases bound : (session.slots frame).address? key with
  | some address =>
      rw [Session.declare_of_bound bound]
      exact ⟨layout, .refl layout, laid, rfl, laid.slots frame native key address bound⟩
  | none =>
      refine ⟨_, .advance layout, laid.declare written native bound (unseen bound), rfl, ?_⟩
      rw [Session.declare_of_unbound written bound (laid.own frame native) laid.available,
        laid.allocated]
      exact ⟨Int.natCast_nonneg _, Int.le_refl _⟩

/-- The inner frame of a scope binds a name. -/
theorem reaches_bind {scope : Scope} {key : Key} (written : Tree) (laid : Frames since layout session)
    (visible : layout.Visible scope) :
    (Account.layout since kept).Reaches layout (session.declare scope.inner key written).2 fun later =>
      later.roles = layout.roles ∧ later.Handed (session.declare scope.inner key written).1 := by
  have role := visible scope.inner List.mem_cons_self
  refine reaches_declare written laid (native_of_scope role) ?_
  intro _ proto outer other
  rw [role] at other
  cases other

/-- An object that is being built is given a property. -/
theorem reaches_fill {object : Object} {key : Key} (written : Tree) (laid : Frames since layout session)
    (building : (Account.layout since kept).Building layout object) :
    (Account.layout since kept).Reaches layout
      (session.declare object.properties.inner key written).2 fun later =>
        later.roles = layout.roles ∧
          later.Handed (session.declare object.properties.inner key written).1 := by
  refine reaches_declare written laid (native_of_object building.1) ?_
  intro _ proto outer _ early
  exact absurd early (Nat.not_lt.mpr building.2)

/-- A new object gets a frame, and the frames of its prototype stand around it. -/
theorem reaches_addObject {store : Store} {scope : Scope} {proto : Address}
    (laid : Frames since layout session) (stored : Stores kept layout store)
    (visible : layout.Visible scope) (found : session.resolve? scope intrinsicKey = some proto) :
    (Account.layout since kept).Reaches layout (session.addObject Session.machineAllocator proto)
      fun later => later.roles = layout.roles ++ [.object proto (store.prototypeChain proto)] ∧
        (Account.layout since kept).Building later
          ⟨proto, ⟨session.frames.size, store.prototypeChain proto⟩⟩ := by
  have chained := stored.chained proto
  obtain ⟨frame, member, bound⟩ := List.exists_of_findSome?_eq_some found
  refine ⟨_, .push layout Role.noConfusion, laid.addObject chained (visible frame member) bound, rfl, ?_,
    laid.sinceSize⟩
  show _[session.frames.size]? = _
  rw [← laid.size]
  simp

/-- A scope inside another one gets a frame for names. -/
theorem reaches_addFrame {allocator : Nat} {outer : List Nat} (laid : Frames since layout session)
    (machine : allocator = Session.machineAllocator)
    (visible : ∀ frame ∈ outer, layout.roles[frame]? = some .scope) :
    (Account.layout since kept).Reaches layout (session.addFrame allocator) fun later =>
      later.roles = layout.roles ++ [.scope] ∧ later.Visible ⟨session.frames.size, outer⟩ := by
  subst machine
  have passed : layout.Later { layout with roles := layout.roles ++ [.scope] } :=
    .push layout Role.noConfusion
  refine ⟨_, passed, laid.addFrame, rfl, ?_⟩
  intro frame member
  rcases List.mem_cons.mp member with rfl | deeper
  · rw [← laid.size]
    simp
  · exact passed.role (visible frame deeper)

/-- A property that is looked for is found, or is bound where no prototype has it. -/
theorem reaches_locate {object : Object} {key : Key} (written : Tree)
    (laid : Frames since layout session) (good : layout.Good (.object object)) :
    (Account.layout since kept).Reaches layout (session.locate object.properties key written).2
      fun later => later.roles = layout.roles ∧
        later.Handed (session.locate object.properties key written).1 := by
  unfold Session.locate
  split
  · rename_i address found
    exact ⟨layout, .refl layout, laid, rfl,
      laid.handed_of_findSome (laid.native_of_chained good.chained) found⟩
  · rename_i missing
    refine reaches_declare written laid (native_of_object good) ?_
    intro _ proto outer known _ other member
    cases good.symm.trans known
    exact List.findSome?_eq_none_iff.mp missing other (List.mem_cons_of_mem _ member)

end Layout

/-- Every program keeps its frames and stores laid out well. -/
def Regime.layout (since : Session) (kept : Store) : Regime where
  toAccount := .layout since kept
  later_refl := Layout.Later.refl
  later_trans := Layout.Later.trans
  stores_later passed stored := stored.later passed
  good_later passed good := good.later passed
  readable_later passed handed := handed.later passed
  writable_later passed handed := handed.later passed
  sees_later passed visible := visible.later passed
  stands_later passed visible := visible.later passed
  binds_later passed visible := visible.later passed
  building_later passed building := ⟨building.1.later passed, building.2⟩
  plain isPlain := Layout.good_of_isPlain isPlain
  own good := good.1
  direct bad := nomatch bad
  read stored _ := stored.good _
  write stored handed good extended := stored.extend handed good extended
  report output journal laid := laid.report output journal
  sees_operand visible _ := visible
  sees_of_stands visible := visible
  binds_of_stands visible _ _ := visible
  flow visible _ := visible
  assigned {_ _ _ left _} _ := by
    unfold Account.Assignable
    split
    · trivial
    · exact fun _ => trivial
    · trivial
    · trivial
  close := by
    intro layout session scope node code laid visible _
    refine ⟨_, .identify layout, laid.identify, ?_, visible.later (.identify layout)⟩
    rw [laid.identities]
    exact Nat.lt_succ_self _
  resolve laid visible _ found :=
    ⟨laid.handed_of_visible visible found, fun _ => laid.handed_of_visible visible found⟩
  declare := by
    intro layout session scope key written laid visible
    obtain ⟨later, passed, held, -, handed⟩ := Layout.reaches_bind written laid visible
    exact ⟨later, passed, held, handed⟩
  opens := by
    intro layout session control scope params entered laid visible _
    have native := Layout.native_of_scope (visible scope.inner List.mem_cons_self)
    obtain ⟨later, passed, held, -, inner⟩ :=
      Layout.reaches_addFrame laid (laid.own scope.inner native) visible
    exact ⟨later, passed, held, inner, fun _ _ _ _ => inner⟩
  enter := by
    intro layout session closure laid good
    obtain ⟨later, passed, held, -, inner⟩ := Layout.reaches_addFrame laid rfl good.2
    exact ⟨later, passed, held, inner, fun _ _ _ _ => inner⟩
  create := by
    intro layout session store scope place properties proto laid stored visible found
    obtain ⟨later, passed, held, -, building⟩ := Layout.reaches_addObject laid stored visible found
    exact ⟨later, passed, held, building⟩
  fill := by
    intro layout session scope object place key name value written laid building _ _
    obtain ⟨later, passed, held, -, handed⟩ := Layout.reaches_fill written laid building
    exact ⟨later, passed, held, handed⟩
  finish building := building.1
  locate := by
    intro layout session object key written laid good
    obtain ⟨later, passed, held, -, handed⟩ := Layout.reaches_locate written laid good
    exact ⟨later, passed, held, handed, fun _ => handed⟩

namespace Layout

/-- The layout that a run begins with: frames of others, then the globals and the prototype of
objects. -/
def initial (base : Session) : Layout :=
  ⟨List.replicate base.frames.size .foreign ++ [.scope, .object 0 []], 5, base.identities + 3⟩

section

variable (base : Session)

theorem role_globals : (initial base).roles[base.frames.size]? = some .scope := by
  simp [initial]

theorem role_prototype : (initial base).roles[base.frames.size + 1]? = some (.object 0 []) := by
  simp [initial]

variable {frame : Nat}

/-- A run starts with a scope for the globals and with one prototype. -/
theorem roles_initial {role : Role} (known : (initial base).roles[frame]? = some role) :
    role = .foreign ∨ frame = base.frames.size ∧ role = .scope ∨
      frame = base.frames.size + 1 ∧ role = .object 0 [] :=
  Machine.noted_begun known

/-- Frames that were created since a run began belong to it. -/
theorem Later.native_of_created {base : Session} {layout : Layout} (passed : (initial base).Later layout)
    (created : base.frames.size ≤ frame) (inside : frame < layout.roles.length) : layout.Native frame := by
  by_cases early : frame < (initial base).roles.length
  · have later : frame = base.frames.size ∨ frame = base.frames.size + 1 := by
      simp only [initial, List.length_append, List.length_replicate, List.length_cons,
        List.length_nil] at early
      omega
    refine Native.later passed ?_
    obtain rfl | rfl := later
    · exact native_of_scope (role_globals base)
    · exact native_of_object (role_prototype base)
  · exact passed.native (Nat.not_lt.mp early) inside

/-- A run starts with two frames of its own. -/
theorem native_initial (native : (initial base).Native frame) :
    frame = base.frames.size ∨ frame = base.frames.size + 1 := by
  obtain ⟨role, known, own⟩ := native
  obtain foreign | ⟨same, -⟩ | ⟨same, -⟩ := roles_initial base known
  · exact absurd foreign own
  · exact .inl same
  · exact .inr same

end

end Layout

/-- An address that is found stands in a slot. -/
theorem Slots.exists_of_address? {slots : Slots} {key : Key} {address : Address}
    (found : slots.address? key = some address) :
    ∃ slot ∈ slots, slot.key = key ∧ slot.address = address := by
  induction slots with
  | nil => cases found
  | cons slot rest ih =>
      rw [Slots.address?] at found
      split at found
      · cases found
        exact ⟨slot, List.mem_cons_self, ‹_›, rfl⟩
      · obtain ⟨other, member, same⟩ := ih found
        exact ⟨other, List.mem_cons_of_mem _ member, same⟩

namespace Layout

variable {base : Session} (allocates : Session.machineAllocator < base.allocators.size)

theorem slots_begun_globals : (Machine.begun base).slots base.frames.size = Globals.ownSlots :=
  @Globals.slots_underway base Globals.ownSlots (some Globals.methodSlots) 5 3

theorem frame_begun_prototype :
    (Machine.begun base).frames[base.frames.size + 1]? =
      some ⟨Session.machineAllocator, Globals.methodSlots⟩ := by
  have size : (base.frames.push ⟨Session.machineAllocator, Globals.ownSlots⟩).size =
      base.frames.size + 1 := Array.size_push _
  rw [← size]
  exact Array.getElem?_push_size

theorem slots_begun_prototype :
    (Machine.begun base).slots (base.frames.size + 1) = Globals.methodSlots := by
  rw [Session.slots, frame_begun_prototype]
  rfl

/-- What the frames of a run bind that has just begun. -/
theorem slot_begun {frame : Nat} (native : (initial base).Native frame) {key : Key} {address : Address}
    (found : ((Machine.begun base).slots frame).address? key = some address) :
    (frame = base.frames.size ∧ ∃ slot ∈ Globals.ownSlots, slot.key = key ∧ slot.address = address) ∨
      frame = base.frames.size + 1 ∧
        ∃ slot ∈ Globals.methodSlots, slot.key = key ∧ slot.address = address := by
  obtain rfl | rfl := native_initial base native
  · rw [slots_begun_globals] at found
    exact .inl ⟨rfl, Slots.exists_of_address? found⟩
  · rw [slots_begun_prototype] at found
    exact .inr ⟨rfl, Slots.exists_of_address? found⟩

theorem ne_protoKey_of_own {key : Key} (own : (initial base).Own (base.frames.size + 1) key) :
    key ≠ protoKey := by
  rcases own with scope | ⟨-, different⟩
  · simp [initial] at scope
  · exact different

include allocates

/-- Runs begin laid out well. -/
theorem frames_begun : Frames (Machine.begun base) (initial base) (Machine.begun base) where
  size := by simp [initial, Machine.begun, Globals.underway]
  sinceSize := Nat.le_refl _
  allocated := Globals.allocated_underway Globals.ownSlots (some Globals.methodSlots) 5 3 allocates
  identities := rfl
  available := by simpa [Machine.begun, Globals.underway] using allocates
  own := by
    intro frame native
    obtain rfl | rfl := native_initial base native
    · exact @Globals.allocatorOf_underway base Globals.ownSlots (some Globals.methodSlots) 5 3
    · rw [Session.allocatorOf, frame_begun_prototype]
      rfl
  closed := by
    intro frame proto outer known
    obtain foreign | ⟨-, scope⟩ | ⟨-, object⟩ := roles_initial base known
    · cases foreign
    · cases scope
    · cases object
      exact ⟨trivial, fun other member => absurd member List.not_mem_nil⟩
  slots := by
    intro frame native key address found
    obtain ⟨-, slot, member, -, rfl⟩ | ⟨-, slot, member, -, rfl⟩ := slot_begun native found
    · exact (show ∀ slot ∈ Globals.ownSlots, 0 ≤ slot.address ∧ slot.address ≤ 5 by decide) slot member
    · exact (show ∀ slot ∈ Globals.methodSlots, 0 ≤ slot.address ∧ slot.address ≤ 5 by decide) slot member
  present := by
    intro frame key address own found
    obtain ⟨-, slot, member, rfl, rfl⟩ | ⟨rfl, slot, member, rfl, rfl⟩ := slot_begun own.native found
    · exact (show ∀ slot ∈ Globals.ownSlots, slot.address ≠ 0 by decide) slot member
    · exact (show ∀ slot ∈ Globals.methodSlots, slot.key ≠ protoKey → slot.address ≠ 0 by decide)
        slot member (ne_protoKey_of_own own)
  apart := by
    intro frame key other found address own ownAgain held heldAgain
    obtain ⟨rfl, slot, member, rfl, rfl⟩ | ⟨rfl, slot, member, rfl, rfl⟩ := slot_begun own.native held
    · obtain ⟨rfl, twin, twinMember, rfl, same⟩ | ⟨rfl, twin, twinMember, rfl, same⟩ :=
        slot_begun ownAgain.native heldAgain
      · exact ⟨rfl, (show ∀ slot ∈ Globals.ownSlots, ∀ twin ∈ Globals.ownSlots,
          twin.address = slot.address → slot.key = twin.key by decide) slot member twin twinMember same⟩
      · exact absurd same ((show ∀ slot ∈ Globals.ownSlots, ∀ twin ∈ Globals.methodSlots,
          twin.address ≠ slot.address by decide) slot member twin twinMember)
    · obtain ⟨rfl, twin, twinMember, rfl, same⟩ | ⟨rfl, twin, twinMember, rfl, same⟩ :=
        slot_begun ownAgain.native heldAgain
      · exact absurd same ((show ∀ slot ∈ Globals.methodSlots, ∀ twin ∈ Globals.ownSlots,
          twin.address ≠ slot.address by decide) slot member twin twinMember)
      · exact ⟨rfl, (show ∀ slot ∈ Globals.methodSlots, ∀ twin ∈ Globals.methodSlots,
          twin.address = slot.address → slot.key = twin.key by decide) slot member twin twinMember same⟩
  proto := by
    intro frame proto outer known
    obtain foreign | ⟨-, scope⟩ | ⟨rfl, object⟩ := roles_initial base known
    · cases foreign
    · cases scope
    · cases object
      rw [slots_begun_prototype]
      exact ⟨rfl, .inl rfl⟩
  late := by
    intro frame proto outer _ _ other _ key address held missing found
    rw [missing] at found
    cases found

omit allocates in
/-- The store of the globals is in order. -/
theorem stores_begun : Stores .empty (initial base) (Globals.store base) where
  bound := by
    intro address contained
    unfold Globals.store at contained
    have inserted : ∀ {store : Store} {found : Address} {value : Value},
        found ≠ 0 ∧ (initial base).Handed found →
        (store.contains address = true → address ≠ 0 ∧ (initial base).Handed address) →
        (store.insert found value).contains address = true →
        address ≠ 0 ∧ (initial base).Handed address := by
      intro store found value handed before contained
      obtain rfl | earlier := Store.contains_of_extend (Store.extend_of_ne handed.1) contained
      · exact handed
      · exact before earlier
    have handed : ∀ found : Int, 1 ≤ found → found ≤ 5 → found ≠ 0 ∧ (initial base).Handed found := by
      intro found lower upper
      have positive : 0 ≤ found := by omega
      exact ⟨by omega, positive, upper⟩
    refine inserted (handed _ (by decide) (by decide)) ?_ contained
    refine inserted (handed _ (by decide) (by decide)) ?_
    refine inserted (handed _ (by decide) (by decide)) ?_
    refine inserted (handed _ (by decide) (by decide)) ?_
    refine inserted (handed _ (by decide) (by decide)) ?_
    intro contained
    exact absurd contained (by simp [Store.contains, Store.empty])
  good := by
    refine Globals.forall_get_store base good_of_isPlain (role_prototype base) ?_
    intro offset arity name routine small own
    exact ⟨own, Nat.add_lt_add_left small _⟩
  keeps := by
    intro address contained
    exact absurd contained (by simp [Store.contains, Store.empty])

omit allocates in
/-- The globals are visible. -/
theorem visible_begun : (initial base).Visible (Machine.globalScope base) := by
  intro frame member
  obtain rfl := List.mem_singleton.mp member
  exact role_globals base

end Layout

namespace Machine

variable {machine : Machine} {program : Node} {base : Session} {held : Exploration}

/-- What is explored is laid out well. -/
theorem Explored.layout (explored : machine.Explored program base held) :
    ∃ layout, (Layout.initial base).Later layout ∧
      Layout.Frames (begun base) layout held.session ∧
      ∀ state ∈ held.states, (Account.layout (begun base) .empty).Sound layout state :=
  (Regime.layout (begun base) .empty).explored explored fun allocates =>
    ⟨Layout.frames_begun allocates, Layout.stores_begun, Layout.visible_begun⟩

end Machine

namespace Layout

/-- What an object has resolved since a given session it goes on to resolve to the same address: a slot
that comes to stand before it would have a fresh address, and was given where nothing was found. -/
theorem Frames.resolves {since session later : Session} {layout : Layout}
    (laid : Frames since layout later) (before : since.Grows session) (after : session.Grows later)
    {key : Key} {address : Address} {chain : List Nat} (chained : layout.Chained chain)
    (inside : ∀ frame ∈ chain, frame < since.frames.size)
    (handed : address ≤ (session.allocated Session.machineAllocator : Int))
    (found : chain.findSome? (fun frame => (session.slots frame).address? key) = some address) :
    chain.findSome? (fun frame => (later.slots frame).address? key) = some address := by
  induction chain with
  | nil => cases found
  | cons frame outer ih =>
      obtain ⟨proto, role⟩ := chained
      have early := inside frame List.mem_cons_self
      rw [List.findSome?_cons] at found ⊢
      cases bound : (session.slots frame).address? key with
      | some held =>
          rw [bound] at found
          rw [after.kept frame key held bound]
          exact found
      | none =>
          rw [bound] at found
          have further := ih (laid.closed frame proto outer role).1
            (fun other member => inside other (List.mem_cons_of_mem _ member)) found
          cases taken : (later.slots frame).address? key with
          | none => exact further
          -- Such a slot would have an address that was handed out after the session, and at the same time one
          -- below the address that was found.
          | some fresh =>
              have unbound : (since.slots frame).address? key = none := by
                cases initially : (since.slots frame).address? key with
                | none => rfl
                | some held =>
                    have still := before.kept frame key held initially
                    rw [bound] at still
                    cases still
              have native : layout.Native frame := native_of_object role
              have small := Nat.lt_of_lt_of_le early before.size
              have isFresh := (after.fresh (after.allocators ▸ laid.available) frame small
                (after.allocatorOf frame small ▸ laid.own frame native) key fresh bound taken).1
              obtain ⟨other, member, held⟩ := List.exists_of_findSome?_eq_some further
              have isOld := laid.late frame proto outer role early other member key fresh address unbound
                taken held
              exact absurd (Int.lt_of_lt_of_le isOld handed) (Int.not_lt.mpr (Int.le_of_lt isFresh))

end Layout

end ScriptMachine
