/-
This file compares a run with the run of a program whose variables have been renamed. Main statement:
states that differ in the names of variables step to states that differ in the names of variables.
-/

import ScriptMachine.Proofs.Tracing

namespace ScriptMachine

namespace Slots

variable (naming : Naming) (slots : Slots) (key : Key)

/-- Renamed slots find renamed keys. -/
theorem address?_map_slot :
    Slots.address? (slots.map naming.slot) (naming.key key) = slots.address? key := by
  induction slots with
  | nil => rfl
  | cons slot rest ih =>
      have keyed : (naming.slot slot).key = naming.key slot.key := by cases naming <;> rfl
      have addressed : (naming.slot slot).address = slot.address := by cases naming <;> rfl
      rw [List.map_cons, Slots.address?, Slots.address?, keyed, addressed, ih]
      by_cases same : slot.key = key
      · rw [if_pos (congrArg naming.key same), if_pos same]
      · rw [if_neg fun equal => same (naming.key_injective equal), if_neg same]

/-- Renamed slots are set under renamed keys. -/
theorem set_map_slot (written : Tree) (address : Address) :
    Slots.set (slots.map naming.slot) (naming.key key) (naming.written written) address =
      (slots.set key written address).map naming.slot := by
  induction slots with
  | nil => cases naming <;> rfl
  | cons slot rest ih =>
      have keyed : (naming.slot slot).key = naming.key slot.key := by cases naming <;> rfl
      rw [List.map_cons, Slots.set, Slots.set, keyed, ih]
      by_cases same : slot.key = key
      · rw [if_pos (congrArg naming.key same), if_pos same, List.map_cons]
        cases naming <;> rfl
      · rw [if_neg fun equal => same (naming.key_injective equal), if_neg same, List.map_cons]

end Slots

/-- What frames of two kinds are called: frames that bind names are renamed, frames that hold the properties
of an object or were there before are not. -/
def Renaming.within (names : Renaming) : Bool → Naming
  | true => some names
  | false => none

/-- Two sessions that differ in the names that are bound by some of the frames. -/
structure Session.Renames (names : Renaming) (uses : List Bool) (session other : Session) : Prop where
  size : uses.length = session.frames.size
  frames : other.frames.size = session.frames.size
  allocatorOf : ∀ frame, other.allocatorOf frame = session.allocatorOf frame
  slots : ∀ frame binds, uses[frame]? = some binds →
    other.slots frame = (session.slots frame).map (names.within binds).slot
  allocators : other.allocators = session.allocators
  identities : other.identities = session.identities

namespace Session.Renames

variable {names : Renaming} {uses : List Bool} {session other : Session}
  (renames : session.Renames names uses other)
include renames

/-- What is reported may differ. -/
theorem report (output printed : String) (journal again : Array Entry) :
    Session.Renames names uses { session with output, journal }
      { other with output := printed, journal := again } :=
  { renames with }

theorem identify : session.identify.Renames names uses other.identify :=
  { renames with identities := congrArg (· + 1) renames.identities }

theorem allocated (allocator : Nat) : other.allocated allocator = session.allocated allocator := by
  unfold Session.allocated
  rw [renames.allocators]

theorem advance (allocator : Nat) :
    (session.advance allocator).Renames names uses (other.advance allocator) := by
  refine { renames with allocators := ?_ }
  unfold Session.advance
  rw [renames.allocators, renames.allocated]

variable {binds : Bool}

/-- A key may be bound in frames that know it by different names. -/
theorem bind {frame : Nat} (known : uses[frame]? = some binds) (key : Key) (written : Tree)
    (address : Address) :
    (session.bind frame key written address).Renames names uses
      (other.bind frame ((names.within binds).key key) ((names.within binds).written written) address) where
  size := by rw [size_bind, renames.size]
  frames := by rw [size_bind, size_bind, renames.frames]
  allocatorOf held := by rw [allocatorOf_bind, allocatorOf_bind, renames.allocatorOf]
  slots held use found := by
    have inside : frame < session.frames.size := by
      rw [← renames.size]
      exact (List.getElem?_eq_some_iff.mp known).1
    by_cases same : held = frame
    · subst same
      obtain rfl : use = binds := Option.some.inj (found.symm.trans known)
      rw [slots_bind_self _ _ _ inside, slots_bind_self _ _ _ (renames.frames.symm ▸ inside),
        renames.slots held use known, Slots.set_map_slot]
    · rw [slots_bind_of_ne _ _ _ _ same, slots_bind_of_ne _ _ _ _ same, renames.slots held use found]
  allocators := renames.allocators
  identities := renames.identities

/-- Both sessions declare a key at the same address. -/
theorem declare {frame : Nat} (known : uses[frame]? = some binds) (key : Key) (written : Tree) :
    (session.declare frame key written).2.Renames names uses (other.declare frame
        ((names.within binds).key key) ((names.within binds).written written)).2 ∧
      (other.declare frame ((names.within binds).key key) ((names.within binds).written written)).1 =
        (session.declare frame key written).1 := by
  unfold Session.declare
  rw [renames.slots frame binds known, Slots.address?_map_slot, renames.allocatorOf]
  have advanced := renames.advance (session.allocatorOf frame)
  cases (session.slots frame).address? key with
  | some address => exact ⟨renames, rfl⟩
  | none =>
      dsimp only
      rw [advanced.allocated]
      exact ⟨advanced.bind known key written _, rfl⟩

/-- A new frame may know its keys by other names, or not. -/
theorem addFrame (allocator : Nat) (binds : Bool) :
    (session.addFrame allocator).Renames names (uses ++ [binds]) (other.addFrame allocator) where
  size := by rw [List.length_append, List.length_singleton, size_addFrame, renames.size]
  frames := by rw [size_addFrame, size_addFrame, renames.frames]
  allocatorOf frame := by
    by_cases last : frame = session.frames.size
    · subst last
      rw [allocatorOf_addFrame_self]
      have self := other.allocatorOf_addFrame_self allocator
      rw [renames.frames] at self
      exact self
    · rw [allocatorOf_addFrame_of_ne _ _ last,
        allocatorOf_addFrame_of_ne _ _ (renames.frames.symm ▸ last), renames.allocatorOf]
  slots frame use found := by
    by_cases last : frame = session.frames.size
    · subst last
      have self := other.slots_addFrame_self allocator
      rw [renames.frames] at self
      rw [self, slots_addFrame_self]
      rfl
    · have inside : frame < uses.length := by
        have limit := (List.getElem?_eq_some_iff.mp found).1
        rw [List.length_append, List.length_singleton] at limit
        have size := renames.size
        omega
      rw [List.getElem?_append_left inside] at found
      rw [slots_addFrame_of_ne _ _ last, slots_addFrame_of_ne _ _ (renames.frames.symm ▸ last),
        renames.slots frame use found]
  allocators := renames.allocators
  identities := renames.identities

theorem added (binds : Bool) : (uses ++ [binds])[session.frames.size]? = some binds := by
  rw [← renames.size]
  simp

/-- The frame of a new object binds no names. -/
theorem addObject (allocator : Nat) (proto : Address) :
    (session.addObject allocator proto).Renames names (uses ++ [false])
      (other.addObject allocator proto) := by
  have bound := (renames.addFrame allocator false).bind (renames.added false) (.text "__proto__")
    (.text "__proto__") proto
  unfold Session.addObject
  rw [renames.frames]
  exact bound

/-- Both sessions find a key at the same address. -/
theorem resolve? {scope : Scope} (known : ∀ frame ∈ scope.chain, uses[frame]? = some binds) (key : Key) :
    other.resolve? scope ((names.within binds).key key) = session.resolve? scope key := by
  unfold Session.resolve?
  generalize scope.chain = chain at known
  induction chain with
  | nil => rfl
  | cons frame rest ih =>
      obtain ⟨first, others⟩ := List.forall_mem_cons.mp known
      rw [List.findSome?_cons, List.findSome?_cons, renames.slots frame binds first,
        Slots.address?_map_slot, ih others]

/-- A property is found at the same address under either name. -/
theorem locate {scope : Scope} (known : ∀ frame ∈ scope.chain, uses[frame]? = some binds) (key : Key)
    (written : Tree) :
    (session.locate scope key written).2.Renames names uses (other.locate scope
        ((names.within binds).key key) ((names.within binds).written written)).2 ∧
      (other.locate scope ((names.within binds).key key) ((names.within binds).written written)).1 =
        (session.locate scope key written).1 := by
  unfold Session.locate
  rw [renames.resolve? known]
  cases session.resolve? scope key with
  | some address => exact ⟨renames, rfl⟩
  | none => exact renames.declare (known _ List.mem_cons_self) key written

end Session.Renames

/-- Scopes are made of frames that bind names, and objects of frames that do not. -/
def Value.Fits (uses : List Bool) : Value → Prop
  | .function closure => ∀ frame ∈ closure.scope.chain, uses[frame]? = some true
  | .object held => ∀ frame ∈ held.properties.chain, uses[frame]? = some false
  | .builtin _ _ _ routine => routine.isOwn = true
  | value => value.isPlain = true

variable {uses : List Bool} {value : Value}

/-- Values without parts fit everywhere. -/
theorem Value.fits_of_isPlain (isPlain : value.isPlain = true) : value.Fits uses := by
  cases value <;> simp_all [Value.isPlain, Value.Fits]

/-- Values without parts are not renamed. -/
theorem Renaming.value_of_isPlain (names : Renaming) (isPlain : value.isPlain = true) :
    names.value value = value := by
  cases value with
  | function closure => cases isPlain
  | _ => rfl

/-- Frames keep their use. -/
theorem use_append {added : List Bool} {frame : Nat} {binds : Bool} (known : uses[frame]? = some binds) :
    (uses ++ added)[frame]? = some binds := by
  rw [List.getElem?_append_left (List.getElem?_eq_some_iff.mp known).1]
  exact known

theorem uses_self (uses : List Bool) : ∃ added, uses = uses ++ added :=
  ⟨[], (List.append_nil uses).symm⟩

theorem Value.Fits.append (fits : value.Fits uses) (added : List Bool) : value.Fits (uses ++ added) := by
  cases value with
  | function closure => exact fun frame member => use_append (fits frame member)
  | object object => exact fun frame member => use_append (fits frame member)
  | _ => exact fits

/-- A renamed value is akin to the value. -/
theorem Value.Fits.akin (names : Renaming) (fits : value.Fits uses) :
    value.Akin .same (some names) (names.value value) := by
  cases value with
  | function closure =>
      have akin := @Value.Akin.function .same (some names) closure
      rw [Pairing.scope_same] at akin
      exact akin
  | object object =>
      have akin := @Value.Akin.object .same (some names) object.proto object.properties
      rw [Pairing.scope_same] at akin
      exact akin
  | builtin identity arity name routine => exact .builtin identity arity name fits
  | _ => exact .plain fits

/-- Faults that differ at most in the name that was not found. -/
def Fault.Renames (names : Renaming) (fault again : Fault) : Prop :=
  again = fault ∨
    ∃ name : Name, fault = .unresolved name.shown ∧ again = .unresolved (names.name name).shown

/-- Sessions and stores that differ in the names of variables. What was printed is the same where it is
shown. -/
structure Scratch.Renames (names : Renaming) (shows : Prop) (uses : List Bool) (first second : Scratch) :
    Prop where
  session : first.session.Renames names uses second.session
  output : shows → second.session.output = first.session.output
  bound : ∀ address, second.store.contains address = first.store.contains address
  value : ∀ address, second.store.get address = names.value (first.store.get address)
  fits : ∀ address, (first.store.get address).Fits uses

namespace Scratch.Renames

variable {names : Renaming} {shows : Prop} {uses : List Bool} {session other : Session}
  {store copy : Store}

/-- The sessions go on while the stores stay as they are. -/
theorem change (renames : Scratch.Renames names shows uses ⟨session, store⟩ ⟨other, copy⟩)
    {later : List Bool} {after last : Session} (passed : ∃ added, later = uses ++ added)
    (sessions : after.Renames names later last) (printed : after.output = session.output)
    (printedAgain : last.output = other.output) :
    Scratch.Renames names shows later ⟨after, store⟩ ⟨last, copy⟩ where
  session := sessions
  output shown := by
    dsimp only
    rw [printed, printedAgain]
    exact renames.output shown
  bound := renames.bound
  value := renames.value
  fits address := by
    obtain ⟨added, rfl⟩ := passed
    exact (renames.fits address).append added

theorem write {first second : Scratch} (renames : first.Renames names shows uses second) {address : Address}
    {value : Value} (fits : value.Fits uses) (extended : first.store.extend address value = .ok store)
    (again : second.store.extend address (names.value value) = .ok copy) :
    Scratch.Renames names shows uses ⟨first.session, store⟩ ⟨second.session, copy⟩ where
  session := renames.session
  output := renames.output
  bound found := by
    have present := Store.ne_of_extend extended
    rw [Store.extend_of_ne present] at extended again
    cases extended
    cases again
    have same : second.store.bindings.contains found = first.store.bindings.contains found :=
      renames.bound found
    simp [Store.contains, Store.insert, Std.TreeMap.contains_insert, same]
  value found := by
    by_cases same : found = address
    · subst same
      rw [Store.get_extend_self extended, Store.get_extend_self again]
    · rw [Store.get_extend_of_ne extended same, Store.get_extend_of_ne again same]
      exact renames.value found
  fits found := by
    by_cases same : found = address
    · subst same
      rw [Store.get_extend_self extended]
      exact fits
    · rw [Store.get_extend_of_ne extended same]
      exact renames.fits found

theorem prototypeChain (renames : Scratch.Renames names shows uses ⟨session, store⟩ ⟨other, copy⟩)
    (proto : Address) :
    copy.prototypeChain proto = store.prototypeChain proto ∧
      ∀ frame ∈ store.prototypeChain proto, uses[frame]? = some false := by
  have value := renames.value proto
  have fits := renames.fits proto
  dsimp only at value fits
  unfold Store.prototypeChain
  rw [value]
  cases held : store.get proto with
  | object object =>
      rw [held] at fits
      exact ⟨rfl, fits⟩
  | _ => exact ⟨rfl, fun frame member => absurd member List.not_mem_nil⟩

end Scratch.Renames

/-- What is the same in runs of programs that differ in the names of variables. A world says which frames
bind names. -/
def Ties.renamed (names : Renaming) (shows : Prop) : Ties where
  toPairing := .same
  Allowed _ := True
  strict := True
  Matches := Fault.Renames names
  allowed_of_grows _ _ := trivial
  matches_refl _ := .inl rfl
  naming := some names
  World := List Bool
  Later uses later := ∃ added, later = uses ++ added
  Agrees := Scratch.Renames names shows
  Same uses value other := other = names.value value ∧ value.Fits uses
  Located _ address other := other = address
  Seen uses scope := ∀ frame ∈ scope.chain, uses[frame]? = some true
  Home uses scope := ∀ frame ∈ scope.chain, uses[frame]? = some true
  Asked _ _ _ := True
  Built uses object other := other = object ∧ ∀ frame ∈ object.properties.chain, uses[frame]? = some false
  creates := True
  selects := True
  shows := shows

theorem Ties.scope_renamed (names : Renaming) (shows : Prop) (scope : Scope) :
    (Ties.renamed names shows).toPairing.scope scope = scope :=
  Pairing.scope_same scope

/-- Whatever a program does, the names of its variables make no difference. -/
def Correspondence.renamed (names : Renaming) (shows : Prop) : Correspondence where
  toTies := .renamed names shows
  later_refl := uses_self
  later_trans := by
    rintro uses _ _ ⟨added, rfl⟩ ⟨further, rfl⟩
    exact ⟨added ++ further, List.append_assoc uses added further⟩
  same_later := by
    rintro uses _ value _ ⟨added, rfl⟩ ⟨rfl, fits⟩
    exact ⟨rfl, fits.append added⟩
  located_later _ located := located
  seen_later := by
    rintro uses _ scope ⟨added, rfl⟩ seen
    exact fun frame member => use_append (seen frame member)
  home_later := by
    rintro uses _ scope ⟨added, rfl⟩ seen
    exact fun frame member => use_append (seen frame member)
  seen_of_home seen := seen
  asked_later _ _ := trivial
  built_later := by
    rintro uses _ object _ ⟨added, rfl⟩ ⟨rfl, made⟩
    exact ⟨rfl, fun frame member => use_append (made frame member)⟩
  akin := by
    rintro uses value _ ⟨rfl, fits⟩
    exact fits.akin names
  plain isPlain := ⟨(names.value_of_isPlain isPlain).symm, Value.fits_of_isPlain isPlain⟩
  callable := by
    rintro uses closure _ ⟨rfl, fits⟩
    exact fits
  read := by
    rintro uses first second address _ renames rfl
    exact ⟨renames.value _, renames.fits _⟩
  null := by
    rintro _ address _ rfl
    rfl
  write := by
    rintro uses first second address _ value _ store copy renames rfl ⟨rfl, fits⟩ extended again
    exact renames.write fits extended again
  report journal again renames :=
    ⟨renames.session.report _ _ journal again, renames.output, renames.bound, renames.value,
      renames.fits⟩
  print := by
    intro (uses : List Bool) session other store copy text again equal renames
    refine ⟨renames.session.report _ _ _ _, ?_, renames.bound, renames.value, renames.fits⟩
    intro shown
    obtain rfl := equal shown
    exact congrArg (· ++ again) (renames.output shown)
  close := by
    intro (uses : List Bool) session other store copy scope code renames seen
    have passed := uses_self uses
    refine ⟨uses, passed, renames.change passed renames.session.identify rfl rfl, ?_, seen⟩
    have identities : other.identities = session.identities := renames.session.identities
    rw [identities, Ties.scope_renamed]
    rfl
  resolve := by
    intro uses first second scope key address renames home _ found
    refine ⟨address, ?_, rfl⟩
    rw [Ties.scope_renamed, ← found]
    exact renames.session.resolve? home key
  unresolved := by
    intro uses first second scope key _ renames home _ missing
    rw [Ties.scope_renamed, ← missing]
    exact renames.session.resolve? home key
  missing name := .inr ⟨name, rfl, rfl⟩
  nest := by
    intro (uses : List Bool) session other store copy scope ofScope renames seen
    have sessions : session.Renames names uses other := renames.session
    have allocator : other.allocatorOf scope.inner = session.allocatorOf scope.inner :=
      sessions.allocatorOf scope.inner
    refine ⟨sessions.frames, uses ++ [true], ⟨[true], rfl⟩, ?_, ?_⟩
    · have same : (if ofScope = true then other.allocatorOf ((Ties.renamed names shows).frame scope.inner)
          else Session.machineAllocator) =
          if ofScope = true then session.allocatorOf scope.inner else Session.machineAllocator := by
        rw [← allocator]
        rfl
      rw [same]
      exact renames.change ⟨[true], rfl⟩ (sessions.addFrame _ true) rfl rfl
    · intro frame member
      rcases List.mem_cons.mp member with rfl | outer
      · exact sessions.added true
      · exact use_append (seen frame outer)
  declare := by
    intro (uses : List Bool) session other store copy scope key written renames seen _
    obtain ⟨sessions, same⟩ := renames.session.declare (seen _ List.mem_cons_self) key written
    have passed := uses_self uses
    exact ⟨uses, passed, renames.change passed sessions (Session.output_declare ..)
      (Session.output_declare ..), same, fun _ => trivial⟩
  create := by
    intro (uses : List Bool) session other store copy scope proto again _ renames home _ found foundAgain
    have sessions : session.Renames names uses other := renames.session
    obtain rfl : again = proto := by
      have resolved := sessions.resolve? home (.text "%ObjectPrototype%")
      rw [Ties.scope_renamed] at foundAgain
      have kept : (names.within true).key (.text "%ObjectPrototype%") = .text "%ObjectPrototype%" :=
        Naming.key_prototype (some names)
      rw [kept, foundAgain, found] at resolved
      exact Option.some.inj resolved
    obtain ⟨chain, around⟩ := renames.prototypeChain again
    refine ⟨uses ++ [false], ⟨[false], rfl⟩,
      renames.change ⟨[false], rfl⟩ (sessions.addObject _ again) rfl rfl, ?_, ?_⟩
    · rw [chain, sessions.frames]
    · intro frame member
      rcases List.mem_cons.mp member with rfl | outer
      · exact sessions.added false
      · exact use_append (around frame outer)
  fill := by
    rintro (uses : List Bool) session other store copy object _ key written renames ⟨rfl, made⟩ -
    obtain ⟨sessions, same⟩ := renames.session.declare (made _ List.mem_cons_self) key written
    have passed := uses_self uses
    exact ⟨uses, passed, renames.change passed sessions (Session.output_declare ..)
      (Session.output_declare ..), same⟩
  finish := by
    rintro uses first second object _ renames ⟨rfl, made⟩
    exact ⟨uses, uses_self uses, renames, rfl, made⟩
  locate := by
    rintro (uses : List Bool) session other store copy object again key written - renames ⟨same, made⟩ -
    obtain rfl : again = object := Value.object.inj same
    obtain ⟨sessions, located⟩ := renames.session.locate made key written
    have passed := uses_self uses
    exact ⟨uses, passed, renames.change passed sessions (Session.output_locate ..)
      (Session.output_locate ..), located⟩

end ScriptMachine
