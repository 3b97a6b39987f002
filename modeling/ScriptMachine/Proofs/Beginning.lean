/-
This file says what a run begins with. Main statement: in a session that has the machine's allocator,
the initial state exists, and its globals and the prototype of objects are bound as listed.
-/

import ScriptMachine.Machine
import ScriptMachine.Proofs.Session

namespace ScriptMachine

/-- Changing the last item of an array, or the one before it. -/
theorem modify_push {A : Type} (items : Array A) (last : A) (change : A → A) :
    (items.push last).modify items.size change = items.push (change last) := by
  apply Array.ext_getElem?
  intro index
  rw [Array.getElem?_modify, Array.getElem?_push, Array.getElem?_push]
  by_cases same : items.size = index
  · simp [same]
  · simp [same, Ne.symm same]

theorem modify_push_push {A : Type} (items : Array A) (first last : A) (change : A → A) :
    ((items.push first).push last).modify items.size change =
      (items.push (change first)).push last := by
  apply Array.ext_getElem?
  intro index
  rw [Array.getElem?_modify, Array.getElem?_push, Array.getElem?_push, Array.getElem?_push,
    Array.getElem?_push]
  by_cases same : items.size = index
  · simp [← same]
  · simp [same, Ne.symm same]

namespace Globals

/-- A session in which the globals are being set up: the frame of the globals, the frame of the
prototype once there is one, and how many addresses and identities have been handed out. -/
def underway (base : Session) (own : Slots) (methods : Option Slots) (count identities : Nat) :
    Session :=
  let frames := base.frames.push ⟨Session.machineAllocator, own⟩
  { base with
    frames := match methods with
      | none => frames
      | some held => frames.push ⟨Session.machineAllocator, held⟩
    allocators := base.allocators.setIfInBounds Session.machineAllocator count
    identities := base.identities + identities }

section

variable {base : Session} {own held : Slots} {methods : Option Slots} {count identities : Nat}

theorem frame_underway :
    (underway base own methods count identities).frames[base.frames.size]? =
      some ⟨Session.machineAllocator, own⟩ := by
  cases methods with
  | none => exact Array.getElem?_push_size
  | some held =>
      show ((base.frames.push _).push _)[base.frames.size]? = _
      have earlier : base.frames.size ≠ (base.frames.push ⟨Session.machineAllocator, own⟩).size := by
        simp
      rw [Array.getElem?_push, if_neg earlier]
      exact Array.getElem?_push_size

theorem slots_underway : (underway base own methods count identities).slots base.frames.size = own := by
  rw [Session.slots, frame_underway]
  rfl

theorem allocatorOf_underway :
    (underway base own methods count identities).allocatorOf base.frames.size =
      Session.machineAllocator := by
  rw [Session.allocatorOf, frame_underway]
  rfl

theorem size_underway : (underway base own none count identities).frames.size = base.frames.size + 1 := by
  simp [underway]

theorem addFrame_underway :
    (underway base own none count identities).addFrame Session.machineAllocator =
      underway base own (some []) count identities := rfl

theorem identify_underway :
    (underway base own methods count identities).identify =
      underway base own methods count (identities + 1) := rfl

theorem bind_underway (key : Key) (written : Tree) (address : Address) :
    (underway base own methods count identities).bind base.frames.size key written address =
      underway base (own.set key written address) methods count identities := by
  cases methods with
  | none => simp only [underway, Session.bind, modify_push]
  | some held => simp only [underway, Session.bind, modify_push_push]

theorem bind_methods (key : Key) (written : Tree) (address : Address) :
    (underway base own (some held) count identities).bind (base.frames.size + 1) key written address =
      underway base own (some (held.set key written address)) count identities := by
  have size : (base.frames.push ⟨Session.machineAllocator, own⟩).size = base.frames.size + 1 := by
    simp
  simp only [underway, Session.bind, ← size, modify_push]

theorem addObject_underway (proto : Address) :
    (underway base own none count identities).addObject Session.machineAllocator proto =
      underway base own (some [⟨.text "__proto__", .text "__proto__", proto⟩]) count identities := by
  unfold Session.addObject
  rw [addFrame_underway, size_underway, bind_methods]
  rfl

variable (own methods count identities) (allocates : Session.machineAllocator < base.allocators.size)
include allocates

theorem allocated_underway :
    (underway base own methods count identities).allocated Session.machineAllocator = count := by
  simp [underway, Session.allocated, allocates]

theorem advance_underway :
    (underway base own methods count identities).advance Session.machineAllocator =
      underway base own methods (count + 1) identities := by
  unfold Session.advance
  rw [allocated_underway own methods count identities allocates]
  simp [underway]

/-- A first declaration takes the next address. -/
theorem declare_underway {key : Key} (written : Tree) (missing : own.address? key = none) :
    (underway base own methods count identities).declare base.frames.size key written =
      (((count + 1 : Nat) : Address),
        underway base (own.set key written ((count + 1 : Nat) : Address)) methods (count + 1)
          identities) := by
  unfold Session.declare
  rw [slots_underway, missing]
  simp only [allocatorOf_underway, advance_underway own methods count identities allocates,
    allocated_underway own methods (count + 1) identities allocates, bind_underway]

section

variable {store : Store} {good : Unit → Scratch → Prop} {bad : Fault → Scratch → Prop}

/-- A new global takes the next address. -/
theorem ends_define {text : String} {value : Value} (missing : own.address? (.text text) = none) :
    Ends (define ⟨base.frames.size, []⟩ (.ofText text) value)
        ⟨underway base own methods count identities, store⟩ good bad ↔
      good () ⟨underway base
        (own.set (.text text) (.text text) ((count + 1 : Nat) : Address)) methods (count + 1)
        identities, store.insert ((count + 1 : Nat) : Address) value⟩ := by
  unfold define
  simp only [ends_bind, ends_liftAction, ends_declare, Name.key_ofText, ends_extend]
  have positive : ((count + 1 : Nat) : Address) ≠ 0 := Int.natCast_ne_zero.mpr count.succ_ne_zero
  rw [declare_underway own methods count identities allocates _ missing, Store.extend_of_ne positive]
  rfl

/-- A new method of the prototype takes the next address and the next identity. -/
theorem ends_defineMethod {text : String} {routine : Routine} {proto : Address} :
    Ends (defineMethod Session.machineAllocator ⟨proto, ⟨base.frames.size + 1, []⟩⟩ text routine)
        ⟨underway base own (some held) count identities, store⟩ good bad ↔
      good () ⟨underway base own
        (some (held.set (.text text) (.text text) ((count + 1 : Nat) : Address))) (count + 1)
        (identities + 1), store.insert ((count + 1 : Nat) : Address)
          (.builtin (base.identities + identities) 1 (.text text) routine)⟩ := by
  unfold defineMethod builtin
  simp only [ends_bind, ends_liftAction, ends_fresh, ends_newIdentity, ends_pure, ends_extend,
    ends_bindName, Name.key_ofText, advance_underway own _ count identities allocates,
    allocated_underway own _ (count + 1) identities allocates, identify_underway]
  have positive : ((count + 1 : Nat) : Address) ≠ 0 := Int.natCast_ne_zero.mpr count.succ_ne_zero
  rw [Store.extend_of_ne positive]
  simp only [bind_methods]
  rfl

end

end

/-- The names that every program starts with, and the addresses they are bound to. -/
def ownSlots : Slots :=
  [⟨.text "print", .text "print", 1⟩, ⟨.text "undefined", .text "undefined", 2⟩,
    ⟨.text "%ObjectPrototype%", .text "%ObjectPrototype%", 3⟩]

/-- The properties of the prototype of objects. -/
def methodSlots : Slots :=
  [⟨.text "__proto__", .text "__proto__", 0⟩, ⟨.text "hasOwnProperty", .text "hasOwnProperty", 4⟩,
    ⟨.text "toString", .text "toString", 5⟩]

/-- The prototype of objects, whose frame follows that of the globals. -/
def prototype (base : Session) : Object := ⟨0, ⟨base.frames.size + 1, []⟩⟩

/-- The store that every program starts with. -/
def store (base : Session) : Store :=
  let method := fun (offset : Nat) (name : String) (routine : Routine) =>
    Value.builtin (base.identities + offset) 1 (.text name) routine
  ((((Store.empty.insert 1 (method 0 "print" .print)).insert 2 .undefined).insert 3
    (.object (prototype base))).insert 4 (method 1 "hasOwnProperty" .ownPropertyTest)).insert 5
    (method 2 "toString" .describe)

/-- Setting up the globals binds these names in their frame and these methods in the prototype's. -/
theorem ends_install {base : Session} (allocates : Session.machineAllocator < base.allocators.size)
    {good : Object → Scratch → Prop} {bad : Fault → Scratch → Prop} :
    Ends (install ⟨base.frames.size, []⟩) ⟨underway base [] none 0 0, .empty⟩ good bad ↔
      good (prototype base) ⟨underway base ownSlots (some methodSlots) 5 3, store base⟩ := by
  unfold install builtin objectPrototype
  simp only [ends_bind, ends_get, ends_liftAction, ends_newIdentity, ends_pure, identify_underway]
  rw [ends_define _ _ _ _ allocates rfl, ends_define _ _ _ _ allocates rfl]
  simp only [ends_store, ends_create, allocatorOf_underway, addObject_underway, size_underway]
  rw [ends_define _ _ _ _ allocates rfl]
  have chainless : ((Store.empty.insert ((0 + 1 : Nat) : Address)
      (.builtin (underway base [] none 0 0).identities 1 (.text "print") .print)).insert
      ((0 + 1 + 1 : Nat) : Address) .undefined).prototypeChain 0 = [] := rfl
  rw [chainless, ends_defineMethod _ _ _ allocates, ends_defineMethod _ _ _ allocates]
  rfl

end Globals

namespace Machine

/-- The scope of the globals. -/
def globalScope (base : Session) : Scope := ⟨base.frames.size, []⟩

/-- The session after the globals have been set up. -/
def begun (base : Session) : Session :=
  { Globals.underway base Globals.ownSlots (some Globals.methodSlots) 5 3 with
    globals := some (globalScope base) }

/-- What is noted of each frame when a run begins is the same for all but the last two. -/
theorem noted_begun {A : Type} {count frame : Nat} {others first second noted : A}
    (known : (List.replicate count others ++ [first, second])[frame]? = some noted) :
    noted = others ∨ frame = count ∧ noted = first ∨ frame = count + 1 ∧ noted = second := by
  by_cases before : frame < count
  · rw [List.getElem?_append_left (by simpa using before), List.getElem?_replicate, if_pos before] at known
    exact .inl (Option.some.inj known).symm
  · rw [List.getElem?_append_right (by simpa using before), List.length_replicate] at known
    have cases : frame = count ∨ frame = count + 1 := by
      have limit := (List.getElem?_eq_some_iff.mp known).1
      simp only [List.length_cons, List.length_nil] at limit
      omega
    right
    obtain rfl | rfl := cases
    · rw [Nat.sub_self] at known
      exact .inl ⟨rfl, (Option.some.inj known).symm⟩
    · rw [Nat.add_sub_cancel_left] at known
      exact .inr ⟨rfl, (Option.some.inj known).symm⟩

variable {program : Node} {base : Session}

/-- Initially a program stands at its root, in the scope of the globals. -/
theorem ends_initialState (allocates : Session.machineAllocator < base.allocators.size)
    {good : State → Session → Prop} {bad : Fault → Session → Prop} :
    Ends (initialState program) base good bad ↔
      good (.active program .done (globalScope base) (Globals.store base) []) (begun base) := by
  unfold initialState Action.reset
  simp only [ends_bind, ends_modify, ends_enter, ends_run, ends_resume]
  exact Globals.ends_install allocates

/-- The state that a run begins in. -/
def firstState (program : Node) (base : Session) : State :=
  .active program .done (globalScope base) (Globals.store base) []

/-- The first state exists once the machine can allocate. -/
theorem initialState_of_allocates {session : Session}
    (allocates : Session.machineAllocator < session.allocators.size) :
    initialState program session = .ok (firstState program session) (begun session) := by
  obtain ⟨state, after, starts, rfl, rfl⟩ : ∃ state after,
      initialState program session = .ok state after ∧ state = firstState program session ∧
        after = begun session :=
    ((ends_initialState allocates).mpr ⟨rfl, rfl⟩).exists_ok
  exact starts

/-- Without the machine's allocator the first global gets the address of null, and is refused. -/
theorem ends_initialState_of_not_allocates (missing : ¬ Session.machineAllocator < base.allocators.size) :
    Ends (initialState program) base (fun _ _ => False) fun _ _ => True := by
  unfold initialState Action.reset Globals.install Globals.define Globals.builtin
  simp only [ends_bind, ends_modify, ends_enter, ends_run, ends_get, ends_liftAction,
    ends_newIdentity, ends_pure, ends_declare, Name.key_ofText, ends_extend]
  have none : base.allocators = #[] := by
    simpa [Session.machineAllocator] using missing
  have address : ∀ (session : Session) (written : Tree), session.allocators = #[] →
      (session.slots base.frames.size).address? (.text "print") = Option.none →
      (session.declare base.frames.size (.text "print") written).1 = 0 := by
    intro session written empty unbound
    simp [Session.declare, unbound, Session.allocated, Session.advance, empty]
  split
  · rename_i extended
    rw [address] at extended
    · cases extended
    · simp [Session.identify, Session.addFrame, none]
    · simp [Session.identify, Session.addFrame, Session.slots, Slots.address?]
  · trivial

/-- What goes wrong before a run begins has nothing to do with the program. -/
theorem initialState_of_error {after : Session} {fault : Fault}
    (failed : initialState program base = .error fault after) (other : Node) :
    initialState other base = .error fault after := by
  let setUp : Action (Scope × Store) := do
    Action.reset Session.machineAllocator
    let scope ← Scope.enter Session.machineAllocator []
    let installed ← (Globals.install scope).run .empty
    modify fun session => { session with globals := some scope }
    return (scope, installed.2)
  have whole : ∀ program, initialState program =
      setUp >>= fun prepared => State.resume (.visit program .done) prepared.1 prepared.2 [] := by
    intro program
    simp [initialState, setUp]
  rw [whole] at failed ⊢
  cases prepared : setUp base with
  | ok result next =>
      rw [bind_of_ok prepared] at failed
      cases failed
  | error other next =>
      rw [bind_of_error prepared] at failed ⊢
      exact failed

/-- The first state is the one the globals prepare. -/
theorem initialState_eq {after : Session} {state : State}
    (started : initialState program base = .ok state after) :
    Session.machineAllocator < base.allocators.size ∧
      state = .active program .done (globalScope base) (Globals.store base) [] ∧
      after = begun base := by
  by_cases allocates : Session.machineAllocator < base.allocators.size
  · have same : Ends (initialState program) base
        (fun state after => state = .active program .done (globalScope base) (Globals.store base) [] ∧
          after = begun base) fun _ _ => False :=
      (ends_initialState allocates).mpr ⟨rfl, rfl⟩
    exact ⟨allocates, same.of_ok started⟩
  · exact absurd ((ends_initialState_of_not_allocates allocates).of_ok started) id

end Machine

end ScriptMachine
