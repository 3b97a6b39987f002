/-
This file describes the primitive actions on frames, addresses and identities by what they make of
a session.
-/

import ScriptMachine.Call
import ScriptMachine.Proofs.Ends

namespace ScriptMachine

/-- A frame answers with the address it has for a key, or with a fresh one. -/
def Session.declare (session : Session) (frame : Nat) (key : Key) (written : Tree) :
    Address × Session :=
  match (session.slots frame).address? key with
  | some address => (address, session)
  | none =>
      let next := session.advance (session.allocatorOf frame)
      let address : Address := next.allocated (session.allocatorOf frame)
      (address, next.bind frame key written address)

/-- A key that no frame of a scope binds is bound in the innermost one when it is looked for. -/
def Session.locate (session : Session) (scope : Scope) (key : Key) (written : Tree) :
    Address × Session :=
  match session.resolve? scope key with
  | some address => (address, session)
  | none => session.declare scope.inner key written

/-- A new identity is one that no value has yet. -/
def Session.identify (session : Session) : Session :=
  { session with identities := session.identities + 1 }

/-- The frames around the properties of an object made from a prototype. -/
def Store.prototypeChain (store : Store) (proto : Address) : List Nat :=
  match store.get proto with
  | .object held => held.properties.chain
  | _ => []

/-- A version of the store with one binding replaced. -/
def Store.insert (store : Store) (address : Address) (value : Value) : Store :=
  ⟨store.bindings.insert address value⟩

variable {store next : Store} {address other : Address} {value : Value}

theorem Store.extend_of_ne (notNull : address ≠ 0) :
    store.extend address value = .ok (store.insert address value) := by
  simp [Store.extend, Store.insert, notNull]

theorem Store.get_insert_of_ne {found : Address} (notNull : address ≠ 0) (different : found ≠ address) :
    (store.insert address value).get found = store.get found :=
  Store.get_extend_of_ne (Store.extend_of_ne notNull) different

theorem Store.get_of_unbound (notNull : address ≠ 0) (unbound : store.contains address = false) :
    store.get address = .undefined := by
  unfold Store.contains at unbound
  unfold Store.get
  rw [if_neg (by simpa using notNull)]
  rw [Std.TreeMap.getElem?_eq_none (by simp [Std.TreeMap.mem_iff_contains, unbound])]
  rfl

section

variable (extended : store.extend address value = .ok next)
include extended

/-- The store holds the new value at its address alone. -/
theorem Store.get_extend : next.get other = if other = address then value else store.get other := by
  split
  · rename_i same
    rw [same, Store.get_extend_self extended]
  · rename_i different
    exact Store.get_extend_of_ne extended different

/-- What is bound was bound before, or is the address. -/
theorem Store.contains_of_extend (contained : next.contains other = true) :
    other = address ∨ store.contains other = true := by
  unfold Store.extend at extended
  split at extended
  · cases extended
  · cases extended
    unfold Store.contains at contained ⊢
    rw [Std.TreeMap.contains_insert, Bool.or_eq_true] at contained
    exact contained.imp_left fun same => (by simpa using same : address = other).symm

theorem Store.ne_of_extend : address ≠ 0 := by
  rintro rfl
  simp [Store.extend] at extended

/-- A later version of the store binds what an earlier one did. -/
theorem Store.contains_extend (contained : store.contains other = true) : next.contains other = true := by
  rw [Store.extend_of_ne (Store.ne_of_extend extended)] at extended
  cases extended
  unfold Store.contains Store.insert at *
  rw [Std.TreeMap.contains_insert, contained, Bool.or_true]

theorem Store.contains_extend_of_ne (different : other ≠ address) :
    next.contains other = store.contains other := by
  rw [Bool.eq_iff_iff]
  refine ⟨fun contained => ?_, Store.contains_extend extended⟩
  exact (Store.contains_of_extend extended contained).resolve_left different

end

/-- The frame of a new object knows its prototype by address. -/
def Session.addObject (session : Session) (allocator : Nat) (proto : Address) : Session :=
  (session.addFrame allocator).bind session.frames.size (.text "__proto__") (.text "__proto__") proto

section

variable {session : Session} {bad : Fault → Session → Prop}

@[simp] theorem ends_find {good : Option Address → Session → Prop} (scope : Scope) (name : Name) :
    Ends (scope.find? name) session good bad ↔
      match name.key with
      | .ok key => good (session.resolve? scope key) session
      | .error fault => bad fault session := by
  unfold Scope.find?
  simp only [ends_bind, ends_fromExcept, ends_get, ends_pure]
  cases name.key <;> rfl

variable {good : Address → Session → Prop}

@[simp] theorem ends_resolve (scope : Scope) (name : Name) :
    Ends (scope.resolve name) session good bad ↔
      match name.key with
      | .ok key =>
          match session.resolve? scope key with
          | some address => good address session
          | none => bad (.unresolved name.shown) session
      | .error fault => bad fault session := by
  unfold Scope.resolve
  simp only [ends_bind, ends_find]
  cases name.key with
  | error fault => rfl
  | ok key => cases found : session.resolve? scope key <;> simp only [found, ends_pure, ends_throw]

@[simp] theorem ends_bindName {good : Unit → Session → Prop} (scope : Scope) (name : Name)
    (address : Address) :
    Ends (scope.bind name address) session good bad ↔
      match name.key with
      | .ok key => good () (session.bind scope.inner key name.written address)
      | .error fault => bad fault session := by
  unfold Scope.bind
  simp only [ends_bind, ends_fromExcept, ends_modify]
  cases name.key <;> rfl

@[simp] theorem ends_fresh (allocator : Nat) :
    Ends (Action.fresh allocator) session good bad ↔
      good ((session.advance allocator).allocated allocator) (session.advance allocator) := Iff.rfl

@[simp] theorem ends_declare (scope : Scope) (name : Name) :
    Ends (scope.declare name) session good bad ↔
      match name.key with
      | .ok key =>
          good (session.declare scope.inner key name.written).1
            (session.declare scope.inner key name.written).2
      | .error fault => bad fault session := by
  unfold Scope.declare Scope.own?
  simp only [ends_bind, ends_fromExcept, ends_get, ends_pure]
  cases named : name.key with
  | error fault => rfl
  | ok key =>
      unfold Session.declare
      cases found : (session.slots scope.inner).address? key with
      | some address => simp only [found, ends_pure]
      | none =>
          simp only [found, ends_bind, ends_get, ends_fresh, ends_bindName, named, ends_pure]

@[simp] theorem ends_enter {good : Scope → Session → Prop} (allocator : Nat) (outer : List Nat) :
    Ends (Scope.enter allocator outer) session good bad ↔
      good ⟨session.frames.size, outer⟩ (session.addFrame allocator) := Iff.rfl

@[simp] theorem ends_push {good : Scope → Session → Prop} (scope : Scope) :
    Ends scope.push session good bad ↔
      good ⟨session.frames.size, scope.chain⟩
        (session.addFrame (session.allocatorOf scope.inner)) := Iff.rfl

@[simp] theorem ends_close {good : Value → Session → Prop} (code : Code) (scope : Scope) :
    Ends (code.close scope) session good bad ↔
      good (.function ⟨session.identities, code, scope⟩) session.identify := Iff.rfl

@[simp] theorem ends_newIdentity {good : Nat → Session → Prop} :
    Ends Action.newIdentity session good bad ↔ good session.identities session.identify := Iff.rfl

/-- A note changes the journal at most. -/
@[simp] theorem ends_note {good : Unit → Session → Prop} (topic : Topic)
    (message : Session → String) :
    Ends (Action.note topic message) session good bad ↔
      good () (if session.verbose then session.record ⟨.debug, topic, message session⟩
        else session) := Iff.rfl

theorem Session.note_eq (session : Session) (entry : Entry) :
    (if session.verbose then session.record entry else session) = { session with
      journal := if session.verbose then session.journal.push entry else session.journal } := by
  split <;> rfl

@[simp] theorem ends_warn {good : Unit → Session → Prop} (topic : Topic) (message : String) :
    Ends (Action.warn topic message) session good bad ↔
      good () (session.record ⟨.warning, topic, message⟩) := Iff.rfl

@[simp] theorem ends_print {good : Unit → Session → Prop} (text : String) :
    Ends (Action.print text) session good bad ↔ good () (session.write text) := Iff.rfl

@[simp] theorem ends_create {good : Object → Session → Prop} (proto : Address) (store : Store)
    (allocator : Nat) :
    Ends (Object.create proto store allocator) session good bad ↔
      good ⟨proto, ⟨session.frames.size, store.prototypeChain proto⟩⟩
        (session.addObject allocator proto) := by
  unfold Object.create
  simp only [ends_bind, ends_enter, ends_bindName, ends_pure]
  rfl

@[simp] theorem ends_locate (object : Object) (name : Name) :
    Ends (object.locate name) session good bad ↔
      match name.key with
      | .ok key =>
          good (session.locate object.properties key name.written).1
            (session.locate object.properties key name.written).2
      | .error fault => bad fault session := by
  unfold Object.locate
  simp only [ends_bind, ends_find]
  cases named : name.key with
  | error fault => rfl
  | ok key =>
      unfold Session.locate
      cases found : session.resolve? object.properties key with
      | some address => simp only [found, ends_pure]
      | none => simp only [found, ends_declare, named]

/-- Control that leads somewhere makes a state of what it is given. -/
@[simp] theorem ends_resume {good : State → Session → Prop} (control : Control) (scope : Scope)
    (store : Store) (continuation : Continuation) :
    Ends (State.resume control scope store continuation) session good bad ↔
      match control with
      | .nowhere => bad (.unreachable .noNode) session
      | .done => good (.halted scope store continuation) session
      | .visit node next => good (.active node next scope store continuation) session := by
  cases control <;> rfl

end

@[simp] theorem ends_read {scratch : Scratch} {good : Value → Scratch → Prop}
    {bad : Fault → Scratch → Prop} (operand : Operand) :
    Ends operand.read scratch good bad ↔ good (operand.readFrom scratch.store) scratch := Iff.rfl

end ScriptMachine
