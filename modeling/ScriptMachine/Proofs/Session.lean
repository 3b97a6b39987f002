/-
This file says how the primitive changes of a session show in its frames and addresses.
-/

import ScriptMachine.Proofs.Primitive

namespace ScriptMachine

/-- A key that is missing is bound behind the others. -/
theorem Slots.set_of_missing {slots : Slots} {key : Key} (written : Tree) (address : Address)
    (missing : slots.address? key = none) :
    slots.set key written address = slots ++ [⟨key, written, address⟩] := by
  induction slots with
  | nil => rfl
  | cons slot rest ih =>
      rw [Slots.address?] at missing
      split at missing
      · cases missing
      · rename_i different
        rw [Slots.set, if_neg different, ih missing, List.cons_append]

/-- A key that is missing is found behind the others, if at all. -/
theorem Slots.address?_append_of_missing {slots added : Slots} {key : Key}
    (missing : slots.address? key = none) : (slots ++ added).address? key = added.address? key := by
  induction slots with
  | nil => rfl
  | cons slot rest ih =>
      rw [Slots.address?] at missing
      split at missing
      · cases missing
      · rename_i different
        rw [List.cons_append, Slots.address?, if_neg different, ih missing]

/-- A key that has no address has no slot. -/
theorem Slots.address?_eq_none_iff {slots : Slots} {key : Key} :
    slots.address? key = none ↔ key ∉ slots.map Slot.key := by
  induction slots with
  | nil => simp [Slots.address?]
  | cons slot rest ih =>
      rw [Slots.address?, List.map_cons, List.mem_cons, not_or, ← ih]
      split
      · rename_i same
        simp [same]
      · rename_i different
        simp [Ne.symm different]

namespace Session

variable (session : Session) (frame other allocator : Nat) (key : Key) (written : Tree)
  (address : Address)

section Frames

@[simp] theorem size_bind :
    (session.bind frame key written address).frames.size = session.frames.size := by
  simp [bind]

@[simp] theorem size_addFrame :
    (session.addFrame allocator).frames.size = session.frames.size + 1 := by
  simp [addFrame]

@[simp] theorem frames_advance : (session.advance allocator).frames = session.frames := rfl

@[simp] theorem slots_advance : (session.advance allocator).slots frame = session.slots frame := rfl

@[simp] theorem allocatorOf_advance :
    (session.advance allocator).allocatorOf frame = session.allocatorOf frame := rfl

/-- A frame that does not exist binds nothing. -/
theorem slots_of_not_lt {session : Session} {frame : Nat}
    (outside : ¬ frame < session.frames.size) : session.slots frame = [] := by
  simp [slots, outside]

/-- Binding changes the frame that it is about. -/
theorem slots_bind_self {session : Session} {frame : Nat} (inside : frame < session.frames.size) :
    (session.bind frame key written address).slots frame =
      (session.slots frame).set key written address := by
  simp [bind, slots, Array.getElem_modify, inside]

/-- Binding leaves other frames alone. -/
theorem slots_bind_of_ne {other frame : Nat} (different : other ≠ frame) :
    (session.bind frame key written address).slots other = session.slots other := by
  simp [bind, slots, Array.getElem?_modify, Ne.symm different]

/-- Binding a name in a frame changes no other name and no other frame. -/
theorem address?_bind_of_ne {other frame : Nat} {key found : Key}
    (different : other ≠ frame ∨ found ≠ key) :
    ((session.bind frame key written address).slots other).address? found =
      (session.slots other).address? found := by
  by_cases same : other = frame
  · subst same
    by_cases inside : other < session.frames.size
    · rw [slots_bind_self _ _ _ inside]
      exact Slots.address?_set_of_ne _ _ (different.resolve_left (not_not_intro rfl))
    · simp [bind, slots, inside]
  · rw [slots_bind_of_ne _ _ _ _ same]

/-- A key that was bound is found. -/
theorem address?_bind_self {session : Session} {frame : Nat} (inside : frame < session.frames.size) :
    ((session.bind frame key written address).slots frame).address? key = some address := by
  rw [slots_bind_self _ _ _ inside]
  exact Slots.address?_set_self _ _ _ _

@[simp] theorem allocatorOf_bind :
    (session.bind frame key written address).allocatorOf other = session.allocatorOf other := by
  unfold bind allocatorOf
  by_cases same : frame = other
  · subst same
    cases held : session.frames[frame]? <;> simp [Array.getElem?_modify, held]
  · simp [Array.getElem?_modify, same]

/-- A new frame binds nothing. -/
theorem slots_addFrame_self : (session.addFrame allocator).slots session.frames.size = [] := by
  simp [addFrame, slots]

/-- Adding a frame leaves the others alone. -/
theorem slots_addFrame_of_ne {other : Nat} (different : other ≠ session.frames.size) :
    (session.addFrame allocator).slots other = session.slots other := by
  simp [addFrame, slots, Array.getElem?_push, different]

/-- A new frame has the allocator that it was given. -/
theorem allocatorOf_addFrame_self :
    (session.addFrame allocator).allocatorOf session.frames.size = allocator := by
  simp [addFrame, allocatorOf]

theorem allocatorOf_addFrame_of_ne {other : Nat} (different : other ≠ session.frames.size) :
    (session.addFrame allocator).allocatorOf other = session.allocatorOf other := by
  simp [addFrame, allocatorOf, Array.getElem?_push, different]

end Frames

section Objects

variable (proto : Address)

@[simp] theorem size_addObject :
    (session.addObject allocator proto).frames.size = session.frames.size + 1 := by
  simp [addObject]

/-- Adding an object leaves other frames alone. -/
theorem slots_addObject_of_ne {other : Nat} (different : other ≠ session.frames.size) :
    (session.addObject allocator proto).slots other = session.slots other := by
  unfold addObject
  rw [slots_bind_of_ne _ _ _ _ different, slots_addFrame_of_ne _ _ different]

/-- A new object binds its prototype and nothing else. -/
theorem slots_addObject_self : (session.addObject allocator proto).slots session.frames.size =
    [⟨.text "__proto__", .text "__proto__", proto⟩] := by
  unfold addObject
  rw [slots_bind_self _ _ _ (by simp), slots_addFrame_self]
  rfl

theorem allocatorOf_addObject :
    (session.addObject allocator proto).allocatorOf other = (session.addFrame allocator).allocatorOf other :=
  allocatorOf_bind ..

end Objects

section Addresses

@[simp] theorem allocated_bind :
    (session.bind frame key written address).allocated allocator = session.allocated allocator := rfl

/-- Advancing an allocator hands out one address. -/
theorem allocated_advance_self {session : Session} {allocator : Nat}
    (inside : allocator < session.allocators.size) :
    (session.advance allocator).allocated allocator = session.allocated allocator + 1 := by
  simp [advance, allocated, inside]

/-- An allocator that does not exist hands out nothing. -/
theorem advance_of_not_lt {session : Session} {allocator : Nat}
    (outside : ¬ allocator < session.allocators.size) : session.advance allocator = session := by
  simp [advance, Array.setIfInBounds, outside]

/-- Addresses are handed out upwards. -/
theorem allocated_le_advance :
    session.allocated other ≤ (session.advance allocator).allocated other := by
  by_cases same : other = allocator
  · subst same
    by_cases inside : other < session.allocators.size
    · rw [allocated_advance_self inside]
      exact Nat.le_succ _
    · exact Nat.le_of_eq (by rw [advance_of_not_lt inside])
  · simp [advance, allocated, Ne.symm same]

end Addresses

section Declare

/-- A name that is bound is declared where it is. -/
theorem declare_of_bound {session : Session} {frame : Nat} {key : Key} {address : Address}
    (bound : (session.slots frame).address? key = some address) (written : Tree) :
    session.declare frame key written = (address, session) := by
  unfold declare
  rw [bound]

@[simp] theorem size_declare :
    (session.declare frame key written).2.frames.size = session.frames.size := by
  unfold declare
  split <;> simp

@[simp] theorem identities_declare :
    (session.declare frame key written).2.identities = session.identities := by
  unfold declare
  split <;> rfl

@[simp] theorem output_declare : (session.declare frame key written).2.output = session.output := by
  unfold declare
  split <;> rfl

@[simp] theorem output_locate (scope : Scope) :
    (session.locate scope key written).2.output = session.output := by
  unfold locate
  split
  · rfl
  · exact session.output_declare scope.inner key written

@[simp] theorem allocatorOf_declare :
    (session.declare frame key written).2.allocatorOf other = session.allocatorOf other := by
  unfold declare
  split <;> simp

@[simp] theorem allocators_declare :
    (session.declare frame key written).2.allocators.size = session.allocators.size := by
  unfold declare
  split <;> simp [bind, advance]

/-- Declaring leaves other frames alone. -/
theorem slots_declare_of_ne {other frame : Nat} (different : other ≠ frame) :
    (session.declare frame key written).2.slots other = session.slots other := by
  unfold declare
  split
  · rfl
  · rw [slots_bind_of_ne _ _ _ _ different, slots_advance]

/-- A frame keeps its slots in front of a new one. -/
theorem slots_declare_of_missing {session : Session} {frame : Nat} {key : Key}
    (inside : frame < session.frames.size) (missing : (session.slots frame).address? key = none) :
    (session.declare frame key written).2.slots frame =
      session.slots frame ++ [⟨key, written, (session.declare frame key written).1⟩] := by
  unfold declare
  rw [missing]
  exact (slots_bind_self _ _ _ inside).trans (Slots.set_of_missing _ _ missing)

/-- Declaring a name changes no other name and no other frame. -/
theorem address?_declare_of_ne {other frame : Nat} {key found : Key}
    (different : other ≠ frame ∨ found ≠ key) :
    ((session.declare frame key written).2.slots other).address? found =
      (session.slots other).address? found := by
  unfold declare
  split
  · rfl
  · exact address?_bind_of_ne _ _ _ different

/-- A name that was declared is found. -/
theorem address?_declare_self {session : Session} {frame : Nat} (inside : frame < session.frames.size) :
    ((session.declare frame key written).2.slots frame).address? key =
      some (session.declare frame key written).1 := by
  unfold declare
  split
  · assumption
  · exact address?_bind_self _ _ _ inside

section

variable {session : Session} {frame : Nat} {key : Key}
  (missing : (session.slots frame).address? key = none)
  (own : session.allocatorOf frame = machineAllocator)
  (available : machineAllocator < session.allocators.size)
include missing own available

/-- A frame of the machine takes the next address. -/
theorem declare_of_unbound :
    (session.declare frame key written).1 = ((session.allocated machineAllocator + 1 : Nat) : Int) := by
  unfold declare
  rw [missing, own]
  dsimp only
  rw [allocated_advance_self available]

theorem allocated_declare :
    (session.declare frame key written).2.allocated machineAllocator =
      session.allocated machineAllocator + 1 := by
  unfold declare
  rw [missing, own]
  dsimp only
  rw [allocated_bind, allocated_advance_self available]

end

end Declare

section Bare

/-- What is left of a session without what it keeps for tracing. -/
def bare : Session := { session with journal := #[], verbose := false }

/-- Declaring does not look at what was reported. -/
theorem bare_declare :
    session.bare.declare frame key written =
      ((session.declare frame key written).1, (session.declare frame key written).2.bare) := by
  unfold declare
  have same : session.bare.slots frame = session.slots frame := rfl
  rw [same]
  cases (session.slots frame).address? key <;> rfl

/-- Looking for a property does not look at what was reported. -/
theorem bare_locate (scope : Scope) :
    session.bare.locate scope key written =
      ((session.locate scope key written).1, (session.locate scope key written).2.bare) := by
  unfold locate
  have same : session.bare.resolve? scope key = session.resolve? scope key := rfl
  rw [same]
  cases session.resolve? scope key with
  | none => exact session.bare_declare _ key written
  | some address => rfl

end Bare

end Session

end ScriptMachine
