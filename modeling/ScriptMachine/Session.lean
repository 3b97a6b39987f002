/-
This file holds what outlives the single states of a run: the frames that scopes are made of, the
addresses handed out, the printed text and the journal.
-/

import ScriptMachine.Journal
import ScriptMachine.Name

namespace ScriptMachine

/-- Address zero is the address of null and is never handed out. -/
abbrev Address := Int

/-- A slot remembers its name as it was first written. -/
structure Slot where
  key : Key
  written : Tree
  address : Address

abbrev Slots := List Slot

def Slots.address? : Slots → Key → Option Address
  | [], _ => none
  | slot :: rest, key => if slot.key = key then some slot.address else Slots.address? rest key

def Slots.set : Slots → Key → Tree → Address → Slots
  | [], key, written, address => [⟨key, written, address⟩]
  | slot :: rest, key, written, address =>
      if slot.key = key then { slot with address } :: rest
      else slot :: Slots.set rest key written address

/-- A frame binds names to addresses in the order in which they were declared, and takes new
addresses from its allocator. -/
structure Frame where
  allocator : Nat
  slots : Slots

/-- A scope is a frame inside the frames around it, innermost first. -/
structure Scope where
  inner : Nat
  outer : List Nat
deriving DecidableEq

def Scope.chain (scope : Scope) : List Nat := scope.inner :: scope.outer

/-- The first allocator belongs to the machine. Identities tell apart values that have no frame. -/
structure Session where
  frames : Array Frame
  allocators : Array Nat
  identities : Nat
  globals : Option Scope
  output : String
  journal : Array Entry
  verbose : Bool

def Session.start (verbose : Bool) : Session :=
  ⟨#[], #[0], 0, none, "", #[], verbose⟩

/-- An action works on a session, and what it did before a failure stays done. -/
abbrev Action := EStateM Fault Session

namespace Session

def slots (session : Session) (frame : Nat) : Slots :=
  (session.frames[frame]?.map Frame.slots).getD []

def allocatorOf (session : Session) (frame : Nat) : Nat :=
  (session.frames[frame]?.map Frame.allocator).getD 0

def allocated (session : Session) (allocator : Nat) : Nat :=
  session.allocators[allocator]?.getD 0

/-- The innermost frame that binds a name decides. -/
def resolve? (session : Session) (scope : Scope) (key : Key) : Option Address :=
  scope.chain.findSome? fun frame => (session.slots frame).address? key

def bind (session : Session) (frame : Nat) (key : Key) (written : Tree) (address : Address) :
    Session :=
  { session with
    frames := session.frames.modify frame fun held =>
      { held with slots := held.slots.set key written address } }

def addFrame (session : Session) (allocator : Nat) : Session :=
  { session with frames := session.frames.push ⟨allocator, []⟩ }

def advance (session : Session) (allocator : Nat) : Session :=
  { session with
    allocators := session.allocators.setIfInBounds allocator (session.allocated allocator + 1) }

def write (session : Session) (text : String) : Session :=
  { session with output := session.output ++ text }

def record (session : Session) (entry : Entry) : Session :=
  { session with journal := session.journal.push entry }

/-- A scope is shown frame by frame, from the inside out. -/
def shownScope (session : Session) (scope : Scope) : String :=
  let shownSlot := fun (slot : Slot) =>
    slot.written.shown ++ " = Address(" ++ toString slot.address ++ ")"
  let shownFrame := fun frame => ", ".intercalate ((session.slots frame).map shownSlot)
  "Environment(" ++ " | ".intercalate (scope.chain.map shownFrame) ++ ")"

end Session

namespace Action

def fail {A : Type} (fault : Fault) : Action A := throw fault

def refuse {A : Type} (cause : Unsupported) : Action A := throw (.unsupported cause)

def fromExcept {A : Type} : Except Fault A → Action A
  | .ok result => pure result
  | .error fault => throw fault

def fresh (allocator : Nat) : Action Address := fun session =>
  let next := session.advance allocator
  .ok (next.allocated allocator) next

def reset (allocator : Nat) : Action Unit :=
  modify fun session =>
    { session with allocators := session.allocators.setIfInBounds allocator 0 }

def addAllocator : Action Nat := fun session =>
  .ok session.allocators.size { session with allocators := session.allocators.push 0 }

def newIdentity : Action Nat := fun session =>
  .ok session.identities { session with identities := session.identities + 1 }

def print (text : String) : Action Unit := modify fun session => session.write text

/-- Debugging notes are made only in a verbose session. -/
def note (topic : Topic) (message : Session → String) : Action Unit :=
  modify fun session =>
    if session.verbose then session.record ⟨.debug, topic, message session⟩ else session

def warn (topic : Topic) (message : String) : Action Unit :=
  modify fun session => session.record ⟨.warning, topic, message⟩

/-- A failure is noted when its action ends. -/
def attempt {A : Type} (action : Action A) : Action (Except Fault A) := fun session =>
  match action session with
  | .ok result next => .ok (.ok result) next
  | .error fault next =>
      .ok (.error fault) (match fault.entry? with
        | none => next
        | some entry => next.record entry)

end Action

namespace Scope

/-- A new frame stands inside the given frames. -/
def enter (allocator : Nat) (outer : List Nat) : Action Scope := fun session =>
  .ok ⟨session.frames.size, outer⟩ (session.addFrame allocator)

/-- A nested block gets a frame of its own. -/
def push (scope : Scope) : Action Scope := do
  enter ((← get).allocatorOf scope.inner) scope.chain

def find? (scope : Scope) (name : Name) : Action (Option Address) := do
  let key ← Action.fromExcept name.key
  return (← get).resolve? scope key

def resolve (scope : Scope) (name : Name) : Action Address := do
  match ← scope.find? name with
  | some address => pure address
  | none => throw (.unresolved name.shown)

def own? (scope : Scope) (name : Name) : Action (Option Address) := do
  let key ← Action.fromExcept name.key
  return ((← get).slots scope.inner).address? key

def bind (scope : Scope) (name : Name) (address : Address) : Action Unit := do
  let key ← Action.fromExcept name.key
  modify fun session => session.bind scope.inner key name.written address

/-- A name that the innermost frame does not bind yet gets a fresh address there. -/
def declare (scope : Scope) (name : Name) : Action Address := do
  match ← scope.own? name with
  | some address => pure address
  | none => do
      let address ← Action.fresh ((← get).allocatorOf scope.inner)
      scope.bind name address
      pure address

end Scope

theorem Slots.address?_set_self (slots : Slots) (key : Key) (written : Tree) (address : Address) :
    (slots.set key written address).address? key = some address := by
  induction slots with
  | nil => simp [Slots.set, Slots.address?]
  | cons slot rest inductionHypothesis =>
      by_cases same : slot.key = key
      · simp [Slots.set, Slots.address?, same]
      · simp [Slots.set, Slots.address?, same, inductionHypothesis]

theorem Slots.address?_set_of_ne {slots : Slots} {key other : Key} (written : Tree)
    (address : Address) (different : other ≠ key) :
    (slots.set key written address).address? other = slots.address? other := by
  induction slots with
  | nil => simp [Slots.set, Slots.address?, Ne.symm different]
  | cons slot rest inductionHypothesis =>
      by_cases same : slot.key = key
      · simp [Slots.set, Slots.address?, same, Ne.symm different]
      · simp [Slots.set, Slots.address?, same, inductionHypothesis]

end ScriptMachine
