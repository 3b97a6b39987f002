/-
This file holds drafts: work on a session together with a private version of the store, which
becomes visible only when the work is done.
-/

import ScriptMachine.Store

namespace ScriptMachine

structure Scratch where
  session : Session
  store : Store

/-- What a draft did before a failure stays done. -/
abbrev Draft := EStateM Fault Scratch

namespace Draft

/-- An action leaves the private store alone. -/
def ofAction {A : Type} (action : Action A) : Draft A := fun scratch =>
  match action scratch.session with
  | .ok result session => .ok result { scratch with session }
  | .error fault session => .error fault { scratch with session }

instance : MonadLift Action Draft := ⟨ofAction⟩

instance : MonadLift (Except Fault) Draft :=
  ⟨fun | .ok result => pure result | .error fault => throw fault⟩

def fail {A : Type} (fault : Fault) : Draft A := throw fault

def refuse {A : Type} (cause : Unsupported) : Draft A := throw (.unsupported cause)

def store : Draft Store := return (← get).store

/-- The private store is changed in place. -/
def extend (address : Address) (value : Value) : Draft Unit := do
  let next ← (← store).extend address value
  modify fun scratch => { scratch with store := next }

/-- A draft starts from a version of the store and gives back the version it arrives at. -/
def run {A : Type} (draft : Draft A) (store : Store) : Action (A × Store) := fun session =>
  match draft ⟨session, store⟩ with
  | .ok result scratch => .ok (result, scratch.store) scratch.session
  | .error fault scratch => .error fault scratch.session

end Draft

end ScriptMachine
