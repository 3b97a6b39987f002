/-
This file creates objects and resolves their properties.
-/

import ScriptMachine.Draft

namespace ScriptMachine.Object

/-- The slot under which an object remembers the address of its prototype. -/
def protoKey : Name := .ofText "__proto__"

/-- The frames of the object stored at the prototype's address stand around the new frame. -/
def create (proto : Address) (store : Store) (allocator : Nat) : Action Object := do
  let outer := match store.get proto with
    | .object held => held.properties.chain
    | _ => []
  let properties ← Scope.enter allocator outer
  properties.bind protoKey proto
  return ⟨proto, properties⟩

/-- A key that neither the object nor a prototype has becomes an own property when it is read. -/
def locate (object : Object) (key : Name) : Action Address := do
  match ← object.properties.find? key with
  | some address => pure address
  | none => object.properties.declare key

/-- Only a reference can be put into a slot. -/
def put (object : Object) (key : String) (value : Value) : Action Unit :=
  match value with
  | .reference _ address => object.properties.bind (.ofText key) address
  | _ => Action.note .value fun _ =>
      "unimplemented functionality: Object.set(" ++ (Value.string key).shown ++ ", " ++
        value.shown ++ ")"

end ScriptMachine.Object
