/-
This file holds the store: versions of a map from addresses to values. Main statements: a version
that extends another one reads the new value at the extended address and agrees with it elsewhere.
-/

import ScriptMachine.Value
import Std.Data.TreeMap.Lemmas

namespace ScriptMachine

structure Store where
  bindings : Std.TreeMap Address Value

namespace Store

def empty : Store := ⟨{}⟩

/-- The address of null reads as null, and an unbound address as undefined. -/
def get (store : Store) (address : Address) : Value :=
  if address == 0 then .null else store.bindings[address]?.getD .undefined

def contains (store : Store) (address : Address) : Bool := store.bindings.contains address

def size (store : Store) : Nat := store.bindings.size

/-- A version that differs at one address at most. -/
def extend (store : Store) (address : Address) (value : Value) : Except Fault Store :=
  if address == 0 then .error (.badWrite .nullAddress)
  else .ok ⟨store.bindings.insert address value⟩

/-- Only an address that is bound already can be set. -/
def set (store : Store) (address : Address) (value : Value) : Except Fault Store :=
  if address == 0 then .error (.badWrite .nullAddress)
  else if store.contains address then .ok ⟨store.bindings.insert address value⟩
  else .error (.badWrite .unboundAddress)

def addresses (store : Store) : List Address := store.bindings.keys

/-- The bindings in the order of their addresses. -/
def toList (store : Store) : List (Address × Value) :=
  store.addresses.map fun address => (address, store.get address)

def shown (store : Store) : String :=
  let shownBinding := fun (binding : Address × Value) =>
    "  " ++ toString binding.1 ++ " -> " ++ binding.2.shown
  "Store(\n" ++ "\n".intercalate (store.toList.map shownBinding) ++ "\n)"

theorem get_extend_self {store next : Store} {address : Address} {value : Value}
    (extended : store.extend address value = .ok next) : next.get address = value := by
  unfold extend at extended
  split at extended
  · cases extended
  · rename_i notNull
    cases extended
    simp_all [get]

theorem get_extend_of_ne {store next : Store} {address other : Address} {value : Value}
    (extended : store.extend address value = .ok next) (different : other ≠ address) :
    next.get other = store.get other := by
  unfold extend at extended
  split at extended
  · cases extended
  · cases extended
    simp [get, Std.TreeMap.getElem?_insert, Ne.symm different]

end Store

end ScriptMachine
