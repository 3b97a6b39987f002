/-
This file holds the raw syntax trees that programs are given as: plain data, with records read
field by field.
-/

namespace ScriptMachine

/-- The shape of a record says how it is read. A dictionary keeps a field that holds null, and an
attribute that holds null counts as missing. -/
inductive Shape where
  | dictionary
  | attributes
deriving DecidableEq

/-- A tree is plain data. Integers are exact and differ from doubles of the same value. -/
inductive Tree where
  | null
  | bool (value : Bool)
  | int (value : Int)
  | float (value : Float)
  | text (value : String)
  | list (items : List Tree)
  | record (shape : Shape) (fields : List (String × Tree))
deriving Inhabited

/-- A field that is present under the given shape. -/
def Shape.find? (shape : Shape) (fields : List (String × Tree)) (name : String) : Option Tree :=
  match fields.lookup name, shape with
  | some .null, .attributes => none
  | found, _ => found

namespace Tree

def isNull : Tree → Bool
  | .null => true
  | _ => false

/-- Numbers have fields as well: their real and imaginary parts and, where they are whole, their
numerator and denominator. -/
def wholePart? (value : Int) : String → Option Tree
  | "real" | "numerator" => some (.int value)
  | "imag" => some (.int 0)
  | "denominator" => some (.int 1)
  | _ => none

def doublePart? (value : Float) : String → Option Tree
  | "real" => some (.float value)
  | "imag" => some (.float 0)
  | _ => none

def field? (tree : Tree) (name : String) : Option Tree :=
  match tree with
  | .record shape fields => shape.find? fields name
  | .bool value => wholePart? (if value then 1 else 0) name
  | .int value => wholePart? value name
  | .float value => doublePart? value name
  | .null | .text _ | .list _ => none

/-- A missing field reads as the given tree. -/
def fieldOr (tree : Tree) (name : String) (missing : Tree) : Tree :=
  (tree.field? name).getD missing

def field (tree : Tree) (name : String) : Tree := tree.fieldOr name .null

/-- The kind of a tree is whatever its type field holds. -/
def kind (tree : Tree) : Tree := tree.field "type"

/-- Null, false, zero and everything empty count as false. A record of attributes is never empty. -/
def truthy : Tree → Bool
  | .null => false
  | .bool value => value
  | .int value => value != 0
  | .float value => value != 0
  | .text value => !value.isEmpty
  | .list items => !items.isEmpty
  | .record shape fields => shape == .attributes || !fields.isEmpty

/-- Whatever counts as false gives way to a replacement. -/
def orText (tree : Tree) (replacement : String) : Tree :=
  if tree.truthy then tree else .text replacement

def isText (tree : Tree) (text : String) : Bool :=
  match tree with
  | .text value => value == text
  | _ => false

end Tree

end ScriptMachine
