/-
This file reads raw trees into nodes, numbering them in the order in which they are met. Reading is
partial: every kind and every form outside the subset is refused where it is met.
-/

import ScriptMachine.Fault
import ScriptMachine.Node.Link
import ScriptMachine.Tree.Text

namespace ScriptMachine

/-- The members of a tree that stands where a list is expected. A text is taken character by
character, and a dictionary name by name. -/
def Tree.members : Tree → Except Fault (List Tree)
  | .list items => .ok items
  | .text value => .ok (value.toList.map fun character => .text character.toString)
  | .record .dictionary fields => .ok (fields.map fun field => .text field.1)
  | _ => .error .malformed

/-- A catch clause stands in the list of handlers or, failing that, alone. -/
def Tree.catchClauses (raw : Tree) : Except Fault (List Tree) :=
  let handlers := raw.field "handlers"
  let handler := raw.field "handler"
  if handlers.truthy then handlers.members
  else .ok (if handler.isNull then [] else [handler])

/-- Reading counts the nodes, and what it has counted before a failure stays counted. -/
abbrev Reader := EStateM Fault Nat

namespace Reader

def refuse {A : Type} (cause : Unsupported) : Reader A :=
  throw (.unsupported cause)

def fresh : Reader Nat := fun count => .ok count (count + 1)

/-- The actions that read one field, as a single node or as a list of nodes. -/
structure Part where
  node : Reader Node
  nodes : Reader (List Node)

def Part.missing : Part := ⟨pure .absent, pure []⟩

/-- A record is read through the actions of its fields, so that they run in the order that its kind
asks for. -/
structure Item where
  raw : Tree
  parts : List (String × Part)

namespace Item

def field (item : Item) (name : String) : Tree := item.raw.field name

def isSet (item : Item) (name : String) : Bool := (item.field name).truthy

def part (item : Item) (name : String) : Part :=
  (item.parts.lookup name).getD .missing

def node (item : Item) (name : String) : Reader Node := (item.part name).node

def nodes (item : Item) (name : String) : Reader (List Node) := (item.part name).nodes

def place (item : Item) : Reader Place :=
  return ⟨← fresh, item.field "range"⟩

end Item

def plainFunction (item : Item) : Reader Unit := do
  if item.isSet "generator" then refuse .generatorFunction
  if item.isSet "async" then refuse .asyncFunction

/-- Parameters are plain identifiers. -/
def identifiers : List Node → Reader (List Ident)
  | [] => pure []
  | .identifier ident :: rest => return ident :: (← identifiers rest)
  | .absent :: _ => throw .malformed
  | node :: _ => refuse (.parameter node.kindText)

def params (item : Item) : Reader (List Ident) := do
  identifiers (← item.nodes "params")

def handlers (item : Item) : Reader (List Node) := do
  if item.isSet "handlers" then item.nodes "handlers"
  else if (item.field "handler").isNull then pure []
  else return [← item.node "handler"]

def block (item : Item) : Reader Node := do
  let place ← item.place
  let body ← item.nodes "body"
  let exit ← if body.isEmpty then pure none else some <$> fresh
  return .block place body exit

def declarator (item : Item) : Reader Node := do
  let place ← item.place
  match ← item.node "id" with
  | .identifier target => return .declarator place target (← item.node "init")
  | .absent => throw .malformed
  | target => refuse (.declaratorTarget target.kindText)

def functionDeclaration (item : Item) : Reader Node := do
  plainFunction item
  let place ← item.place
  let name ← item.node "id"
  let params ← params item
  return .functionDeclaration place name params (← item.node "body")

/-- A function body that stands in an expression is linked with nothing after it. -/
def link (body : Node) : Reader Unit :=
  match body.link .nowhere .empty with
  | .ok _ => pure ()
  | .error fault => throw fault

/-- Nothing links expressions, so the body of a function expression is linked at once. -/
def functionExpression (item : Item) : Reader Node := do
  plainFunction item
  let place ← item.place
  let name ← item.node "id"
  let params ← params item
  let body ← item.node "body"
  link body
  return .functionExpression place name params body

def tryStatement (item : Item) : Reader Node := do
  let place ← item.place
  if !(item.field "finalizer").isNull then refuse .finallyClause
  let guarded ← item.node "block"
  match ← handlers item with
  | [] => refuse .tryWithoutCatch
  | handler :: others => return .tryStatement place guarded handler others (← fresh)

def catchClause (item : Item) : Reader Node := do
  let place ← item.place
  match ← item.node "param" with
  | .identifier param => return .catchClause place param (← item.node "body")
  | _ => refuse .catchParameter

def literal (item : Item) : Reader Node := do
  if !(item.field "regex").isNull then refuse .regularExpression
  return .literal (← item.place) (item.field "value")

def assignment (item : Item) : Reader Node := do
  let place ← item.place
  let left ← item.node "left"
  if let .member _ _ _ true := left then refuse .computedWrite
  return .assignment place (.ofTree (item.field "operator")) left (← item.node "right")

/-- The name after a dot is read as a literal key. -/
def member (item : Item) : Reader Node := do
  let place ← item.place
  let holder ← item.node "object"
  let computed := item.isSet "computed"
  let selected := item.field "property"
  if !computed && selected.kind.isText "Identifier" then
    let selector := Node.literal ⟨← fresh, selected.field "range"⟩ (selected.field "name")
    return .member place holder selector computed
  else
    return .member place holder (← item.node "property") computed

/-- The key of a property is a name or the text of a literal. -/
def propertyKey (key : Tree) : Reader Tree :=
  if key.kind.isText "Identifier" then pure (key.field "name")
  else if key.kind.isText "Literal" then pure (.text (key.field "value").shown)
  else refuse (.propertyKey key.kind.shown)

def property (item : Item) : Reader Node := do
  let place ← item.place
  let plain := (item.raw.fieldOr "kind" (.text "init")).isText "init"
  if item.isSet "computed" || item.isSet "method" || !plain then refuse .property
  let key ← propertyKey (item.field "key")
  return .property place ⟨key, place.id⟩ (← item.node "value")

def identifier (item : Item) : Reader Node := do
  let place ← item.place
  return .identifier ⟨place, ⟨item.field "name", place.id⟩⟩

def ofKind (item : Item) : Kind → Reader Node
  | .program => return .program (← item.place) (← item.nodes "body")
  | .blockStatement => block item
  | .emptyStatement => return .emptyStatement (← item.place)
  | .expressionStatement =>
      return .expressionStatement (← item.place) (← item.node "expression")
  | .variableDeclaration =>
      return .declaration (← item.place) (← item.nodes "declarations")
        (item.raw.fieldOr "kind" (.text "var"))
  | .variableDeclarator => declarator item
  | .functionDeclaration => functionDeclaration item
  | .functionExpression => functionExpression item
  | .returnStatement => return .returnStatement (← item.place) (← item.node "argument")
  | .ifStatement =>
      return .ifStatement (← item.place) (← item.node "test") (← item.node "consequent")
        (← item.node "alternate")
  | .whileStatement =>
      return .whileStatement (← item.place) (← item.node "test") (← item.node "body")
  | .throwStatement => return .throwStatement (← item.place) (← item.node "argument")
  | .tryStatement => tryStatement item
  | .catchClause => catchClause item
  | .identifier => identifier item
  | .literal => literal item
  | .binaryExpression =>
      return .binary (← item.place) (.ofTree (item.field "operator")) (← item.node "left")
        (← item.node "right")
  | .unaryExpression =>
      return .unary (← item.place) (.ofTree (item.field "operator")) (← item.node "argument")
  | .logicalExpression =>
      return .logical (← item.place) (item.field "operator") (← item.node "left")
        (← item.node "right")
  | .assignmentExpression => assignment item
  | .callExpression =>
      return .call (← item.place) (← item.node "callee") (← item.nodes "arguments")
  | .memberExpression => member item
  | .objectExpression => return .object (← item.place) (← item.nodes "properties")
  | .property => property item
  | .arrayExpression => return .array (← item.place) (← item.nodes "elements")
  | kind => refuse (.kind kind.text)

/-- A kind that is a list or a record is not even looked up. -/
def record (item : Item) : Reader Node :=
  match item.raw.kind with
  | .text text =>
      match Kind.ofText? text with
      | some kind => ofKind item kind
      | none => refuse (.kind text)
  | .list _ | .record .. => throw .malformed
  | kind => refuse (.kind kind.shown)

end Reader

mutual
/-- A position that holds null is absent, and what is no record has no kind. -/
def Tree.read : Tree → Reader Node
  | .null => pure .absent
  | .record shape fields =>
      Reader.record ⟨.record shape fields, Tree.readFields fields⟩
  | _ => Reader.refuse (.kind "None")

/-- Whatever counts as false holds no nodes. The members of a text or of a dictionary are texts,
which have no kind. -/
def Tree.readAll : Tree → Reader (List Node)
  | .list items => Tree.readItems items
  | .text value => if value.isEmpty then pure [] else Reader.refuse (.kind "None")
  | .record .attributes _ => throw .malformed
  | .record .dictionary fields =>
      if fields.isEmpty then pure [] else Reader.refuse (.kind "None")
  | raw => if raw.truthy then throw .malformed else pure []

def Tree.readItems : List Tree → Reader (List Node)
  | [] => pure []
  | item :: rest => do
      let node ← item.read
      return node :: (← Tree.readItems rest)

def Tree.readFields : List (String × Tree) → List (String × Reader.Part)
  | [] => []
  | (name, value) :: rest => (name, ⟨value.read, value.readAll⟩) :: Tree.readFields rest
end

/-- The fields of a record are read by the actions of their own values. -/
theorem Tree.lookup_readFields (fields : List (String × Tree)) (name : String) :
    (Tree.readFields fields).lookup name =
      (fields.lookup name).map fun value => ⟨value.read, value.readAll⟩ := by
  induction fields with
  | nil => rfl
  | cons field rest inductionHypothesis =>
      obtain ⟨key, value⟩ := field
      simp only [Tree.readFields, List.lookup_cons, inductionHypothesis]
      cases name == key <;> rfl

end ScriptMachine
