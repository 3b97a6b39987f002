/-
This file looks at how a tree is read. Main statement: a tree of a kind that can be read is read as its kind
asks for, each field by itself.
-/

import ScriptMachine.Node.Reader
import ScriptMachine.Proofs.Ends
import ScriptMachine.Proofs.Writing

namespace ScriptMachine

namespace Reader

/-- Linking succeeds on what can be linked, and fails on everything else. -/
theorem link_eq (body : Node) : link body = if body.linkable then pure () else throw .malformed := by
  unfold link
  rw [Node.link_eq]
  cases body.linkable <;> rfl

/-- What holds of everything that a reader gives. -/
def Gives {A : Type} (reader : Reader A) (good : A → Prop) : Prop :=
  ∀ count, Ends reader count (fun result _ => good result) (fun _ _ => True)

section

variable {A B : Type} {good : A → Prop}

theorem gives_pure {result : A} (holds : good result) : Gives (pure result) good :=
  fun _ => holds

variable {first : Reader B} {second : B → Reader A}

/-- Reading in two parts gives what the second part gives. -/
theorem Gives.bind {middle : B → Prop} (gives : Gives first middle)
    (onward : ∀ result, middle result → Gives (second result) good) : Gives (first >>= second) good := by
  intro count
  rw [ends_bind]
  exact (gives count).weaken (fun result next holds => onward result holds next)
    (fun _ _ _ => trivial)

/-- Whatever a reader counts and refuses, it may be followed by anything. -/
theorem gives_any (reader : Reader A) : Gives reader fun _ => True :=
  fun count => ends_any reader count

/-- What a first part gives may not matter. -/
theorem gives_bind_any (onward : ∀ result, Gives (second result) good) : Gives (first >>= second) good :=
  (gives_any first).bind fun result _ => onward result

end

end Reader

variable {tree : Tree}

/-- A tree that is a text is that text. -/
theorem Tree.eq_text_of_isText {text : String} (isText : tree.isText text = true) : tree = .text text := by
  cases tree with
  | text value => rw [eq_of_beq (show (value == text) = true from isText)]
  | _ => cases isText

/-- A tree of a kind that can be read is read as its kind asks for, each field by itself. -/
theorem Tree.exists_read_eq {kind : Kind} (readable : kind ∈ Kind.readable)
    (isKind : tree.kind.isText kind.text = true) :
    ∃ item : Reader.Item, tree.read = Reader.ofKind item kind ∧ item.raw = tree ∧
      (∀ name, item.node name = (tree.field name).read) ∧
      ∀ name, item.nodes name = (tree.field name).readAll := by
  have kinded := eq_text_of_isText isKind
  cases tree with
  | record shape fields =>
      have part (name : String) :
          ((Tree.readFields fields).lookup name).getD .missing =
            ⟨((Tree.record shape fields).field name).read,
              ((Tree.record shape fields).field name).readAll⟩ := by
        show _ = (⟨((shape.find? fields name).getD .null).read,
          ((shape.find? fields name).getD .null).readAll⟩ : Reader.Part)
        rw [Tree.lookup_readFields]
        unfold Shape.find?
        cases found : fields.lookup name with
        | none => cases shape <;> rfl
        | some value => cases value <;> cases shape <;> rfl
      refine ⟨⟨.record shape fields, Tree.readFields fields⟩, ?_, rfl, fun name => ?_, fun name => ?_⟩
      · rw [Tree.read, Reader.record, kinded]
        dsimp only
        rw [Kind.ofText_text readable]
      · rw [Reader.Item.node, Reader.Item.part, part]
      · rw [Reader.Item.nodes, Reader.Item.part, part]
  | null | bool _ | int _ | float _ | text _ | list _ => cases kinded

/-- What counts as true is read member by member, if it has members. -/
theorem Tree.readAll_of_truthy (truthy : tree.truthy = true) :
    tree.readAll = match tree.members with
      | .ok members => Tree.readItems members
      | .error fault => throw fault := by
  -- The members of a text or of a dictionary are texts, and the first of them is refused.
  cases tree with
  | list items => rfl
  | text value =>
      have filled : value.isEmpty = false := by simpa [Tree.truthy] using truthy
      obtain ⟨first, rest, characters⟩ : ∃ first rest, value.toList = first :: rest :=
        List.exists_cons_of_ne_nil (by simpa [String.isEmpty_iff] using filled)
      rw [Tree.readAll, filled, Tree.members, characters]
      rfl
  | record shape fields =>
      cases shape with
      | attributes => rfl
      | dictionary =>
          cases fields with
          | nil => cases truthy
          | cons field rest => rfl
  | null => cases truthy
  | bool value | int value | float value => simp only [Tree.readAll, truthy, if_true, Tree.members]

/-- The handlers of a try statement are its catch clauses, read one after the other. -/
theorem Reader.handlers_eq {item : Reader.Item} (raw : item.raw = tree)
    (node : ∀ name, item.node name = (tree.field name).read)
    (nodes : ∀ name, item.nodes name = (tree.field name).readAll) :
    Reader.handlers item = match tree.catchClauses with
      | .ok clauses => Tree.readItems clauses
      | .error fault => throw fault := by
  unfold Reader.handlers Tree.catchClauses
  rw [Reader.Item.isSet, Reader.Item.field, Reader.Item.field, raw, node, nodes]
  cases listed : (tree.field "handlers").truthy with
  | true =>
      simp only [listed, if_true]
      exact Tree.readAll_of_truthy listed
  | false => cases alone : (tree.field "handler").isNull <;> simp [listed, alone, Tree.readItems]

end ScriptMachine
