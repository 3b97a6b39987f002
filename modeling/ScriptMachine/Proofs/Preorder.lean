/-
This file lists the nodes of a tree in the order in which they are numbered. Main statement: a tree that was
read is numbered without gaps from the number that reading began with, every node before what stands below
it, and earlier parts of a node before later ones.
-/

import ScriptMachine.Node.Field
import ScriptMachine.Proofs.Linking

namespace ScriptMachine

/-- The nodes in a field. -/
def Field.children : Field → List Node
  | .node child => [child]
  | .nodes children => children
  | .data _ => []

@[simp] theorem Field.children_node (child : Node) : (Field.node child).children = [child] := rfl

@[simp] theorem Field.children_nodes (children : List Node) : (Field.nodes children).children = children := rfl

@[simp] theorem Field.children_data (value : Tree) : (Field.data value).children = [] := rfl

namespace Node

/-- The nodes that a node shows in its fields, identifiers and exit points among them. -/
def inner (node : Node) : List Node := node.fields.flatMap fun field => field.2.children

theorem inner_block (place : Place) (body : List Node) (exit : Nat) :
    (Node.block place body (some exit)).inner = body ++ [.scopeExit exit] := by
  simp [inner, fields, Field.exit]

theorem inner_tryStatement (place : Place) (guarded handler : Node) (others : List Node) (exit : Nat) :
    (Node.tryStatement place guarded handler others exit).inner =
      (guarded :: handler :: others) ++ [.handlerExit exit] := by
  simp [inner, fields]

variable {node root : Node}

theorem flatMap_places (nodes : List Node) : nodes.flatMap places = allPlaces nodes := by
  induction nodes with
  | nil => rfl
  | cons node rest ih => rw [List.flatMap_cons, ih, allPlaces]

theorem allPlaces_identifiers (params : List Ident) :
    allPlaces (params.map Node.identifier) = params.map Ident.place := by
  rw [← flatMap_places, List.flatMap_map]
  exact (List.map_eq_flatMap).symm

/-- A node shows its parts in the order in which they were read. -/
theorem places_eq (present : node.isAbsent = false) :
    node.places = node.place :: node.inner.flatMap places := by
  have exits : ∀ exit : Option Nat,
      allPlaces (Field.exit exit).children = exit.toList.map Place.ofExit := by
    intro exit
    cases exit <;> rfl
  rw [flatMap_places]
  cases node <;> simp_all [isAbsent, place, places, inner, fields, Field.params, Field.name, allPlaces,
    allPlaces_append, allPlaces_identifiers, Place.ofExit]

/-- A child has fewer places than its parent. -/
theorem length_places_inner {child : Node} (member : child ∈ node.inner) :
    child.places.length < node.places.length := by
  have present : node.isAbsent = false := by
    cases node with
    | absent => cases member
    | _ => rfl
  have shorter := (places_sublist_allPlaces member).length_le
  rw [places_eq present, flatMap_places, List.length_cons]
  omega

/-- A node and everything below it, each node before what it shows in its fields. An absent node is none. -/
def preorder (node : Node) : List Node :=
  if node.isAbsent then [] else node :: node.inner.attach.flatMap fun child => preorder child.1
termination_by node.places.length
decreasing_by exact length_places_inner child.2

def descendants (node : Node) : List Node := node.inner.flatMap preorder

theorem preorder_of_absent (absent : node.isAbsent = true) : node.preorder = [] := by
  rw [preorder, if_pos absent]

/-- A node's preorder begins with it. -/
theorem preorder_eq (present : node.isAbsent = false) : node.preorder = node :: node.descendants := by
  rw [preorder, if_neg (by simp [present]), descendants]
  simp

/-- What is below a node is a child or below a child, so that induction goes from children to nodes. -/
theorem preorder_induction {motive : Node → Prop}
    (step : ∀ node, (∀ child ∈ node.inner, motive child) → motive node) (node : Node) : motive node := by
  induction size : node.places.length using Nat.strongRecOn generalizing node with
  | _ size ih =>
      subst size
      apply step
      intro child member
      exact ih _ (length_places_inner member) child rfl

/-- The nodes of a tree have its places, in the order in which they were read. -/
theorem map_place_preorder (node : Node) : node.preorder.map place = node.places := by
  induction node using preorder_induction with
  | step node deeper =>
      cases missing : node.isAbsent with
      | true =>
          cases node with
          | absent => simp [preorder_of_absent missing, places]
          | _ => cases missing
      | false =>
          rw [preorder_eq missing, places_eq missing, List.map_cons, descendants, List.map_flatMap,
            List.flatMap_congr deeper]

theorem isAbsent_of_mem_preorder (member : node ∈ root.preorder) : node.isAbsent = false := by
  induction root using preorder_induction with
  | step root deeper =>
      cases missing : root.isAbsent with
      | true => simp [preorder_of_absent missing] at member
      | false =>
          rw [preorder_eq missing, List.mem_cons, descendants, List.mem_flatMap] at member
          obtain rfl | ⟨child, inside, member⟩ := member
          · exact missing
          · exact deeper child inside member

/-- The nodes below a node stand together among the nodes of the tree. -/
theorem preorder_sublist (member : node ∈ root.preorder) : node.preorder.Sublist root.preorder := by
  induction root using preorder_induction with
  | step root deeper =>
      cases missing : root.isAbsent with
      | true => simp [preorder_of_absent missing] at member
      | false =>
          rw [preorder_eq missing, List.mem_cons, descendants, List.mem_flatMap] at member
          obtain rfl | ⟨child, inside, member⟩ := member
          · exact .refl _
          · have among : child.preorder.Sublist root.descendants :=
              List.sublist_flatten_of_mem (List.mem_map_of_mem inside)
            rw [preorder_eq missing]
            exact ((deeper child inside member).trans among).trans (List.sublist_cons_self _ _)

/-- The nodes of a tree are numbered from a first number up to the number that comes next. -/
structure Ordered (root : Node) (start next : Nat) : Prop where
  dense : root.preorder.map (fun node => node.place.id) =
    (List.range' start root.preorder.length).map fun (id : Nat) => (id : Int)
  distinct : (root.preorder.map fun node => node.place.id).Nodup
  next : next = start + root.preorder.length
  deeper : ∀ node ∈ root.preorder, ∀ descendant ∈ node.descendants, node.place.id < descendant.place.id
  siblings : ∀ node ∈ root.preorder, ∀ first second, [first, second].Sublist node.inner →
    ∀ early ∈ first.preorder, ∀ late ∈ second.preorder, early.place.id < late.place.id
  leavesBlock : ∀ (place : Place) (body : List Node) (exit : Nat),
    .block place body (some exit) ∈ root.preorder →
    ∀ statement ∈ body, ∀ node ∈ statement.preorder, node.place.id < exit
  leavesTry : ∀ (place : Place) (guarded handler : Node) (others : List Node) (exit : Nat),
    .tryStatement place guarded handler others exit ∈ root.preorder →
    ∀ part ∈ guarded :: handler :: others, ∀ node ∈ part.preorder, node.place.id < exit

section

variable {root : Node}
  (increasing : root.preorder.Pairwise fun early late => early.place.id < late.place.id)
include increasing
variable {node : Node}

/-- Descendants come after their node, in order. -/
theorem pairwise_descendants (member : node ∈ root.preorder) :
    (∀ descendant ∈ node.descendants, node.place.id < descendant.place.id) ∧
    node.inner.Pairwise fun first second => ∀ early ∈ first.preorder, ∀ late ∈ second.preorder,
      early.place.id < late.place.id := by
  have own := increasing.sublist (preorder_sublist member)
  rw [preorder_eq (isAbsent_of_mem_preorder member), List.pairwise_cons] at own
  exact ⟨own.1, (List.pairwise_flatMap.mp own.2).2⟩

/-- An exit point that stands behind other parts has a larger number than everything in them. -/
theorem lt_of_exit {exit part inside : Node} {before : List Node} (member : node ∈ root.preorder)
    (shown : node.inner = before ++ [exit]) (present : exit.isAbsent = false) (among : part ∈ before)
    (deep : inside ∈ part.preorder) : inside.place.id < exit.place.id := by
  have apart := (pairwise_descendants increasing member).2
  rw [shown, List.pairwise_append] at apart
  refine apart.2.2 part among exit (List.mem_singleton_self exit) inside deep exit ?_
  rw [preorder_eq present]
  exact List.mem_cons_self

end

end Node

/-- The nodes of a tree that was read are numbered one after the other from the number that reading began
with: nodes before what is below them, earlier parts before later ones, and exits after what they are the
exits of. -/
theorem Tree.ordered_of_read {tree : Tree} {root : Node} {start next : Nat}
    (reads : tree.read start = .ok root next) : root.Ordered start next := by
  have numbered := Tree.numbered_of_read reads
  have ids : root.preorder.map (fun node => node.place.id) = root.places.map Place.id := by
    rw [← Node.map_place_preorder, List.map_map]
    rfl
  have length : root.preorder.length = root.places.length := by
    rw [← Node.map_place_preorder, List.length_map]
  have increasing : root.preorder.Pairwise fun early late => early.place.id < late.place.id := by
    have sorted := numbered.pairwise
    rwa [← ids, List.pairwise_map] at sorted
  constructor
  · rw [ids, length, numbered.ids]
  · exact (List.pairwise_map.mpr increasing).imp fun less => Int.ne_of_lt less
  · rw [length, numbered.next]
  · intro node member
    exact (Node.pairwise_descendants increasing member).1
  · intro node member first second before
    have apart := (Node.pairwise_descendants increasing member).2.sublist before
    simpa using apart
  · intro place body exit member statement among node deep
    exact Node.lt_of_exit increasing member (Node.inner_block place body exit) rfl among deep
  · intro place guarded handler others exit member part among node deep
    exact Node.lt_of_exit increasing member (Node.inner_tryStatement place guarded handler others exit) rfl
      among deep

/-- Reading a program with all forms of statements from the number seven numbers thirty-five nodes. -/
theorem Tree.ordered_of_read_forms :
    ∃ root, Sample.forms.read 7 = .ok root 42 ∧ root.Ordered 7 42 ∧ root.preorder.length = 35 := by
  obtain ⟨root, counted, reads, rfl⟩ : ∃ root counted,
      Sample.forms.read 7 = .ok root counted ∧ counted = 42 := Ends.exists_ok (by decide +kernel)
  have ordered := Tree.ordered_of_read reads
  refine ⟨root, reads, ordered, ?_⟩
  have next := ordered.next
  omega

end ScriptMachine
