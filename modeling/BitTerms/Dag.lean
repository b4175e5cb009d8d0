import Std.Data.HashMap
import BitTerms.Numbers

/-!
# Shared trees

A table of trees in which equal subtrees are stored once. A node is a label and the positions of
its children; asking for a node that is there already gives its old position, so two positions
are equal exactly when the trees below them are. Children are interned before their parents,
which makes the position itself a measure for walks down the table.
-/

namespace BitTerms

structure Dag.Node (α : Type) where
  label : α
  children : List Nat
deriving DecidableEq, Hashable

/-- A table of shared trees, in the order they were first asked for. -/
structure Dag (α : Type) [DecidableEq α] [Hashable α] where
  nodes : Array (Dag.Node α) := #[]
  index : Std.HashMap (Dag.Node α) Nat := {}

inductive Tree (α : Type) where
  | node (label : α) (children : List (Tree α))

namespace Dag

variable {α : Type} [DecidableEq α] [Hashable α]

def size (dag : Dag α) : Nat := dag.nodes.size

/-- The position of a node, which is added at the end if it is not there yet. -/
def intern (dag : Dag α) (node : Node α) : Nat × Dag α :=
  match dag with
  | ⟨nodes, index⟩ =>
    match index[node]? with
    | some position => (position, ⟨nodes, index⟩)
    | none => (nodes.size, ⟨nodes.push node, index.insert node nodes.size⟩)

def contains (dag : Dag α) (node : Node α) : Bool := dag.index.contains node

def label? (dag : Dag α) (position : Nat) : Option α :=
  dag.nodes[position]?.map Node.label

/-- The children of a node. Only positions before its own count: in a table that was built by
interning children first, that is all of them. -/
def children (dag : Dag α) (position : Nat) : List Nat :=
  match dag.nodes[position]? with
  | some node => node.children.filter (· < position)
  | none => []

theorem lt_of_mem_children {dag : Dag α} {position child : Nat}
    (member : child ∈ dag.children position) : child < position := by
  unfold children at member
  split at member
  · simpa using (List.mem_filter.mp member).2
  · simp at member

/-- Computes a result for the tree at a position from the results for its children. This is the
plain recursion, which walks a shared subtree once for every way to reach it. -/
def fold {β : Type} [Inhabited β] (dag : Dag α) (combine : α → List β → β) (position : Nat) : β :=
  match dag.label? position with
  | some label =>
    combine label ((dag.children position).attach.map fun ⟨child, _⟩ =>
      dag.fold combine child)
  | none => default
termination_by position
decreasing_by exact lt_of_mem_children ‹_›

def tree? (dag : Dag α) (position : Nat) : Option (Tree α) :=
  dag.fold (fun label children => (children.mapM id).map (Tree.node label)) position

/-- A measure for walks through the tree at a position: each node counts, and each edge. -/
def weight (dag : Dag α) (position : Nat) : Nat :=
  5 + ((dag.children position).attach.map fun ⟨child, _⟩ => dag.weight child + 1).sum
termination_by position
decreasing_by exact lt_of_mem_children ‹_›

theorem weight_eq (dag : Dag α) (position : Nat) :
    dag.weight position =
      5 + ((dag.children position).map fun child => dag.weight child + 1).sum := by
  rw [weight]
  simp only [List.map_attach_eq_pmap, List.pmap_eq_map]

end Dag

end BitTerms
