import BitTerms.Proofs.Dag.Sharing
import BitTerms.Proofs.Pointwise
import Mathlib.Algebra.Order.BigOperators.Group.List
import Mathlib.Algebra.Order.Group.Nat

/-!
# The trees of a table

Every position of a well-formed table has a tree, and different positions have different trees. A
tree determines whatever is computed from it by recursion, in any table that has it.
-/

namespace BitTerms

/-! ## Trees -/

namespace Tree

variable {α : Type}

@[elab_as_elim, induction_eliminator]
theorem node_induction {motive : Tree α → Prop}
    (node : ∀ label children, (∀ child ∈ children, motive child) → motive (.node label children))
    (tree : Tree α) : motive tree :=
  match tree with
  | .node label children => node label children fun child _ => node_induction node child

/-- The number of nodes, with a shared subtree counted wherever it occurs. -/
def size : Tree α → Nat
  | .node _ children => 1 + (children.map size).sum

theorem size_lt_of_mem {label : α} {child : Tree α} {children : List (Tree α)}
    (member : child ∈ children) : child.size < (node label children).size := by
  have le : child.size ≤ (children.map size).sum :=
    List.le_sum_of_mem (List.mem_map_of_mem member)
  rw [size]
  omega

/-- `part` is the tree itself or stands somewhere in it. -/
inductive Within (part : Tree α) : Tree α → Prop
  | refl : Within part part
  | deeper {label : α} {children : List (Tree α)} {child : Tree α} (member : child ∈ children)
      (inside : Within part child) : Within part (.node label children)

end Tree

/-! ## Positions and their trees -/

namespace Dag

variable {α β : Type} [DecidableEq α] [Hashable α] {dag : Dag α}

/-- The positions have these trees. -/
abbrev HasTrees (dag : Dag α) : List Nat → List (Tree α) → Prop :=
  List.Forall₂ fun position tree => dag.tree? position = some tree

theorem HasTrees.pairs {other : Dag α} {lefts rights : List Nat} {trees : List (Tree α)}
    (onLeft : dag.HasTrees lefts trees) (onRight : other.HasTrees rights trees) :
    List.Forall₂ (fun left right => ∃ tree, dag.tree? left = some tree ∧
      other.tree? right = some tree) lefts rights :=
  forall₂_of_common onLeft.flip onRight.flip fun tree _ _ isLeft isRight =>
    ⟨tree, isLeft, isRight⟩

theorem tree?_of_none {position : Nat} (missing : dag.nodes[position]? = none) :
    dag.tree? position = none := by
  have unlabelled : dag.label? position = none := by simp [label?, missing]
  unfold tree?
  rw [fold, unlabelled]
  rfl

theorem WellFormed.tree?_eq (valid : dag.WellFormed) {position : Nat} {node : Node α}
    (found : dag.nodes[position]? = some node) :
    dag.tree? position = (node.children.mapM dag.tree?).map (Tree.node node.label) := by
  unfold tree?
  rw [valid.fold_eq _ found, List.mapM_map]
  rfl

theorem WellFormed.tree?_of_children (valid : dag.WellFormed) {position : Nat} {node : Node α}
    (found : dag.nodes[position]? = some node) {trees : List (Tree α)}
    (children : dag.HasTrees node.children trees) :
    dag.tree? position = some (.node node.label trees) := by
  rw [valid.tree?_eq found, mapM_eq_some_iff.mpr children, Option.map_some]

/-- A tree at a position comes from a node and the trees of its children. -/
theorem WellFormed.exists_node_of_tree? (valid : dag.WellFormed) {position : Nat} {label : α}
    {trees : List (Tree α)} (is : dag.tree? position = some (.node label trees)) :
    ∃ children, dag.nodes[position]? = some ⟨label, children⟩ ∧ dag.HasTrees children trees := by
  cases found : dag.nodes[position]? with
  | none =>
      rw [tree?_of_none found] at is
      cases is
  | some node =>
      rw [valid.tree?_eq found] at is
      rcases Option.map_eq_some_iff.mp is with ⟨others, children, same⟩
      cases same
      exact ⟨node.children, rfl, mapM_eq_some_iff.mp children⟩

theorem WellFormed.lt_size_of_tree? (valid : dag.WellFormed) {position : Nat} {tree : Tree α}
    (is : dag.tree? position = some tree) : position < dag.size := by
  cases tree with
  | node label trees =>
      rcases valid.exists_node_of_tree? is with ⟨children, found, -⟩
      exact lt_size_of_nodes found

theorem WellFormed.exists_tree (valid : dag.WellFormed) {position : Nat}
    (inside : position < dag.size) : ∃ tree, dag.tree? position = some tree := by
  induction position using Nat.strongRecOn with
  | ind position induction =>
      have found : dag.nodes[position]? = some dag.nodes[position] :=
        Array.getElem?_eq_getElem inside
      have each : ∀ child ∈ dag.nodes[position].children, ∃ tree, dag.tree? child = some tree := by
        intro child member
        have earlier := valid.child_lt found child member
        exact induction child earlier (Nat.lt_trans earlier inside)
      rcases exists_forall₂ each with ⟨trees, children⟩
      exact ⟨_, valid.tree?_of_children found children⟩

theorem WellFormed.tree?_injective (valid : dag.WellFormed) {left right : Nat} {tree : Tree α}
    (onLeft : dag.tree? left = some tree) (onRight : dag.tree? right = some tree) :
    left = right := by
  induction left using Nat.strongRecOn generalizing right tree with
  | ind left induction =>
      cases tree with
      | node label trees =>
          rcases valid.exists_node_of_tree? onLeft with ⟨lefts, foundLeft, leftTrees⟩
          rcases valid.exists_node_of_tree? onRight with ⟨rights, foundRight, rightTrees⟩
          -- The children on the left stand before their parent, so the induction reaches them.
          have same : lefts = rights := by
            rw [← List.forall₂_eq_eq_eq]
            refine imp_of_mem (leftTrees.pairs rightTrees) fun child member other pair => ?_
            rcases pair with ⟨tree, isLeft, isRight⟩
            exact induction child (valid.child_lt foundLeft child member) isLeft isRight
          subst same
          exact valid.position_eq foundLeft foundRight

/-- Equal positions are equal trees. -/
theorem WellFormed.tree?_eq_iff (valid : dag.WellFormed) {left right : Nat}
    (insideLeft : left < dag.size) : dag.tree? left = dag.tree? right ↔ left = right := by
  refine ⟨fun same => ?_, congrArg _⟩
  rcases valid.exists_tree insideLeft with ⟨tree, onLeft⟩
  exact valid.tree?_injective onLeft (same.symm.trans onLeft)

/-- The same tree in two tables gives the same results. -/
theorem fold_eq_of_tree? [Inhabited β] {other : Dag α} (valid : dag.WellFormed)
    (validOther : other.WellFormed) (combine : α → List β → β) {left right : Nat} {tree : Tree α}
    (onLeft : dag.tree? left = some tree) (onRight : other.tree? right = some tree) :
    dag.fold combine left = other.fold combine right := by
  induction left using Nat.strongRecOn generalizing right tree with
  | ind left induction =>
      cases tree with
      | node label trees =>
          rcases valid.exists_node_of_tree? onLeft with ⟨lefts, foundLeft, leftTrees⟩
          rcases validOther.exists_node_of_tree? onRight with ⟨rights, foundRight, rightTrees⟩
          rw [valid.fold_eq combine foundLeft, validOther.fold_eq combine foundRight]
          congr 1
          rw [← List.forall₂_eq_eq_eq, List.forall₂_map_left_iff, List.forall₂_map_right_iff]
          refine imp_of_mem (leftTrees.pairs rightTrees) fun child member partner pair => ?_
          rcases pair with ⟨tree, isLeft, isRight⟩
          exact induction child (valid.child_lt foundLeft child member) isLeft isRight

theorem label?_of_tree? (valid : dag.WellFormed) {position : Nat} {label : α}
    {trees : List (Tree α)} (is : dag.tree? position = some (.node label trees)) :
    dag.label? position = some label := by
  rcases valid.exists_node_of_tree? is with ⟨children, found, -⟩
  exact label?_eq found

theorem Extends.tree? {old new : Dag α} (grown : Extends old new) {position : Nat}
    (inside : position < old.size) : new.tree? position = old.tree? position :=
  grown.fold_eq _ position inside

theorem WellFormed.tree?_extends {new : Dag α} (valid : dag.WellFormed) (grown : Extends dag new)
    {position : Nat} {tree : Tree α} (is : dag.tree? position = some tree) :
    new.tree? position = some tree :=
  (grown.tree? (valid.lt_size_of_tree? is)).trans is

end Dag

end BitTerms
