import BitTerms.Dag
import BitTerms.Proofs.Pointwise

/-!
# Tables that share

`Dag.WellFormed` says that a table holds every node once, under the position that its index
gives, and children before their parents. Interning keeps this, and only adds at the end
(`Dag.Extends`); what was computed for the trees of a table stays true in every later one.
-/

namespace BitTerms.Dag

variable {α : Type} [DecidableEq α] [Hashable α]

/-- The index and the nodes are inverse to each other, and every child stands before its
parent. -/
structure WellFormed (dag : Dag α) : Prop where
  index_iff : ∀ (node : Node α) (position : Nat),
    dag.index[node]? = some position ↔ dag.nodes[position]? = some node
  child_lt : ∀ {position : Nat} {node : Node α}, dag.nodes[position]? = some node →
    ∀ child ∈ node.children, child < position

/-- Every node of the old table is in the new one, at the same position. -/
structure Extends (old new : Dag α) : Prop where
  nodes : ∀ {position : Nat} {node : Node α},
    old.nodes[position]? = some node → new.nodes[position]? = some node

theorem wellFormed_empty : WellFormed ({} : Dag α) where
  index_iff := by simp
  child_lt := by simp

namespace Extends

theorem refl (dag : Dag α) : Extends dag dag := ⟨id⟩

theorem trans {old middle new : Dag α} (first : Extends old middle)
    (second : Extends middle new) : Extends old new := ⟨second.nodes ∘ first.nodes⟩

theorem lt_size {old new : Dag α} (grown : Extends old new) {position : Nat}
    (inside : position < old.size) : position < new.size := by
  have found : old.nodes[position]? = some old.nodes[position] :=
    Array.getElem?_eq_getElem inside
  exact (Array.getElem?_eq_some_iff.mp (grown.nodes found)).1

theorem size_le {old new : Dag α} (grown : Extends old new) : old.size ≤ new.size :=
  Nat.le_of_not_lt fun larger => Nat.lt_irrefl _ (grown.lt_size larger)

end Extends

theorem lt_size_of_nodes {dag : Dag α} {position : Nat} {node : Node α}
    (found : dag.nodes[position]? = some node) : position < dag.size :=
  (Array.getElem?_eq_some_iff.mp found).1

/-! ## Interning -/

theorem intern_of_index {dag : Dag α} {node : Node α} {position : Nat}
    (found : dag.index[node]? = some position) : dag.intern node = (position, dag) := by
  cases dag
  simp only [intern] at found ⊢
  rw [found]

theorem intern_of_no_index {dag : Dag α} {node : Node α} (missing : dag.index[node]? = none) :
    dag.intern node =
      (dag.size, { nodes := dag.nodes.push node, index := dag.index.insert node dag.size }) := by
  cases dag
  simp only [intern] at missing ⊢
  rw [missing]
  rfl

theorem size_intern_le (dag : Dag α) (node : Node α) : (dag.intern node).2.size ≤ dag.size + 1 := by
  cases existing : dag.index[node]? with
  | some position =>
      rw [intern_of_index existing]
      exact Nat.le_succ _
  | none =>
      rw [intern_of_no_index existing]
      simp [size]

/-- A node that is there already is not added again. -/
theorem intern_of_contains {dag : Dag α} {node : Node α} (present : dag.contains node = true) :
    (dag.intern node).2 = dag := by
  rw [contains, Std.HashMap.contains_eq_isSome_getElem?] at present
  rcases Option.isSome_iff_exists.mp present with ⟨position, existing⟩
  rw [intern_of_index existing]

theorem extends_intern (dag : Dag α) (node : Node α) : Extends dag (dag.intern node).2 := by
  cases existing : dag.index[node]? with
  | some position =>
      rw [intern_of_index existing]
      exact Extends.refl dag
  | none =>
      rw [intern_of_no_index existing]
      refine ⟨fun {position other} stored => ?_⟩
      have inside := lt_size_of_nodes stored
      simp only [size] at inside
      simpa [Array.getElem?_push, Nat.ne_of_lt inside] using stored

theorem WellFormed.nodes_intern {dag : Dag α} (valid : dag.WellFormed) (node : Node α) :
    (dag.intern node).2.nodes[(dag.intern node).1]? = some node := by
  cases existing : dag.index[node]? with
  | some position =>
      rw [intern_of_index existing]
      exact (valid.index_iff node position).mp existing
  | none =>
      rw [intern_of_no_index existing]
      simp [size]

theorem WellFormed.intern_eq_self_iff {dag : Dag α} (valid : dag.WellFormed) (node : Node α) :
    (dag.intern node).2 = dag ↔ ∃ position : Nat, dag.nodes[position]? = some node := by
  constructor
  · intro same
    have stored := valid.nodes_intern node
    rw [same] at stored
    exact ⟨_, stored⟩
  · rintro ⟨position, found⟩
    rw [intern_of_index ((valid.index_iff node position).mpr found)]

theorem WellFormed.contains_iff {dag : Dag α} (valid : dag.WellFormed) (node : Node α) :
    dag.contains node = true ↔ ∃ position : Nat, dag.nodes[position]? = some node := by
  rw [contains, Std.HashMap.contains_eq_isSome_getElem?, Option.isSome_iff_exists]
  exact exists_congr (valid.index_iff node)

/-- A node stands at one place only. -/
theorem WellFormed.position_eq {dag : Dag α} (valid : dag.WellFormed) {left right : Nat}
    {node : Node α} (onLeft : dag.nodes[left]? = some node)
    (onRight : dag.nodes[right]? = some node) : left = right := by
  rw [← valid.index_iff] at onLeft onRight
  exact Option.some.inj (onLeft.symm.trans onRight)

theorem nodes_intern_cases (dag : Dag α) (node : Node α) {position : Nat} {other : Node α}
    (found : (dag.intern node).2.nodes[position]? = some other) :
    dag.nodes[position]? = some other ∨ other = node := by
  cases existing : dag.index[node]? with
  | some old =>
      rw [intern_of_index existing] at found
      exact .inl found
  | none =>
      rw [intern_of_no_index existing] at found
      simp only [Array.getElem?_push] at found
      split at found
      · exact .inr (Option.some.inj found).symm
      · exact .inl found

theorem WellFormed.intern {dag : Dag α} (valid : dag.WellFormed) {node : Node α}
    (inside : ∀ child ∈ node.children, child < dag.size) :
    (dag.intern node).2.WellFormed := by
  cases existing : dag.index[node]? with
  | some position =>
      rw [intern_of_index existing]
      exact valid
  | none =>
      rw [intern_of_no_index existing]
      have missing : ∀ position : Nat, dag.nodes[position]? ≠ some node := by
        intro position stored
        rw [(valid.index_iff node position).mpr stored] at existing
        cases existing
      constructor
      · intro other position
        by_cases same : node = other
        · subst other
          have : dag.size = position ↔ position = dag.nodes.size := eq_comm
          simp [Array.getElem?_push, missing, this]
        · have := valid.index_iff other position
          by_cases atEnd : position = dag.nodes.size
          · subst position
            simp [Std.HashMap.getElem?_insert, same, this]
          · simp [Std.HashMap.getElem?_insert, Array.getElem?_push, same, this, atEnd]
      · intro position other stored child member
        by_cases atEnd : position = dag.nodes.size
        · subst position
          simp only [Array.getElem?_push_size, Option.some.injEq] at stored
          subst other
          exact inside child member
        · simp only [Array.getElem?_push, if_neg atEnd] at stored
          exact valid.child_lt stored child member

/-! ## Results for trees -/

theorem label?_eq {dag : Dag α} {position : Nat} {node : Node α}
    (found : dag.nodes[position]? = some node) : dag.label? position = some node.label := by
  simp [label?, found]

theorem WellFormed.children_eq {dag : Dag α} (valid : dag.WellFormed) {position : Nat}
    {node : Node α} (found : dag.nodes[position]? = some node) :
    dag.children position = node.children := by
  simp only [children, found]
  rw [List.filter_eq_self]
  intro child member
  simpa using valid.child_lt found child member

theorem WellFormed.fold_eq {β : Type} [Inhabited β] {dag : Dag α} (valid : dag.WellFormed)
    (combine : α → List β → β) {position : Nat} {node : Node α}
    (found : dag.nodes[position]? = some node) :
    dag.fold combine position =
      combine node.label (node.children.map (dag.fold combine)) := by
  rw [fold, label?_eq found]
  simp only [List.map_attach_eq_pmap, List.pmap_eq_map]
  rw [valid.children_eq found]

/-- What was computed for a tree stays true in every later table. -/
theorem Extends.fold_eq {β : Type} [Inhabited β] {old new : Dag α} (grown : Extends old new)
    (combine : α → List β → β) (position : Nat) (inside : position < old.size) :
    new.fold combine position = old.fold combine position := by
  induction position using Nat.strongRecOn with
  | ind position induction =>
      have found : old.nodes[position]? = some old.nodes[position] :=
        Array.getElem?_eq_getElem inside
      rw [fold, fold, label?_eq found, label?_eq (grown.nodes found)]
      have sameChildren : new.children position = old.children position := by
        simp only [children, found, grown.nodes found]
      simp only [List.map_attach_eq_pmap, List.pmap_eq_map, sameChildren]
      congr 1
      apply List.map_congr_left
      intro child member
      have earlier := lt_of_mem_children member
      exact induction child earlier (Nat.lt_trans earlier inside)

/-- A result for a tree can be converted at the end or at every step. -/
theorem WellFormed.map_fold {β γ : Type} [Inhabited β] [Inhabited γ] {dag : Dag α}
    (valid : dag.WellFormed) {combine : α → List β → β} {converted : α → List γ → γ}
    {convert : β → γ}
    (each : ∀ label results, convert (combine label results) =
      converted label (results.map convert)) {position : Nat} (inside : position < dag.size) :
    convert (dag.fold combine position) = dag.fold converted position := by
  induction position using Nat.strongRecOn with
  | ind position induction =>
      have found : dag.nodes[position]? = some dag.nodes[position] :=
        Array.getElem?_eq_getElem inside
      rw [valid.fold_eq combine found, valid.fold_eq converted found, each, List.map_map]
      congr 1
      apply List.map_congr_left
      intro child member
      have earlier := valid.child_lt found child member
      exact induction child earlier (Nat.lt_trans earlier inside)

/-- Trees are told apart by their results, if a result gives away those for the children, and the
label once the children are known. -/
theorem WellFormed.fold_injective {β : Type} [Inhabited β] {dag : Dag α}
    (valid : dag.WellFormed) {combine : α → List β → β}
    (determines : ∀ {left right : Nat} {leftNode rightNode : Node α},
      dag.nodes[left]? = some leftNode → dag.nodes[right]? = some rightNode →
      dag.fold combine left = dag.fold combine right →
      leftNode.children.map (dag.fold combine) = rightNode.children.map (dag.fold combine) ∧
        (leftNode.children = rightNode.children → leftNode.label = rightNode.label))
    {left right : Nat} (insideLeft : left < dag.size) (insideRight : right < dag.size)
    (same : dag.fold combine left = dag.fold combine right) : left = right := by
  induction left using Nat.strongRecOn generalizing right with
  | ind left induction =>
      have foundLeft : dag.nodes[left]? = some dag.nodes[left] :=
        Array.getElem?_eq_getElem insideLeft
      have foundRight : dag.nodes[right]? = some dag.nodes[right] :=
        Array.getElem?_eq_getElem insideRight
      rcases determines foundLeft foundRight same with ⟨results, labels⟩
      have children : dag.nodes[left].children = dag.nodes[right].children := by
        refine eq_of_map_eq results fun child member other memberToo => ?_
        have earlier := valid.child_lt foundLeft child member
        have earlierToo := valid.child_lt foundRight other memberToo
        exact induction child earlier (Nat.lt_trans earlier insideLeft)
          (Nat.lt_trans earlierToo insideRight)
      have nodes : dag.nodes[left] = dag.nodes[right] := by
        generalize dag.nodes[left] = leftNode at *
        generalize dag.nodes[right] = rightNode at *
        cases leftNode
        cases rightNode
        cases children
        cases labels rfl
        rfl
      exact valid.position_eq foundLeft (nodes ▸ foundRight)

end BitTerms.Dag
