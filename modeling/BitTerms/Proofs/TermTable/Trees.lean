import BitTerms.Proofs.Dag.Trees
import BitTerms.Proofs.TermTable.Simplification

/-!
# Simplification of trees

What folding and simplification do to the trees of a table, as functions of the trees alone: a node
whose operands are literals becomes its value, a choice with a known condition becomes its branch,
and every other node stays. Simplified trees stay as they are when they are simplified again. A
table does to its terms what these functions do to the trees.
-/

namespace BitTerms

/-! ## Trees -/

namespace Tree

variable {operator : Operator} {sort : SmtSort} {operands : List (Tree TermLabel)}

def literal? : Tree TermLabel → Option Value
  | .node label _ => label.literal?

def chosen? (operator : Operator) (operands : List (Tree TermLabel)) :
    Option (Tree TermLabel) :=
  match operator, operands with
  | .ite, condition :: branches =>
    match condition.literal? with
    | some (.bool true) => branches[0]?
    | some (.bool false) => branches[1]?
    | _ => none
  | _, _ => none

/-- The application, evaluated if all its operands are literals and the operator has a value for
them. A choice between two trees whose condition is a literal is the chosen tree. -/
def fold (operator : Operator) (sort : SmtSort) (operands : List (Tree TermLabel)) :
    Tree TermLabel :=
  match operands.mapM literal? with
  | some values =>
    match operator.evaluate values >>= TermLabel.ofValue with
    | .ok label => .node label []
    | .error _ => .node ⟨.apply operator, sort⟩ operands
  | none => (chosen? operator operands).getD (.node ⟨.apply operator, sort⟩ operands)

mutual

/-- The tree with every application folded, the innermost first. -/
def simplify : Tree TermLabel → Tree TermLabel
  | .node label operands =>
    match label.head with
    | .apply operator => fold operator label.sort (simplifyAll operands)
    | .variable _ | .bits _ | .bool _ | .int _ => .node label operands

def simplifyAll : List (Tree TermLabel) → List (Tree TermLabel)
  | [] => []
  | first :: rest => first.simplify :: simplifyAll rest

end

theorem simplifyAll_eq (trees : List (Tree TermLabel)) :
    simplifyAll trees = trees.map simplify := by
  induction trees with
  | nil => rfl
  | cons first rest induction => rw [simplifyAll, induction, List.map_cons]

theorem simplify_apply (operator : Operator) (sort : SmtSort)
    (operands : List (Tree TermLabel)) :
    simplify (.node ⟨.apply operator, sort⟩ operands) =
      fold operator sort (operands.map simplify) := by
  rw [simplify, simplifyAll_eq]

theorem map_simplify (simplified : ∀ operand ∈ operands, operand.simplify = operand) :
    operands.map simplify = operands :=
  (List.map_congr_left simplified).trans (List.map_id operands)

theorem simplify_of_head {label : TermLabel}
    (notApplied : ∀ operator, label.head ≠ .apply operator) (operands : List (Tree TermLabel)) :
    simplify (.node label operands) = .node label operands := by
  rcases label with ⟨head, sort⟩
  cases head with
  | apply operator => exact absurd rfl (notApplied operator)
  | _ => rw [simplify]

theorem head_of_ofValue {value : Value} {label : TermLabel}
    (labelled : TermLabel.ofValue value = .ok label) (operator : Operator) :
    label.head ≠ .apply operator := by
  cases value with
  | bits width pattern =>
      rcases Except.bind_eq_ok_iff.mp labelled with ⟨width, -, same⟩
      cases same
      simp
  | bool truth | int number =>
      cases labelled
      simp

theorem mem_of_chosen? {branch : Tree TermLabel}
    (chosen : chosen? operator operands = some branch) : branch ∈ operands := by
  cases operator with
  | ite =>
      cases operands with
      | nil => cases chosen
      | cons condition branches =>
          simp only [chosen?] at chosen
          cases known : condition.literal? with
          | none =>
              rw [known] at chosen
              cases chosen
          | some value =>
              rw [known] at chosen
              cases value with
              | bool truth =>
                  refine List.mem_cons_of_mem condition ?_
                  cases truth <;> exact List.mem_of_getElem? chosen
              | bits | int => cases chosen
  | _ => cases chosen

/-- What an application can be folded to: a literal, one of its operands, or itself. -/
theorem fold_cases (operator : Operator) (sort : SmtSort) (operands : List (Tree TermLabel)) :
    (∃ label, (∀ other, label.head ≠ .apply other) ∧ fold operator sort operands = .node label []) ∨
      fold operator sort operands ∈ operands ∨
        fold operator sort operands = .node ⟨.apply operator, sort⟩ operands := by
  unfold fold
  cases operands.mapM literal? with
  | some values =>
      cases evaluated : operator.evaluate values >>= TermLabel.ofValue with
      | ok label =>
          rcases Except.bind_eq_ok_iff.mp evaluated with ⟨value, -, labelled⟩
          exact .inl ⟨label, head_of_ofValue labelled, by simp only [evaluated]⟩
      | error error => exact .inr (.inr (by simp only [evaluated]))
  | none =>
      cases chosen : chosen? operator operands with
      | some branch => exact .inr (.inl (mem_of_chosen? chosen))
      | none => exact .inr (.inr rfl)

/-- An application of simplified trees is simplified when it is folded. -/
theorem simplify_fold (operator : Operator) (sort : SmtSort)
    (simplified : ∀ operand ∈ operands, operand.simplify = operand) :
    (fold operator sort operands).simplify = fold operator sort operands := by
  rcases fold_cases operator sort operands with ⟨label, notApplied, isLiteral⟩ | isOperand | same
  · rw [isLiteral, simplify_of_head notApplied]
  · exact simplified _ isOperand
  · calc (fold operator sort operands).simplify
        = fold operator sort (operands.map simplify) := by rw [same, simplify_apply]
      _ = fold operator sort operands := by rw [map_simplify simplified]

theorem simplify_simplify (tree : Tree TermLabel) : tree.simplify.simplify = tree.simplify := by
  induction tree with
  | node label operands induction =>
      rcases label with ⟨head, sort⟩
      cases head with
      | apply operator =>
          rw [simplify_apply]
          refine simplify_fold operator sort fun operand member => ?_
          rcases List.mem_map.mp member with ⟨original, inside, rfl⟩
          exact induction original inside
      | _ => rw [simplify_of_head (by simp), simplify_of_head (by simp)]

end Tree

/-! ## Trees of a table -/

namespace TermTable

variable {table next : TermTable} {operator : Operator} {sort : SmtSort} {operands : List Nat}
  {trees : List (Tree TermLabel)} {term : Nat} {label : TermLabel}

theorem Valid.literal?_tree (valid : table.Valid) {tree : Tree TermLabel}
    (is : table.terms.tree? term = some tree) : table.literal? term = tree.literal? := by
  cases tree with
  | node label trees =>
      rw [literal?, Dag.label?_of_tree? valid.shared is]
      rfl

theorem Valid.literals_trees (valid : table.Valid) (are : table.terms.HasTrees operands trees) :
    operands.mapM table.literal? = trees.mapM Tree.literal? := by
  induction are with
  | nil => rfl
  | cons here _ induction =>
      rw [List.mapM_cons, List.mapM_cons, induction, valid.literal?_tree here]

theorem Valid.rel_chosen? (valid : table.Valid) (operator : Operator)
    (are : table.terms.HasTrees operands trees) :
    Option.Rel (fun term tree => table.terms.tree? term = some tree)
      (table.chosen? operator operands) (Tree.chosen? operator trees) := by
  unfold chosen? Tree.chosen?
  cases are with
  | nil => cases operator <;> exact .none
  | @cons condition tree _ _ here branches =>
      cases operator with
      | ite =>
          dsimp only
          rw [valid.literal?_tree here]
          cases tree.literal? with
          | none => exact .none
          | some value =>
              cases value with
              | bool truth =>
                  cases truth with
                  | true => exact rel_getElem? branches 0
                  | false => exact rel_getElem? branches 1
              | bits | int => exact .none
      | _ => exact .none

/-! ## Folding -/

theorem fold_apply (operator : Operator) (operands : List Nat) (sort : SmtSort)
    (table : TermTable) :
    fold operator operands sort table =
      match operands.mapM table.literal? with
      | some values =>
        match operator.evaluate values >>= TermLabel.ofValue with
        | .ok label => intern label [] table
        | .error error => .error error table
      | none =>
        match table.chosen? operator operands with
        | some branch => .ok branch table
        | none => intern ⟨.apply operator, sort⟩ operands table := by
  simp only [fold, Action.bind_apply, Action.get_apply]
  cases operands.mapM table.literal? with
  | none => cases table.chosen? operator operands <;> rfl
  | some values =>
      dsimp only
      rw [Action.bind_apply]
      cases operator.evaluate values with
      | error error => rfl
      | ok value =>
          rw [Action.lift_ok_apply]
          dsimp only
          rw [Action.bind_apply]
          change _ = match TermLabel.ofValue value with
            | .ok label => intern label [] table
            | .error error => .error error table
          cases TermLabel.ofValue value <;> rfl

theorem apply_of_plain (plain : table.folding = false) :
    apply operator operands sort table = intern ⟨.apply operator, sort⟩ operands table := by
  rw [apply, Action.bind_apply, Action.get_apply]
  simp [plain]

theorem apply_of_folding (folding : table.folding = true) :
    apply operator operands sort table = fold operator operands sort table := by
  rw [apply, Action.bind_apply, Action.get_apply]
  simp [folding]

/-- What folding does to a table: it interns a literal, finds no value, gives a branch, or interns
the application itself. -/
theorem fold_cases (operator : Operator) (operands : List Nat) (sort : SmtSort)
    (table : TermTable) :
    (∃ label, (∀ other, label.head ≠ .apply other) ∧
        fold operator operands sort table = intern label [] table) ∨
      (∃ error, fold operator operands sort table = .error error table) ∨
      (∃ branch, fold operator operands sort table = .ok branch table) ∨
      fold operator operands sort table = intern ⟨.apply operator, sort⟩ operands table := by
  rw [fold_apply]
  cases operands.mapM table.literal? with
  | some values =>
      cases evaluated : operator.evaluate values >>= TermLabel.ofValue with
      | ok label =>
          rcases Except.bind_eq_ok_iff.mp evaluated with ⟨value, -, labelled⟩
          exact .inl ⟨label, Tree.head_of_ofValue labelled, by simp only [evaluated]⟩
      | error error => exact .inr (.inl ⟨error, by simp only [evaluated]⟩)
  | none =>
      cases table.chosen? operator operands with
      | some branch => exact .inr (.inr (.inl ⟨branch, rfl⟩))
      | none => exact .inr (.inr (.inr rfl))

/-- What folding adds to a table: a literal, nothing, or the application itself. -/
theorem fold_made (folded : fold operator operands sort table = .ok term next) :
    (∃ label, (∀ other, label.head ≠ .apply other) ∧ intern label [] table = .ok term next) ∨
      next = table ∨ intern ⟨.apply operator, sort⟩ operands table = .ok term next := by
  rcases fold_cases operator operands sort table with
    ⟨label, notApplied, isLiteral⟩ | ⟨error, failed⟩ | ⟨branch, chosen⟩ | applied
  · exact .inl ⟨label, notApplied, isLiteral.symm.trans folded⟩
  · cases failed.symm.trans folded
  · cases chosen.symm.trans folded
    exact .inr (.inl rfl)
  · exact .inr (.inr (applied.symm.trans folded))

theorem extends_of_fold (folded : fold operator operands sort table = .ok term next) :
    table.terms.Extends next.terms := by
  rcases fold_made folded with ⟨label, -, interned⟩ | rfl | interned
  · exact extends_of_intern interned
  · exact .refl _
  · exact extends_of_intern interned

/-- Folding gives the folded tree. -/
theorem Valid.tree?_of_fold (valid : table.Valid) (validNext : next.Valid)
    (are : table.terms.HasTrees operands trees)
    (folded : fold operator operands sort table = .ok term next) :
    next.terms.tree? term = some (Tree.fold operator sort trees) := by
  have grown := extends_of_fold folded
  have literals := valid.literals_trees are
  have chosen := valid.rel_chosen? operator are
  rw [fold_apply, literals] at folded
  unfold Tree.fold
  cases spelled : trees.mapM Tree.literal? with
  | some values =>
      simp only [spelled] at folded ⊢
      cases evaluated : operator.evaluate values >>= TermLabel.ofValue with
      | error error =>
          rw [evaluated] at folded
          cases folded
      | ok label =>
          rw [evaluated] at folded
          exact validNext.shared.tree?_of_children (nodes_of_intern valid.shared folded) .nil
  | none =>
      simp only [spelled] at folded ⊢
      generalize table.chosen? operator operands = branch at chosen folded
      generalize Tree.chosen? operator trees = branchTree at chosen ⊢
      cases chosen with
      | some here =>
          cases folded
          exact here
      | none =>
          exact validNext.shared.tree?_of_children (nodes_of_intern valid.shared folded)
            (are.imp fun _ _ => valid.shared.tree?_extends grown)

/-! ## Simplification -/

theorem extends_of_simplifyNode {state : TermTable} {position result : Nat}
    (visited : simplifyNode position label operands state = .ok result next) :
    state.terms.Extends next.terms := by
  rcases label with ⟨head, sort⟩
  cases head with
  | apply operator => exact extends_of_fold visited
  | _ =>
      cases visited
      exact .refl _

/-- The result has the simplified tree of the term. -/
def SimplifiesTo (old : TermTable) (term : Nat) (new : TermTable) (result : Nat) : Prop :=
  ∃ tree, old.terms.tree? term = some tree ∧ new.terms.tree? result = some tree.simplify

theorem exists_simplified_trees {results : List Nat}
    (simplified : List.Forall₂ (table.SimplifiesTo · next ·) operands results) :
    ∃ trees, table.terms.HasTrees operands trees ∧
      next.terms.HasTrees results (trees.map Tree.simplify) := by
  rcases exists_between (fun operand tree => table.terms.tree? operand = some tree)
      (fun tree result => next.terms.tree? result = some tree.simplify) simplified
      fun _ _ _ pair => pair with
    ⟨trees, are, become⟩
  refine ⟨trees, are, ?_⟩
  rw [Dag.HasTrees, List.forall₂_map_right_iff]
  exact become.flip

theorem Valid.simplifiesTo_of_simplifyNode {state : TermTable} {position result : Nat}
    {results : List Nat} (valid : table.Valid) (grows : table.Grows state) (validNext : next.Valid)
    (found : table.terms.nodes[position]? = some ⟨label, operands⟩)
    (simplified : List.Forall₂ (table.SimplifiesTo · state ·) operands results)
    (visited : simplifyNode position label results state = .ok result next) :
    table.SimplifiesTo position next result := by
  rcases exists_simplified_trees simplified with ⟨trees, are, become⟩
  have is := valid.shared.tree?_of_children found are
  refine ⟨_, is, ?_⟩
  rcases label with ⟨head, sort⟩
  cases head with
  | apply operator =>
      rw [Tree.simplify_apply]
      exact grows.valid.tree?_of_fold validNext become visited
  | _ =>
      cases visited
      rw [Tree.simplify_of_head (by simp)]
      exact valid.shared.tree?_extends grows.grown.terms is

theorem Valid.sound_simplifyNode (valid : table.Valid) :
    table.terms.Sound (fun _ => True) simplifyNode (table.Grows ·)
      (fun position result state =>
        state.SameMeaning position result ∧ table.SimplifiesTo position state result)
      table.FillsUp where
  closed _ _ _ _ := trivial
  visit := by
    intro position node results state isPart found grows good
    have ends := table.sound_simplifyNode.visit isPart found grows (good.imp fun _ _ => And.left)
    cases visited : simplifyNode position node.label results state with
    | error error next =>
        rw [visited] at ends
        exact ends
    | ok result next =>
        rw [visited] at ends
        rcases ends with ⟨growsNext, same, kept⟩
        have simplified := valid.simplifiesTo_of_simplifyNode grows growsNext.valid found
          (good.imp fun _ _ => And.right) visited
        refine ⟨growsNext, ⟨same, simplified⟩, fun earlier other isGood => ?_⟩
        rcases isGood with ⟨means, tree, is, becomes⟩
        have grown := extends_of_simplifyNode visited
        exact ⟨kept earlier other means, tree, is, grows.valid.shared.tree?_extends grown becomes⟩

/-- Simplification gives the simplified tree. -/
theorem Valid.builds_simplified (valid : table.Valid) (sorted : table.sort? term = some sort) :
    table.Builds
      (fun result next => next.SameMeaning term result ∧ table.SimplifiesTo term next result)
      (simplify term table) :=
  ends_simplify (valid.sound_simplifyNode.bottomUp valid.shared trivial (lt_size_of_sort? sorted)
    (.refl valid))

end TermTable

end BitTerms
