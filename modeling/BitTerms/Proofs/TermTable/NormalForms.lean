import BitTerms.Proofs.Narrowing
import BitTerms.Proofs.TermTable.Sessions
import BitTerms.Proofs.TermTable.Trees

/-!
# Simplified terms are normal forms

In a simplified term nothing is left to evaluate and no choice is left to make, at any depth
(`Tree.Reducible`): a tree that simplification leaves as it is has only such trees below it. The
simplified tree is no larger, simplification finds nothing to do in it, and for a term without
variables it is the literal of the term's value.
-/

namespace BitTerms

/-! ## Readings -/

namespace Context

/-- Every reading that there is for expressions of this sort finds a literal. -/
structure IsConcrete {σ : Type} [Engine σ] (context : Context σ) (expr : Expr) : Prop where
  numeral : expr.sort ≠ .bool → Literal.isNumeral (context.literal? expr) = true
  truth : expr.sort = .bool → ((context.literal? expr).bind Value.bool?).isSome
  number : expr.sort = .int → ((context.literal? expr).bind Value.int?).isSome
  intWord : expr.sort = .int → (Literal.intWord (context.literal? expr)).isLiteral = true
  unsigned : ∀ width, expr.sort = .bits width →
    (Literal.unsigned? (context.literal? expr)).isSome
  signed : ∀ width, expr.sort = .bits width →
    (Literal.signed? width.bits (context.literal? expr)).isSome
  word : ∀ width, expr.sort = .bits width →
    (Literal.word (context.literal? expr)).isLiteral = true
  signedWord : ∀ width, expr.sort = .bits width →
    (Literal.signedWord width.bits (context.literal? expr)).isLiteral = true

theorem isConcrete_of_literal {σ : Type} [Engine σ] {context : Context σ} {expr : Expr}
    {value : Value} (literal : context.literal? expr = some value)
    (hasSort : value.HasSort expr.sort) : context.IsConcrete expr := by
  cases sorted : expr.sort with
  | bool =>
      rcases Value.hasSort_bool_iff.mp (sorted ▸ hasSort) with ⟨truth, rfl⟩
      constructor <;> simp [literal, sorted, Value.bool?]
  | int =>
      rcases Value.hasSort_int_iff.mp (sorted ▸ hasSort) with ⟨number, rfl⟩
      constructor <;> simp [literal, sorted, Value.int?, Literal.isNumeral, Value.isNumeral,
        Literal.intWord, Narrowed.isLiteral_ofInt]
  | bits width =>
      rcases Value.hasSort_bits_iff.mp (sorted ▸ hasSort) with ⟨pattern, rfl, -⟩
      constructor <;> simp [literal, sorted, Literal.isNumeral, Value.isNumeral,
        Literal.unsigned?, Literal.signed?, Value.pattern?, Literal.word, Narrowed.isLiteral_ofNat,
        Narrowed.signedWord_bits, Narrowed.isLiteral_ofSigned]

end Context

/-! ## Trees -/

namespace Tree

variable {operator : Operator} {sort : SmtSort} {operands : List (Tree TermLabel)}

/-- An application of literals only, or a choice with a literal as condition. -/
def Reducible : Tree TermLabel → Prop
  | .node label operands =>
    ∃ operator, label.head = .apply operator ∧
      ((∀ operand ∈ operands, operand.literal?.isSome) ∨
        operator = .ite ∧ ∃ condition ∈ operands.head?, condition.literal?.isSome)

theorem size_fold_le (operator : Operator) (sort : SmtSort) (operands : List (Tree TermLabel)) :
    (fold operator sort operands).size ≤ 1 + (operands.map size).sum := by
  rcases fold_cases operator sort operands with ⟨label, -, isLiteral⟩ | isOperand | same
  · rw [isLiteral, size]
    simp
  · have smaller : _ < size (.node (⟨.apply operator, sort⟩ : TermLabel) operands) :=
      size_lt_of_mem isOperand
    rw [size] at smaller
    exact Nat.le_of_lt smaller
  · rw [same, size]

theorem size_simplify_le (tree : Tree TermLabel) : tree.simplify.size ≤ tree.size := by
  induction tree with
  | node label operands induction =>
      rcases label with ⟨head, sort⟩
      cases head with
      | apply operator =>
          have sums : (operands.map fun operand => operand.simplify.size).sum ≤
              (operands.map size).sum := List.sum_le_sum induction
          calc (simplify (.node ⟨.apply operator, sort⟩ operands)).size
              ≤ 1 + ((operands.map simplify).map size).sum := by
                rw [simplify_apply]
                exact size_fold_le operator sort _
            _ ≤ 1 + (operands.map size).sum := by
                rw [List.map_map]
                exact Nat.add_le_add_left sums 1
            _ = size (.node ⟨.apply operator, sort⟩ operands) := by rw [size]
      | _ => rw [simplify_of_head (by simp)]

/-- The operands of a tree that stays as it is stay as they are, too: the tree is not one of the
simplified operands, because these are smaller. -/
theorem operands_of_simplify_eq
    (stays : simplify (.node ⟨.apply operator, sort⟩ operands) =
      .node ⟨.apply operator, sort⟩ operands) :
    ∀ operand ∈ operands, operand.simplify = operand := by
  rw [simplify_apply] at stays
  rcases fold_cases operator sort (operands.map simplify) with
    ⟨label, notApplied, isLiteral⟩ | isOperand | same
  · cases stays.symm.trans isLiteral
    exact absurd rfl (notApplied operator)
  · rw [stays] at isOperand
    rcases List.mem_map.mp isOperand with ⟨operand, member, simplified⟩
    have smaller : _ < size (.node (⟨.apply operator, sort⟩ : TermLabel) operands) :=
      size_lt_of_mem member
    have shrinks := size_simplify_le operand
    rw [simplified] at shrinks
    omega
  · have operandsStay : operands = operands.map simplify := (node.inj (stays.symm.trans same)).2
    intro operand member
    exact List.map_inj_left.mp (operandsStay.symm.trans (List.map_id operands).symm) operand member

theorem fold_of_simplify_eq
    (stays : simplify (.node ⟨.apply operator, sort⟩ operands) =
      .node ⟨.apply operator, sort⟩ operands) :
    fold operator sort operands = .node ⟨.apply operator, sort⟩ operands := by
  rw [← stays, simplify_apply, map_simplify (operands_of_simplify_eq stays)]

/-- A choice that is left has no known condition: else it would be the smaller branch. -/
theorem chosen?_of_simplify_eq
    (stays : simplify (.node ⟨.apply operator, sort⟩ operands) =
      .node ⟨.apply operator, sort⟩ operands)
    (notAll : operands.mapM literal? = none) : chosen? operator operands = none := by
  have folded := fold_of_simplify_eq stays
  cases chosen : chosen? operator operands with
  | none => rfl
  | some branch =>
      have smaller : branch.size < size (.node (⟨.apply operator, sort⟩ : TermLabel) operands) :=
        size_lt_of_mem (mem_of_chosen? chosen)
      simp only [fold, notAll, chosen, Option.getD_some] at folded
      rw [folded] at smaller
      exact absurd smaller (Nat.lt_irrefl _)

end Tree

/-! ## Terms that stay as they are -/

namespace TermTable

variable {table next : TermTable} {operator : Operator} {sort : SmtSort} {operands : List Nat}
  {term : Nat} {tree : Tree TermLabel}

/-- Simplification changes nothing about the tree of the term. -/
def Stays (table : TermTable) (term : Nat) : Prop :=
  ∃ tree, table.terms.tree? term = some tree ∧ tree.simplify = tree

theorem Stays.of_operand (stays : table.Stays term) (valid : table.Valid)
    {label : TermLabel} (found : table.terms.nodes[term]? = some ⟨label, operands⟩) :
    ∀ operand ∈ operands, table.Stays operand := by
  rcases stays with ⟨tree, is, same⟩
  cases tree with
  | node treeLabel trees =>
      rcases valid.shared.exists_node_of_tree? is with ⟨children, foundToo, are⟩
      cases found.symm.trans foundToo
      intro operand member
      cases valid.node found with
      | named | literal => simp at member
      | apply operator operands sorts sort =>
          rcases exists_of_mem_left are member with ⟨tree, inside, isOperand⟩
          exact ⟨tree, isOperand, Tree.operands_of_simplify_eq same tree inside⟩

/-- A choice can be made as soon as its condition is a literal, which is a truth value then. -/
theorem Valid.exists_chosen (valid : table.Valid) {sorts : List SmtSort}
    (sorted : table.HasSorts operands sorts) (rule : Operator.ite.Types sorts sort)
    {trees : List (Tree TermLabel)} (are : table.terms.HasTrees operands trees)
    {condition : Tree TermLabel} (first : condition ∈ trees.head?)
    (literal : condition.literal?.isSome) : ∃ branch, Tree.chosen? .ite trees = some branch := by
  cases rule with
  | ite =>
      rcases exists_three sorted with ⟨test, left, right, rfl, isBool, -, -⟩
      rcases are with _ | ⟨here, _ | ⟨_, _ | ⟨_, _ | _⟩⟩⟩
      cases first
      rcases Option.isSome_iff_exists.mp literal with ⟨value, isLiteral⟩
      have spelled := (valid.literal?_tree here).trans isLiteral
      rcases Value.hasSort_bool_iff.mp (valid.literal_hasSort spelled isBool) with ⟨truth, rfl⟩
      cases truth <;> exact ⟨_, by simp only [Tree.chosen?, isLiteral]; rfl⟩

/-- An application of literals is not left: evaluation would have given a literal for it. -/
theorem Valid.literals_of_simplify_eq (valid : table.Valid) {trees : List (Tree TermLabel)}
    (is : table.terms.tree? term = some (.node ⟨.apply operator, sort⟩ trees))
    (same : Tree.simplify (.node ⟨.apply operator, sort⟩ trees) =
      .node ⟨.apply operator, sort⟩ trees) : trees.mapM Tree.literal? = none := by
  rcases valid.shared.exists_node_of_tree? is with ⟨operands, found, are⟩
  rcases valid.application found with ⟨sorts, sorted, rule⟩
  have folded := Tree.fold_of_simplify_eq same
  cases spelled : trees.mapM Tree.literal? with
  | none => rfl
  | some values =>
      rcases valid.exists_ofValue sorted rule ((valid.literals_trees are).trans spelled) with
        ⟨value, label, evaluated, labelled, -⟩
      have evaluates : operator.evaluate values >>= TermLabel.ofValue = .ok label := by
        rw [evaluated]
        exact labelled
      simp only [Tree.fold, spelled, evaluates] at folded
      cases folded
      exact absurd rfl (Tree.head_of_ofValue labelled operator)

theorem Valid.not_reducible (valid : table.Valid) (is : table.terms.tree? term = some tree)
    (same : tree.simplify = tree) : ¬ tree.Reducible := by
  cases tree with
  | node label trees =>
      rcases label with ⟨head, sort⟩
      rintro ⟨operator, rfl, reducible⟩
      have notAll := valid.literals_of_simplify_eq is same
      rcases reducible with all | ⟨rfl, condition, first, literal⟩
      · rcases exists_forall₂ fun operand member =>
            Option.isSome_iff_exists.mp (all operand member) with ⟨values, literals⟩
        cases notAll.symm.trans (mapM_eq_some_iff.mpr literals)
      · rcases valid.shared.exists_node_of_tree? is with ⟨operands, found, are⟩
        rcases valid.application found with ⟨sorts, sorted, rule⟩
        rcases valid.exists_chosen sorted rule are first literal with ⟨branch, chosen⟩
        cases (Tree.chosen?_of_simplify_eq same notAll).symm.trans chosen

theorem Valid.stays_of_within (valid : table.Valid) {part : Tree TermLabel}
    (inside : part.Within tree) (is : table.terms.tree? term = some tree)
    (same : tree.simplify = tree) :
    ∃ position, table.terms.tree? position = some part ∧ part.simplify = part := by
  induction inside generalizing term with
  | refl => exact ⟨term, is, same⟩
  | deeper member _ induction =>
      rcases valid.shared.exists_node_of_tree? is with ⟨operands, found, are⟩
      rcases exists_of_mem_right are member with ⟨operand, isOperand, here⟩
      rcases Stays.of_operand ⟨_, is, same⟩ valid found operand isOperand with
        ⟨other, isToo, sameToo⟩
      cases here.symm.trans isToo
      exact induction here sameToo

/-! ## Terms without variables -/

theorem Valid.operands_ground (valid : table.Valid)
    (found : table.terms.nodes[term]? = some ⟨⟨.apply operator, sort⟩, operands⟩)
    (ground : table.freeVariables term = []) :
    ∀ operand ∈ operands, table.freeVariables operand = [] := by
  rw [valid.freeVariables_eq found] at ground
  intro operand member
  exact List.flatten_eq_nil_iff.mp ground _ (List.mem_map_of_mem member)

/-- Without variables the assignment does not matter. -/
theorem Valid.value?_of_ground (valid : table.Valid) (inside : term < table.terms.size)
    (ground : table.freeVariables term = []) (assignment other : Assignment) :
    table.value? assignment term = table.value? other term := by
  induction term using Nat.strongRecOn with
  | ind term induction =>
      have found : table.terms.nodes[term]? = some table.terms.nodes[term] :=
        Array.getElem?_eq_getElem inside
      generalize table.terms.nodes[term] = node at found
      have below := valid.shared.child_lt found
      cases valid.node found with
      | named name sort =>
          rw [valid.freeVariables_eq found] at ground
          cases ground
      | literal label value spelled =>
          rw [valid.value?_eq found, valid.value?_eq found,
            TermLabel.value?_of_literal? assignment _ spelled,
            TermLabel.value?_of_literal? other _ spelled]
      | apply operator operands sorts sort =>
          have grounds := valid.operands_ground found ground
          rw [valid.value?_apply found, valid.value?_apply found,
            mapM_congr fun operand member => induction operand (below operand member)
              (Nat.lt_trans (below operand member) inside) (grounds operand member)]

theorem Valid.exists_literal_of_ground (valid : table.Valid) (stays : table.Stays term)
    (ground : table.freeVariables term = []) : ∃ value, table.literal? term = some value := by
  induction term using Nat.strongRecOn with
  | ind term induction =>
      rcases stays with ⟨tree, is, same⟩
      cases tree with
      | node label trees =>
          rcases valid.shared.exists_node_of_tree? is with ⟨operands, found, are⟩
          have operandsStay := Stays.of_operand ⟨_, is, same⟩ valid found
          have below := valid.shared.child_lt found
          cases valid.node found with
          | named name sort =>
              rw [valid.freeVariables_eq found] at ground
              cases ground
          | literal label value spelled =>
              refine ⟨value, ?_⟩
              rw [literal?, Dag.label?_eq found]
              exact spelled
          | apply operator operands sorts sort =>
              have grounds := valid.operands_ground found ground
              -- Evaluation would not have left an application of literals.
              refine absurd ⟨operator, rfl, .inl fun tree member => ?_⟩
                (valid.not_reducible is same)
              rcases exists_of_mem_right are member with ⟨operand, inside, isOperand⟩
              rcases induction operand (below operand inside) (operandsStay operand inside)
                (grounds operand inside) with ⟨value, literal⟩
              rw [← valid.literal?_tree isOperand, literal]
              rfl

/-! ## Nothing left to do -/

/-- Folding an application that stays as it is finds it in the table. -/
theorem Stays.fold_self (stays : table.Stays term) (valid : table.Valid)
    (found : table.terms.nodes[term]? = some ⟨⟨.apply operator, sort⟩, operands⟩) :
    fold operator operands sort table = .ok term table := by
  rcases stays with ⟨tree, is, same⟩
  cases tree with
  | node label trees =>
      rcases valid.shared.exists_node_of_tree? is with ⟨children, foundToo, are⟩
      cases found.symm.trans foundToo
      have notAll := valid.literals_of_simplify_eq is same
      have chosen := valid.rel_chosen? operator are
      rw [Tree.chosen?_of_simplify_eq same notAll] at chosen
      rw [fold_apply, valid.literals_trees are, notAll]
      generalize table.chosen? operator operands = choice at chosen ⊢
      cases chosen
      exact intern_of_nodes valid.shared found

/-- Simplification of a term that stays as it is changes nothing. -/
theorem Stays.simplify_self (stays : table.Stays term) (valid : table.Valid) :
    simplify term table = .ok term table := by
  have sound : table.terms.Sound table.Stays simplifyNode (· = table)
      (fun position result _ => result = position) fun _ _ => False := by
    refine ⟨fun operandStays found => operandStays.of_operand valid found, ?_⟩
    intro position node results state nodeStays found same operands
    have results_eq : results = node.children := by
      rw [← List.forall₂_eq_eq_eq]
      exact operands.flip
    subst same results_eq
    have unchanged : simplifyNode position node.label node.children state =
        .ok position state := by
      rcases node with ⟨⟨head, sort⟩, operands⟩
      cases head with
      | apply operator => exact nodeStays.fold_self valid found
      | _ => rfl
    rw [unchanged]
    exact ⟨rfl, rfl, fun _ _ => id⟩
  rcases stays with ⟨tree, is, same⟩
  have walked := sound.bottomUp valid.shared ⟨tree, is, same⟩ (valid.shared.lt_size_of_tree? is) rfl
  have ends : Action.Ends (fun result next => next = table ∧ result = term) (fun _ _ => False)
      (simplify term table) := ends_simplify walked
  cases simplified : simplify term table with
  | ok result next =>
      rw [simplified] at ends
      rcases ends with ⟨rfl, rfl⟩
      rfl
  | error error next =>
      rw [simplified] at ends
      exact ends.elim

/-! ## Expressions -/

/-- The simplified expression means the same and has the simplified tree. -/
theorem Valid.ends_simplify_expr {context : Context TermTable} {expr : Expr}
    (valid : context.engine.Valid) (own : expr.owner = context.id)
    (is : context.engine.terms.tree? expr.term = some tree) :
    Action.Ends
      (fun result next => (result.owner = next.id ∧ result.sort = expr.sort) ∧
        context.engine.Grows next.engine ∧ next.engine.SameMeaning expr.term result.term ∧
        next.engine.terms.tree? result.term = some tree.simplify)
      RunsFull (Context.simplify expr context) := by
  have found := Array.getElem?_eq_getElem (valid.shared.lt_size_of_tree? is)
  refine (Context.ends_simplify_iff own).mpr (Action.Ends.imp
    (valid.builds_simplified (sort?_eq_some_iff.mpr ⟨_, found, rfl⟩)) ?_
    fun _ _ ends => ⟨ends.1, ends.2.2⟩)
  rintro result next ⟨grows, same, other, isToo, becomes⟩
  cases is.symm.trans isToo
  exact ⟨⟨rfl, rfl⟩, grows, same, becomes⟩

theorem Stays.simplify_expr {context : Context TermTable} {expr : Expr}
    (stays : context.engine.Stays expr.term) (valid : context.engine.Valid)
    (own : expr.owner = context.id) : Context.simplify expr context = .ok expr context := by
  have answered : (Request.simplify expr).run expr.sort context.engine =
      .ok expr.term context.engine := stays.simplify_self valid
  have same : (⟨context.id, expr.sort, expr.term⟩ : Expr) = expr := by rw [← own]
  rw [Context.simplify_eq, if_pos own, Context.wrap_onEngine_apply, answered]
  exact congrArg (EStateM.Result.ok · context) same

/-- In every state that a session reaches, an expression is simplified to a normal form, unless the
table runs full: no part of its tree, at any depth, is an application of literals or a choice with a
known condition. Without variables it is a literal then, which holds the value of the expression and
is read as one. The tree is at most as large as that of the expression, and simplifying once more
gives the same expression and leaves the context as it is. -/
theorem simplification_is_normal (id : Nat) (folding : Bool) (calls : List Call) (expr : Expr)
    (own : expr.owner = id)
    (sorted : ((Session.start id ({ folding } : TermTable)).run calls).context.engine.sort?
      expr.term = some expr.sort) :
    let context := ((Session.start id ({ folding } : TermTable)).run calls).context
    Action.Ends
      (fun result next => ∃ tree simplified,
        context.engine.terms.tree? expr.term = some tree ∧
        next.engine.terms.tree? result.term = some simplified ∧
        (∀ part : Tree TermLabel, part.Within simplified → ¬ part.Reducible) ∧
        (context.engine.freeVariables expr.term = [] →
          next.IsConcrete result ∧ ∃ value, next.literal? result = some value ∧
            value.HasSort expr.sort ∧
            ∀ assignment, context.engine.value? assignment expr.term = some value) ∧
        simplified.size ≤ tree.size ∧
        Context.simplify result next = .ok result next)
      RunsFull (Context.simplify expr context) := by
  intro context
  have valid : context.engine.Valid := valid_run id folding calls
  have sameId : context.id = id := Session.id_run _ calls
  have inside : expr.term < context.engine.terms.size := lt_size_of_sort? sorted
  rcases valid.shared.exists_tree inside with ⟨tree, is⟩
  refine Action.Ends.imp (valid.ends_simplify_expr (own.trans sameId.symm) is) ?_
    fun _ _ full => full
  rintro result next ⟨⟨isOwn, sameSort⟩, grows, same, becomes⟩
  have stays : next.engine.Stays result.term := ⟨_, becomes, tree.simplify_simplify⟩
  refine ⟨tree, tree.simplify, is, becomes, fun part within => ?_, fun ground => ?_,
    tree.size_simplify_le, stays.simplify_expr grows.valid isOwn⟩
  · rcases grows.valid.stays_of_within within becomes tree.simplify_simplify with
      ⟨position, isPart, partStays⟩
    exact grows.valid.not_reducible isPart partStays
  · have groundResult : next.engine.freeVariables result.term = [] := by
      have names := same.names
      rw [grows.grown.freeVariables inside, ground] at names
      exact List.subset_nil.mp names
    rcases grows.valid.exists_literal_of_ground stays groundResult with ⟨value, literal⟩
    have hasSort : value.HasSort expr.sort :=
      grows.valid.literal_hasSort literal (same.sort_eq (grows.grown.sort? sorted))
    refine ⟨Context.isConcrete_of_literal literal (sameSort ▸ hasSort), value, literal, hasSort,
      fun assignment => ?_⟩
    rcases next.engine.exists_respects with ⟨respecting, respects⟩
    calc context.engine.value? assignment expr.term
        = context.engine.value? respecting expr.term :=
          valid.value?_of_ground inside ground assignment respecting
      _ = next.engine.value? respecting expr.term := (grows.grown.value? inside).symm
      _ = next.engine.value? respecting result.term := (same.value respecting respects).symm
      _ = some value := grows.valid.value?_literal literal

/-- The negation of a constant, term 1 of the session. -/
def notTrueCalls : List Call := [.boolLiteral true, .apply .not [.made 0]]

theorem nodes_notTrueCalls :
    ((Session.start 0 ({} : TermTable)).run notTrueCalls).context.engine.terms.nodes =
      #[⟨⟨.bool true, .bool⟩, []⟩, ⟨⟨.apply .not, .bool⟩, [0]⟩] := by
  have typed : Operator.not.resultSort [.bool] = .ok .bool := rfl
  simp [notTrueCalls, Session.run, Session.start, Session.call_eq, Call.plan, Session.follow,
    Ending.follow, Request.run, Engine.boolLiteral, Engine.apply, boolLiteral, intern_apply,
    hasRoom, wordLimit, Dag.size, Dag.intern, apply, Action.bind_apply, Action.get_apply,
    Session.expr?, typed]

theorem simplification_is_normal_negation :
    let context := ((Session.start 0 ({} : TermTable)).run notTrueCalls).context
    context.engine.sort? 1 = some .bool ∧ context.engine.freeVariables 1 = [] ∧
      ∃ result next, Context.simplify ⟨0, .bool, 1⟩ context = .ok result next ∧
        next.IsConcrete result ∧ next.literal? result = some (.bool false) ∧
        Context.simplify result next = .ok result next := by
  intro context
  have valid : context.engine.Valid := valid_run 0 false notTrueCalls
  have leaf : context.engine.terms.nodes[0]? = some ⟨⟨.bool true, .bool⟩, []⟩ := by
    rw [nodes_notTrueCalls]
    rfl
  have found : context.engine.terms.nodes[1]? = some ⟨⟨.apply .not, .bool⟩, [0]⟩ := by
    rw [nodes_notTrueCalls]
    rfl
  have sorted : context.engine.sort? 1 = some .bool := sort?_eq_some_iff.mpr ⟨_, found, rfl⟩
  have ground : context.engine.freeVariables 1 = [] := by
    rw [valid.freeVariables_eq found, List.map_singleton, valid.freeVariables_eq leaf]
    rfl
  have valued : context.engine.value? (fun _ => default) 1 = some (.bool false) := by
    rw [valid.value?_eq found, List.map_singleton, valid.value?_eq leaf]
    rfl
  have room : 2 * context.engine.terms.size < wordLimit := by
    rw [Dag.size, nodes_notTrueCalls]
    decide
  rcases exists_simplify_run 0 false notTrueCalls ⟨0, .bool, 1⟩ rfl
    (lt_size_of_sort? sorted) room with ⟨result, next, done⟩
  rcases Action.Ends.of_ok
    (simplification_is_normal 0 false notTrueCalls ⟨0, .bool, 1⟩ rfl sorted) done with
    ⟨tree, simplified, -, -, -, concrete, -, again⟩
  rcases concrete ground with ⟨isConcrete, value, literal, -, values⟩
  cases (values _).symm.trans valued
  exact ⟨sorted, ground, result, next, done, isConcrete, literal, again⟩

end TermTable

end BitTerms
