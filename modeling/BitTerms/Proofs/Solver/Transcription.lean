import BitTerms.Proofs.Solver.Expansions
import BitTerms.Proofs.Solver.Leaves
import BitTerms.Proofs.Solver.Scopes
import BitTerms.Proofs.TermTable.Representation

/-!
# Terms as s-expressions

The s-expression that a term of a table is written as. It has the text of the term, and as long as
every operator in a table has a name of its own and no variable is named like a truth value, it is
that of no other term.
-/

namespace BitTerms

/-! ## Operators -/

theorem intercalate_cons (separator first : String) (rest : List String) :
    separator.intercalate (first :: rest) =
      first ++ String.join (rest.map (separator ++ ·)) := by
  induction rest generalizing first with
  | nil => simp
  | cons second rest induction =>
      rw [String.intercalate_cons_cons, induction]
      simp [String.append_assoc]

namespace Operator

variable {operator left right : Operator}

/-- The operator as it stands in front of its operands. -/
def expr (operator : Operator) : SExpr :=
  match operator.indices with
  | [] => .symbol operator.name
  | indices =>
    .list (.symbol "_" :: .symbol operator.name :: indices.map fun index =>
      .symbol (toString index))

theorem text_expr (operator : Operator) : operator.expr.text = operator.text := by
  unfold expr text
  cases operator.indices with
  | nil => rfl
  | cons first rest =>
      refine String.toList_inj.mp ?_
      simp [SExpr.text, SExpr.texts_eq, intercalate_cons, Function.comp_def]

theorem IsNative.function?_expr (native : operator.IsNative) :
    operator.expr.function? = some (.native operator) := by
  have named := native.named
  unfold expr
  generalize operator.indices = indices at named ⊢
  cases indices with
  | nil => exact named
  | cons first rest =>
      simp only [SExpr.function?, Draft.mapM_index?]
      exact named

/-- Operators with names of their own are written differently. -/
theorem IsNative.eq_of_expr (native : left.IsNative) (nativeToo : right.IsNative)
    (same : left.expr = right.expr) : left = right := by
  have function := native.function?_expr
  rw [same, nativeToo.function?_expr] at function
  cases function
  rfl

end Operator

theorem Draft.expand_native (terms : Dag SExpr.Label) (operator : Operator)
    (operands : List Draft) :
    (native operator operands).expand terms =
      .list (operator.expr :: operands.map (expand terms)) := by
  unfold native Operator.expr
  cases operator.indices with
  | nil => simp only [call, expand, expandAll, expandAll_eq]
  | cons first rest =>
      simp only [callIndexed, expand, expandAll, expandAll_eq, List.map_map, Function.comp_def]

/-! ## Terms -/

namespace TermLabel

/-- The s-expression of a term from those of its operands. -/
def expr (label : TermLabel) (operands : List SExpr) : SExpr :=
  match label.head with
  | .apply operator => .list (operator.expr :: operands)
  | .int value =>
    if value < 0 then
      .list [.symbol "-", .symbol (toString value.natAbs)]
    else
      .symbol (toString value.natAbs)
  | .variable _ | .bits _ | .bool _ => .symbol (label.spelling.write [])

theorem text_expr (label : TermLabel) (operands : List SExpr) :
    (label.expr operands).text = label.spelling.write (operands.map SExpr.text) := by
  rcases label with ⟨head, sort⟩
  cases head with
  | apply operator =>
      simp [expr, spelling, Spelling.write, SExpr.text, SExpr.texts_eq, operator.text_expr]
  | int value =>
      simp only [expr, spelling, Spelling.write, Numeral.intText]
      split
      · refine String.toList_inj.mp ?_
        simp [SExpr.text, SExpr.texts_eq]
      · rfl
  | _ => rfl

theorem eq_of_literal? {left right : TermLabel} {value : Value}
    (onLeft : left.literal? = some value) (onRight : right.literal? = some value)
    (leftSort : value.HasSort left.sort) (rightSort : value.HasSort right.sort) : left = right := by
  rcases left with ⟨leftHead, sort⟩
  rcases right with ⟨rightHead, other⟩
  cases leftSort.unique rightSort
  cases sort <;> cases leftHead <;> cases onLeft <;> cases rightHead <;> cases onRight <;> rfl

/-- An operator has a name of its own, and a leaf is one symbol. -/
def IsPlain (label : TermLabel) : Prop :=
  match label.head with
  | .apply operator => operator.IsNative
  | .int _ => False
  | .variable _ | .bits _ | .bool _ => True

end TermLabel

namespace TermTable

/-- The s-expression that a term is written as. -/
def expr (table : TermTable) (term : Nat) : SExpr := table.terms.fold TermLabel.expr term

variable {table next : TermTable} {term left right : Nat}

theorem text_expr (shared : table.terms.WellFormed) (inside : term < table.terms.size) :
    (table.expr term).text = table.text term := by
  rw [text, Dag.text_eq]
  exact shared.map_fold TermLabel.text_expr inside

theorem expr_eq (shared : table.terms.WellFormed) {node : Dag.Node TermLabel}
    (found : table.terms.nodes[term]? = some node) :
    table.expr term = node.label.expr (node.children.map table.expr) :=
  shared.fold_eq TermLabel.expr found

theorem Extends.expr (grown : table.Extends next) (inside : term < table.terms.size) :
    next.expr term = table.expr term :=
  grown.terms.fold_eq TermLabel.expr term inside

/-! ## Telling terms apart -/

/-- Every term of the table can be told from its s-expression. -/
structure Readable (table : TermTable) : Prop where
  valid : table.Valid
  plain : ∀ {term : Nat} {node : Dag.Node TermLabel},
    table.terms.nodes[term]? = some node → node.label.IsPlain
  named : ∀ {name : String} {sort : SmtSort},
    table.sorts[name]? = some sort → name ≠ "true" ∧ name ≠ "false"

/-- A leaf is one symbol, which is read as what the leaf stands for. -/
theorem Readable.leaf (readable : table.Readable) {label : TermLabel} {operands : List Nat}
    (found : table.terms.nodes[term]? = some ⟨label, operands⟩)
    (notApplied : ∀ operator, label.head ≠ .apply operator) :
    operands = [] ∧ ∃ word, label.expr [] = .symbol word ∧
      SExpr.symbolLiteral? word = label.literal? := by
  have plain := readable.plain found
  rcases label with ⟨head, sort⟩
  cases head with
  | «variable» name =>
      rcases readable.valid.variable found with ⟨none, declared⟩
      rcases readable.named declared with ⟨notTrue, notFalse⟩
      exact ⟨none, _, rfl, TermLabel.legible_variable notTrue notFalse sort _ rfl⟩
  | bits pattern =>
      rcases readable.valid.literal found (by simp) (by simp) with ⟨none, value, spelled, hasSort⟩
      cases sort with
      | bits width =>
          cases spelled
          exact ⟨none, _, rfl, TermLabel.legible_bits hasSort.2 _ rfl⟩
      | bool | int => cases spelled
  | bool truth =>
      rcases readable.valid.literal found (by simp) (by simp) with ⟨none, -⟩
      exact ⟨none, _, rfl, TermLabel.legible_bool truth sort _ rfl⟩
  | int value => exact plain.elim
  | apply operator => exact absurd rfl (notApplied operator)

theorem Valid.sort_eq_of_apply (valid : table.Valid) {operator : Operator} {operands : List Nat}
    {sort other : SmtSort}
    (found : table.terms.nodes[left]? = some ⟨⟨.apply operator, sort⟩, operands⟩)
    (foundToo : table.terms.nodes[right]? = some ⟨⟨.apply operator, other⟩, operands⟩) :
    sort = other := by
  rcases valid.application found with ⟨sorts, sorted, rule⟩
  rcases valid.application foundToo with ⟨sortsToo, sortedToo, ruleToo⟩
  cases (mapM_eq_some_iff.mpr sorted).symm.trans (mapM_eq_some_iff.mpr sortedToo)
  rw [← Operator.resultSort_eq_ok_iff] at rule ruleToo
  exact Except.ok.inj (rule.symm.trans ruleToo)

end TermTable

end BitTerms
