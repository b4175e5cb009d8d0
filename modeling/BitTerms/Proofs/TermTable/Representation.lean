import BitTerms.Proofs.Dag.Text
import BitTerms.Proofs.Dag.Trees
import BitTerms.Proofs.Session.Widths
import BitTerms.Proofs.TermTable.Requests

/-!
# How a table represents its terms

In every state that a session reaches, terms are equal exactly when they are the same tree, every
term obeys the typing rules, and every variable has one sort and one term, unless the table filled
up before it got one. A session never takes
back a term: whatever is done later, the term has its old node, so its old text and value.
-/

namespace BitTerms.TermTable

variable {table base old new : TermTable}

/-! ## Single states -/

/-- What holds of a table in itself. -/
structure Represents (table : TermTable) : Prop where
  /-- Nodes and index are inverse to each other. -/
  index_iff : ∀ (node : Dag.Node TermLabel) (term : Nat),
    table.terms.index[node]? = some term ↔ table.terms.nodes[term]? = some node
  node_eq_iff : ∀ {left right : Nat}, left < table.terms.size →
    (table.terms.nodes[left]? = table.terms.nodes[right]? ↔ left = right)
  exists_tree : ∀ {term : Nat}, term < table.terms.size →
    ∃ tree, table.terms.tree? term = some tree
  tree_eq_iff : ∀ {left right : Nat}, left < table.terms.size →
    (table.terms.tree? left = table.terms.tree? right ↔ left = right)
  operand_lt : ∀ {term : Nat} {node : Dag.Node TermLabel},
    table.terms.nodes[term]? = some node → ∀ operand ∈ node.children, operand < term
  application : ∀ {term : Nat} {operator : Operator} {sort : SmtSort} {operands : List Nat},
    table.terms.nodes[term]? = some ⟨⟨.apply operator, sort⟩, operands⟩ →
      ∃ sorts, table.HasSorts operands sorts ∧ operator.resultSort sorts = .ok sort
  bits : ∀ {term pattern : Nat} {sort : SmtSort} {operands : List Nat},
    table.terms.nodes[term]? = some ⟨⟨.bits pattern, sort⟩, operands⟩ →
      operands = [] ∧ ∃ width, sort = .bits width ∧ pattern < 2 ^ width.bits
  bool : ∀ {term : Nat} {value : Bool} {sort : SmtSort} {operands : List Nat},
    table.terms.nodes[term]? = some ⟨⟨.bool value, sort⟩, operands⟩ → operands = [] ∧ sort = .bool
  int : ∀ {term : Nat} {value : Int} {sort : SmtSort} {operands : List Nat},
    table.terms.nodes[term]? = some ⟨⟨.int value, sort⟩, operands⟩ → operands = [] ∧ sort = .int
  /-- Positions are machine words. -/
  word : ∀ {term : Nat}, term < table.terms.size → term < wordLimit
  declared : ∀ {term : Nat} {name : String} {sort : SmtSort} {operands : List Nat},
    table.terms.nodes[term]? = some ⟨⟨.variable name, sort⟩, operands⟩ →
      table.sorts[name]? = some sort
  /-- Only a full table has no term for a recorded variable: it is recorded before it gets one. -/
  named : ∀ {name : String} {sort : SmtSort}, table.sorts[name]? = some sort →
    (∃ (term : Nat) (operands : List Nat),
      table.terms.nodes[term]? = some ⟨⟨.variable name, sort⟩, operands⟩) ∨ table.IsFull
  variable_unique : ∀ {left right : Nat} {name : String} {sort other : SmtSort}
    {operands others : List Nat},
    table.terms.nodes[left]? = some ⟨⟨.variable name, sort⟩, operands⟩ →
      table.terms.nodes[right]? = some ⟨⟨.variable name, other⟩, others⟩ →
        sort = other ∧ left = right

theorem Valid.node_eq_iff (valid : table.Valid) {left right : Nat}
    (inside : left < table.terms.size) :
    table.terms.nodes[left]? = table.terms.nodes[right]? ↔ left = right := by
  refine ⟨fun same => ?_, fun same => same ▸ rfl⟩
  have found : table.terms.nodes[left]? = some table.terms.nodes[left] :=
    Array.getElem?_eq_getElem inside
  exact valid.shared.position_eq found (same ▸ found)

theorem Valid.literal (valid : table.Valid) {term : Nat} {label : TermLabel}
    {operands : List Nat} (found : table.terms.nodes[term]? = some ⟨label, operands⟩)
    (notVariable : ∀ name, label.head ≠ .variable name)
    (notApplied : ∀ operator, label.head ≠ .apply operator) :
    operands = [] ∧ ∃ value, label.literal? = some value ∧ value.HasSort label.sort := by
  cases valid.node found with
  | named name sort => exact absurd rfl (notVariable name)
  | literal label value spelled hasSort => exact ⟨rfl, value, spelled, hasSort⟩
  | apply operator => exact absurd rfl (notApplied operator)

theorem Valid.variable (valid : table.Valid) {term : Nat} {name : String} {sort : SmtSort}
    {operands : List Nat}
    (found : table.terms.nodes[term]? = some ⟨⟨.variable name, sort⟩, operands⟩) :
    operands = [] ∧ table.sorts[name]? = some sort := by
  cases valid.node found with
  | named name sort declared => exact ⟨rfl, declared⟩
  | literal label value spelled => cases spelled

theorem Reached.represents (reached : Reached base table) : table.Represents where
  index_iff := reached.valid.shared.index_iff
  node_eq_iff := reached.valid.node_eq_iff
  exists_tree := reached.valid.shared.exists_tree
  tree_eq_iff := reached.valid.shared.tree?_eq_iff
  operand_lt := reached.valid.shared.child_lt
  application found := by
    rcases reached.valid.application found with ⟨sorts, sorted, rule⟩
    exact ⟨sorts, sorted, Operator.resultSort_eq_ok_iff.mpr rule⟩
  bits := by
    intro term pattern sort operands found
    rcases reached.valid.literal found (by simp) (by simp) with ⟨none, value, spelled, hasSort⟩
    cases sort with
    | bits width =>
        cases spelled
        exact ⟨none, width, rfl, hasSort.2⟩
    | bool | int => cases spelled
  bool := by
    intro term value sort operands found
    rcases reached.valid.literal found (by simp) (by simp) with ⟨none, value, spelled, hasSort⟩
    cases spelled
    cases sort with
    | bool => exact ⟨none, rfl⟩
    | bits | int => exact hasSort.elim
  int := by
    intro term value sort operands found
    rcases reached.valid.literal found (by simp) (by simp) with ⟨none, value, spelled, hasSort⟩
    cases spelled
    cases sort with
    | int => exact ⟨none, rfl⟩
    | bits | bool => exact hasSort.elim
  word inside := Nat.lt_of_lt_of_le inside reached.valid.bounded
  declared found := (reached.valid.variable found).2
  named declared := (reached.named declared).imp_left fun ⟨term, found⟩ => ⟨term, [], found⟩
  variable_unique := by
    intro left right name sort other operands others found foundToo
    rcases reached.valid.variable found with ⟨rfl, declared⟩
    rcases reached.valid.variable foundToo with ⟨rfl, declaredToo⟩
    cases declared.symm.trans declaredToo
    have inside := Dag.lt_size_of_nodes found
    exact ⟨rfl, (reached.valid.node_eq_iff inside).mp (found.trans foundToo.symm)⟩

/-! ## Later states -/

/-- The new table has all nodes of the old one at their places, and its other nodes behind them.
Every old term keeps its sort, its text and its value. -/
structure Appends (old new : TermTable) : Prop where
  nodes : old.terms.nodes.toList <+: new.terms.nodes.toList
  sort : ∀ {term : Nat}, term < old.terms.size → new.sort? term = old.sort? term
  text : ∀ {term : Nat}, term < old.terms.size → new.text term = old.text term
  literal : ∀ {term : Nat}, term < old.terms.size → new.literal? term = old.literal? term

theorem Extends.appends (grown : old.Extends new) : old.Appends new := by
  have labels {term : Nat} (inside : term < old.terms.size) :
      new.terms.label? term = old.terms.label? term := by
    have found : old.terms.nodes[term]? = some old.terms.nodes[term] :=
      Array.getElem?_eq_getElem inside
    rw [Dag.label?_eq found, Dag.label?_eq (grown.terms.nodes found)]
  refine ⟨?_, fun inside => ?_, fun inside => ?_, fun inside => ?_⟩
  · rw [List.prefix_iff_getElem?]
    intro term inside
    have found : old.terms.nodes[term]? = some old.terms.nodes[term] :=
      Array.getElem?_eq_getElem (by simpa using inside)
    simpa using grown.terms.nodes found
  · exact congrArg (Option.map TermLabel.sort) (labels inside)
  · exact grown.terms.text_eq _ inside
  · exact congrArg (Option.bind · TermLabel.literal?) (labels inside)

/-! ## Sessions -/

/-- In every state of a session over a term table, and for whatever is done later: terms are the
nodes of the table one to one, and so the trees below them; operands stand before the term; each
node obeys the typing rules; each variable has one sort, and one term if the table is not full; an
expression has its term's sort, whose width is registered; and the terms there are stay as they
are. -/
theorem representation (id : Nat) (folding : Bool) (calls more : List Call) :
    let session := (Session.start id ({ folding } : TermTable)).run calls
    let table := session.context.engine
    table.Represents ∧
      (∀ expr, .made expr ∈ session.outcomes → table.sort? expr.term = some expr.sort ∧
        ∀ width, expr.sort = .bits width → width.bits ∈ session.context.widthList) ∧
      table.Appends (session.run more).context.engine := by
  intro session table
  have holds := holds_run id folding calls
  have registers := Session.registers_run id ({ folding } : TermTable) calls
  refine ⟨holds.engine.represents, fun expr made => ⟨holds.exprs expr made, ?_⟩, ?_⟩
  · intro width sort
    exact Std.TreeSet.mem_toList.mpr (registers expr made width sort)
  · exact (holds.later more).engine.grown.appends

end BitTerms.TermTable
