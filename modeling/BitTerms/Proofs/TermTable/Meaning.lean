import BitTerms.Proofs.Dag.Sharing
import BitTerms.Proofs.Operator.Soundness
import BitTerms.Proofs.Pointwise
import BitTerms.TermTable

/-!
# What terms mean

A term has a value once its variables have one: `TermTable.value?` computes it from the bottom
up, each application with `Operator.evaluate`. In a valid table, where every application obeys
the typing rules, each term has a value of its own sort under every assignment that respects the
sorts of the variables. Meaning and variables of a term stay what they are while the table grows.
-/

namespace BitTerms

namespace TermLabel

def value? (assignment : Assignment) (label : TermLabel) (operands : List (Option Value)) :
    Option Value :=
  match label.head with
  | .variable name => some (assignment name)
  | .apply operator => do (operator.evaluate (← operands.mapM id)).toOption
  | .bits _ | .bool _ | .int _ => label.literal?

def freeVariables (label : TermLabel) (operands : List (List String)) : List String :=
  match label.head with
  | .variable name => [name]
  | _ => operands.flatten

theorem value?_of_literal? {label : TermLabel} {value : Value} (assignment : Assignment)
    (operands : List (Option Value)) (literal : label.literal? = some value) :
    label.value? assignment operands = some value := by
  unfold literal? at literal
  unfold value? literal?
  split at literal <;> simp_all

theorem freeVariables_of_literal? {label : TermLabel} {value : Value}
    (literal : label.literal? = some value) : label.freeVariables [] = [] := by
  unfold literal? at literal
  unfold freeVariables
  split at literal <;> simp_all

theorem value?_apply {α : Type} (assignment : Assignment) (operator : Operator) (sort : SmtSort)
    (operands : List α) (operandValue? : α → Option Value) :
    value? assignment ⟨.apply operator, sort⟩ (operands.map operandValue?) =
      (operands.mapM operandValue?).bind fun values => (operator.evaluate values).toOption := by
  simp only [value?, List.mapM_map]
  rfl

theorem exists_ofValue {value : Value} {sort : SmtSort} (sorted : value.HasSort sort) :
    ∃ label, ofValue value = .ok label ∧ label.sort = sort ∧ label.literal? = some value := by
  cases sort with
  | bool =>
      rcases Value.hasSort_bool_iff.mp sorted with ⟨truth, rfl⟩
      exact ⟨_, rfl, rfl, rfl⟩
  | int =>
      rcases Value.hasSort_int_iff.mp sorted with ⟨number, rfl⟩
      exact ⟨_, rfl, rfl, rfl⟩
  | bits width =>
      rcases Value.hasSort_bits_iff.mp sorted with ⟨pattern, rfl, -⟩
      refine ⟨⟨.bits pattern, .bits width⟩, ?_, rfl, rfl⟩
      simp only [ofValue, Width.ofNat, Width.ofNat?_bits]
      rfl

end TermLabel

namespace TermTable

def value? (table : TermTable) (assignment : Assignment) (term : Nat) : Option Value :=
  table.terms.fold (TermLabel.value? assignment) term

def freeVariables (table : TermTable) (term : Nat) : List String :=
  table.terms.fold TermLabel.freeVariables term

/-- The assignment gives every declared variable a value of its sort. -/
def Respects (table : TermTable) (assignment : Assignment) : Prop :=
  ∀ name sort, table.sorts[name]? = some sort → (assignment name).HasSort sort

/-! ## Valid tables -/

abbrev HasSorts (table : TermTable) : List Nat → List SmtSort → Prop :=
  List.Forall₂ fun operand sort => table.sort? operand = some sort

/-- A node obeys the typing rules: a variable has its declared sort, a literal spells a value of
its sort, and an application has the sort that the sorts of its operands give. -/
inductive NodeValid (table : TermTable) : Dag.Node TermLabel → Prop
  | named (name : String) (sort : SmtSort)
      (declared : table.sorts[name]? = some sort) :
      NodeValid table ⟨⟨.variable name, sort⟩, []⟩
  | literal (label : TermLabel) (value : Value) (spelled : label.literal? = some value)
      (sorted : value.HasSort label.sort) : NodeValid table ⟨label, []⟩
  | apply (operator : Operator) (operands : List Nat) (sorts : List SmtSort) (sort : SmtSort)
      (sorted : table.HasSorts operands sorts) (rule : operator.Types sorts sort) :
      NodeValid table ⟨⟨.apply operator, sort⟩, operands⟩

/-- Equal terms are shared, positions fit into machine words, and every term obeys the typing
rules. -/
structure Valid (table : TermTable) : Prop where
  shared : table.terms.WellFormed
  bounded : table.terms.size ≤ wordLimit
  node : ∀ {position : Nat} {node : Dag.Node TermLabel},
    table.terms.nodes[position]? = some node → table.NodeValid node

/-- Terms and variables of the old table are in the new one, and nothing else has changed. -/
structure Extends (old new : TermTable) : Prop where
  terms : old.terms.Extends new.terms
  declared : ∀ {name : String} {sort : SmtSort},
    old.sorts[name]? = some sort → new.sorts[name]? = some sort
  folding : new.folding = old.folding

theorem Extends.refl (table : TermTable) : Extends table table :=
  ⟨Dag.Extends.refl _, id, rfl⟩

theorem Extends.trans {old middle new : TermTable} (first : Extends old middle)
    (second : Extends middle new) : Extends old new :=
  ⟨first.terms.trans second.terms, second.declared ∘ first.declared,
    second.folding.trans first.folding⟩

theorem valid_empty (folding : Bool) : Valid { folding } where
  shared := Dag.wellFormed_empty
  bounded := Nat.zero_le _
  node := by simp

section

variable {table old new : TermTable} {assignment : Assignment} {term : Nat} {sort : SmtSort}

theorem sort?_eq_some_iff :
    table.sort? term = some sort ↔
      ∃ node, table.terms.nodes[term]? = some node ∧ node.label.sort = sort := by
  simp [sort?, Dag.label?]

theorem lt_size_of_sort? (sorted : table.sort? term = some sort) : term < table.terms.size := by
  rcases sort?_eq_some_iff.mp sorted with ⟨node, found, -⟩
  exact Dag.lt_size_of_nodes found

/-! ## Growing tables -/

theorem Extends.sort? (grown : Extends old new) (sorted : old.sort? term = some sort) :
    new.sort? term = some sort := by
  rcases sort?_eq_some_iff.mp sorted with ⟨node, found, same⟩
  exact sort?_eq_some_iff.mpr ⟨node, grown.terms.nodes found, same⟩

theorem Extends.literal? (grown : Extends old new) {value : Value}
    (literal : old.literal? term = some value) : new.literal? term = some value := by
  rcases Option.bind_eq_some_iff.mp literal with ⟨label, labelled, spelled⟩
  rcases Option.map_eq_some_iff.mp labelled with ⟨node, found, rfl⟩
  simp [TermTable.literal?, Dag.label?, grown.terms.nodes found, spelled]

theorem Extends.hasSorts (grown : Extends old new) {operands : List Nat} {sorts : List SmtSort}
    (sorted : old.HasSorts operands sorts) : new.HasSorts operands sorts :=
  sorted.imp fun _ _ => grown.sort?

theorem Extends.value? (grown : Extends old new) (inside : term < old.terms.size) :
    new.value? assignment term = old.value? assignment term :=
  grown.terms.fold_eq _ term inside

theorem Extends.freeVariables (grown : Extends old new) (inside : term < old.terms.size) :
    new.freeVariables term = old.freeVariables term :=
  grown.terms.fold_eq _ term inside

theorem Extends.respects (grown : Extends old new) (respects : new.Respects assignment) :
    old.Respects assignment := fun name sort declared =>
  respects name sort (grown.declared declared)

theorem NodeValid.mono (grown : Extends old new) {node : Dag.Node TermLabel}
    (valid : old.NodeValid node) : new.NodeValid node := by
  cases valid with
  | named name sort declared => exact .named name sort (grown.declared declared)
  | literal label value spelled sorted => exact .literal label value spelled sorted
  | apply operator operands sorts sort sorted rule =>
      exact .apply operator operands sorts sort (grown.hasSorts sorted) rule

/-! ## Values -/

theorem Valid.value?_eq (valid : table.Valid) {node : Dag.Node TermLabel}
    (found : table.terms.nodes[term]? = some node) :
    table.value? assignment term =
      node.label.value? assignment (node.children.map (table.value? assignment)) :=
  valid.shared.fold_eq _ found

theorem Valid.freeVariables_eq (valid : table.Valid) {node : Dag.Node TermLabel}
    (found : table.terms.nodes[term]? = some node) :
    table.freeVariables term =
      node.label.freeVariables (node.children.map table.freeVariables) :=
  valid.shared.fold_eq _ found

theorem Valid.value?_apply (valid : table.Valid) {operator : Operator} {operands : List Nat}
    (found : table.terms.nodes[term]? = some ⟨⟨.apply operator, sort⟩, operands⟩) :
    table.value? assignment term =
      (operands.mapM (table.value? assignment)).bind fun values =>
        (operator.evaluate values).toOption := by
  rw [valid.value?_eq found, TermLabel.value?_apply]

theorem Valid.value?_literal (valid : table.Valid) {value : Value}
    (literal : table.literal? term = some value) :
    table.value? assignment term = some value := by
  rcases Option.bind_eq_some_iff.mp literal with ⟨label, labelled, spelled⟩
  rcases Option.map_eq_some_iff.mp labelled with ⟨node, found, rfl⟩
  rw [valid.value?_eq found]
  exact TermLabel.value?_of_literal? assignment _ spelled

theorem exists_respects (table : TermTable) : ∃ assignment, table.Respects assignment := by
  have each (name : String) :
      ∃ value : Value, ∀ sort, table.sorts[name]? = some sort → value.HasSort sort := by
    cases found : table.sorts[name]? with
    | none => exact ⟨default, by simp⟩
    | some sort =>
        rcases Value.exists_hasSort sort with ⟨value, hasSort⟩
        exact ⟨value, fun other same => Option.some.inj same ▸ hasSort⟩
  choose assignment respects using each
  exact ⟨assignment, respects⟩

/-- In a valid table every term has a value of its sort. -/
theorem Valid.exists_value (valid : table.Valid) (respects : table.Respects assignment)
    (sorted : table.sort? term = some sort) :
    ∃ value, table.value? assignment term = some value ∧ value.HasSort sort := by
  induction term using Nat.strongRecOn generalizing sort with
  | ind term induction =>
      rcases sort?_eq_some_iff.mp sorted with ⟨node, found, rfl⟩
      cases valid.node found with
      | named name sort declared =>
          exact ⟨assignment name, valid.value?_eq found, respects name sort declared⟩
      | literal label value spelled hasSort =>
          refine ⟨value, ?_, hasSort⟩
          rw [valid.value?_eq found]
          exact TermLabel.value?_of_literal? assignment _ spelled
      | apply operator operands sorts sort operandSorts rule =>
          obtain ⟨values, valued, haveSorts⟩ := exists_between _ _ operandSorts
            fun operand member sort has =>
              induction operand (valid.shared.child_lt found operand member) has
          rcases rule.evaluate_hasSort haveSorts with ⟨value, evaluated, hasSort⟩
          refine ⟨value, ?_, hasSort⟩
          rw [valid.value?_apply found, mapM_eq_some_iff.mpr valued]
          simp [evaluated, Except.toOption]

end

end TermTable

end BitTerms
