import BitTerms.Proofs.Shape
import BitTerms.Proofs.TermTable.Representation

/-!
# Texts determine terms

In every state that a session reaches without a variable named like a truth value, the text that is
written piece by piece is the recursive text of what the term is, and is read as just that. So two
terms with the same text are one term.
-/

namespace BitTerms

/-! ## The shape of a term -/

/-- What a text says about a term, from what it says about the operands. -/
def TermLabel.shape (label : TermLabel) (operands : List Shape) : Shape :=
  match label.head with
  | .variable name => .variable name
  | .bits pattern => .literal (.bits ((label.sort.width?.map Width.bits).getD 1) pattern)
  | .bool value => .literal (.bool value)
  | .int value => .literal (.int value)
  | .apply operator => .apply operator operands

theorem TermLabel.text_shape (label : TermLabel) (operands : List Shape) :
    (label.shape operands).text = label.spelling.write (operands.map Shape.text) := by
  rcases label with ⟨head, sort⟩
  cases head with
  | apply operator => simp [shape, spelling, Spelling.write, Shape.text, Shape.texts_eq]
  | _ => rfl

theorem TermLabel.shape_of_literal? {label : TermLabel} {value : Value}
    (spelled : label.literal? = some value) (operands : List Shape) :
    label.shape operands = .literal value := by
  rcases label with ⟨head, sort⟩
  cases head with
  | «variable» name | apply operator => cases spelled
  | bool truth | int number =>
      cases spelled
      rfl
  | bits pattern =>
      cases sort with
      | bits width =>
          cases spelled
          rfl
      | bool | int => cases spelled

namespace TermTable

variable {table next : TermTable} {term left right : Nat} {sort : SmtSort}

def shape (table : TermTable) (term : Nat) : Shape := table.terms.fold TermLabel.shape term

theorem Valid.shape_eq (valid : table.Valid) {node : Dag.Node TermLabel}
    (found : table.terms.nodes[term]? = some node) :
    table.shape term = node.label.shape (node.children.map table.shape) :=
  valid.shared.fold_eq TermLabel.shape found

theorem Valid.text_eq (valid : table.Valid) (inside : term < table.terms.size) :
    table.text term = (table.shape term).text := by
  rw [text, Dag.text_eq]
  exact (valid.shared.map_fold TermLabel.text_shape inside).symm

/-- Different terms have different shapes. -/
theorem Valid.shape_injective (valid : table.Valid) (insideLeft : left < table.terms.size)
    (insideRight : right < table.terms.size) (same : table.shape left = table.shape right) :
    left = right := by
  refine valid.shared.fold_injective (fun {left right leftNode rightNode} found foundToo same => ?_)
    insideLeft insideRight same
  have shapes : table.shape left = table.shape right := same
  rw [valid.shape_eq found, valid.shape_eq foundToo] at shapes
  cases valid.node found with
  | named name sort declared =>
      cases valid.node foundToo with
      | named other sort declaredToo =>
          cases shapes
          cases declared.symm.trans declaredToo
          exact ⟨rfl, fun _ => rfl⟩
      | literal label value spelled =>
          rw [TermLabel.shape_of_literal? spelled] at shapes
          cases shapes
      | apply operator => cases shapes
  | literal label value spelled hasSort =>
      rw [TermLabel.shape_of_literal? spelled] at shapes
      cases valid.node foundToo with
      | named other sort => cases shapes
      | literal other value spelledToo hasSortToo =>
          rw [TermLabel.shape_of_literal? spelledToo] at shapes
          cases shapes
          exact ⟨rfl, fun _ => TermLabel.eq_of_literal? spelled spelledToo hasSort hasSortToo⟩
      | apply operator => cases shapes
  | apply operator operands sorts sort =>
      cases valid.node foundToo with
      | named other sort => cases shapes
      | literal label value spelled =>
          rw [TermLabel.shape_of_literal? spelled] at shapes
          cases shapes
      | apply other others sorts sortToo =>
          rcases Shape.apply.inj shapes with ⟨rfl, operandShapes⟩
          refine ⟨operandShapes, fun sameOperands => ?_⟩
          cases sameOperands
          cases valid.sort_eq_of_apply found foundToo
          rfl

/-! ## Names -/

/-- The names of all variables can be written. -/
def Spellable (table : TermTable) : Prop :=
  ∀ {name : String} {sort : SmtSort}, table.sorts[name]? = some sort →
    Symbol.isSpellable name = true

/-- A name that cannot be written is recorded nowhere. -/
theorem Spellable.answered {request : Request} (spellable : table.Spellable)
    (answered : Answered request sort table next)
    (declares : ∀ name, request = .declare name → Symbol.isSpellable name = false → next = table) :
    next.Spellable := by
  intro name other recorded
  rcases answered.recorded recorded with old | ⟨asked, -⟩
  · exact spellable old
  · cases written : Symbol.isSpellable name with
    | true => rfl
    | false =>
        rw [declares name asked written] at recorded
        exact written.symm.trans (spellable recorded)

/-- No variable is named like a truth value. -/
def NoTruthNames (table : TermTable) : Prop :=
  table.sorts["true"]? = none ∧ table.sorts["false"]? = none

theorem Valid.legible_shape (valid : table.Valid) (spellable : table.Spellable)
    (named : table.NoTruthNames) (inside : term < table.terms.size) :
    (table.shape term).Legible := by
  induction term using Nat.strongRecOn with
  | ind term induction =>
      have found : table.terms.nodes[term]? = some table.terms.nodes[term] :=
        Array.getElem?_eq_getElem inside
      rw [valid.shape_eq found]
      generalize table.terms.nodes[term] = node at found
      cases valid.node found with
      | named name sort declared =>
          have different {truth : String} (undeclared : table.sorts[truth]? = none) :
              name ≠ truth := by
            intro same
            cases (same ▸ declared).symm.trans undeclared
          exact .variable (spellable declared) (different named.1) (different named.2)
      | literal label value spelled hasSort =>
          rw [TermLabel.shape_of_literal? spelled]
          exact .literal hasSort
      | apply operator operands =>
          refine .apply fun shape member => ?_
          rcases List.mem_map.mp member with ⟨operand, isOperand, rfl⟩
          have earlier := valid.shared.child_lt found operand isOperand
          exact induction operand earlier (Nat.lt_trans earlier inside)

/-- The numeral of a pattern has as many digits as the width asks for. -/
theorem Valid.isBits_text (valid : table.Valid) {pattern : Nat} {width : Width}
    {operands : List Nat}
    (found : table.terms.nodes[term]? = some ⟨⟨.bits pattern, .bits width⟩, operands⟩) :
    SExpr.IsBits (.symbol (table.text term)) width.bits pattern := by
  rcases valid.literal found (by simp) (by simp) with ⟨-, value, spelled, hasSort⟩
  cases spelled
  have written : table.text term = Numeral.bitsText width.bits pattern := by
    rw [valid.text_eq (Dag.lt_size_of_nodes found), valid.shape_eq found]
    rfl
  rw [written]
  exact SExpr.isBits_bitsText width.pos hasSort.2

/-- Texts say what the terms of a table are, and tell them apart. -/
structure Legible (table : TermTable) : Prop where
  shape : ∀ {term : Nat} {node : Dag.Node TermLabel}, table.terms.nodes[term]? = some node →
    table.shape term = node.label.shape (node.children.map table.shape)
  text : ∀ {term : Nat}, term < table.terms.size → table.text term = (table.shape term).text
  numeral : ∀ {term pattern : Nat} {width : Width} {operands : List Nat},
    table.terms.nodes[term]? = some ⟨⟨.bits pattern, .bits width⟩, operands⟩ →
      SExpr.IsBits (.symbol (table.text term)) width.bits pattern
  read : ∀ {term : Nat}, term < table.terms.size →
    Shape.read? (table.text term) = some (table.shape term)
  text_eq_iff : ∀ {left right : Nat}, left < table.terms.size → right < table.terms.size →
    (table.text left = table.text right ↔ left = right)

theorem Valid.legible (valid : table.Valid) (spellable : table.Spellable)
    (named : table.NoTruthNames) : table.Legible where
  shape := valid.shape_eq
  text := valid.text_eq
  numeral := valid.isBits_text
  read inside := by
    rw [valid.text_eq inside]
    exact (valid.legible_shape spellable named inside).read?_text
  text_eq_iff := by
    intro left right insideLeft insideRight
    refine ⟨fun same => valid.shape_injective insideLeft insideRight ?_, congrArg _⟩
    rw [valid.text_eq insideLeft, valid.text_eq insideRight] at same
    have onLeft := (valid.legible_shape spellable named insideLeft).read?_text
    have onRight := (valid.legible_shape spellable named insideRight).read?_text
    exact Option.some.inj (onLeft.symm.trans (same ▸ onRight))

/-! ## Sessions -/

end TermTable

end BitTerms
