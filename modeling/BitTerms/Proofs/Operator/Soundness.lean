import BitTerms.Proofs.Operator.Typing
import BitTerms.Proofs.Pattern.Bounds
import BitTerms.Proofs.Pointwise

/-!
# Evaluation respects sorts

An operator that the typing rules apply to some sorts has a value on all values of those sorts,
and it is a value of the result's sort: `Operator.Types.evaluate_hasSort`.
-/

namespace BitTerms

/-- Values for all names. -/
abbrev Assignment := String → Value

namespace Value

variable {value : Value} {width : Width}

theorem hasSort_bits_iff :
    value.HasSort (.bits width) ↔
      ∃ pattern, value = .bits width.bits pattern ∧ pattern < 2 ^ width.bits := by
  cases value with
  | bits bits pattern =>
      constructor
      · rintro ⟨rfl, fits⟩
        exact ⟨pattern, rfl, fits⟩
      · rintro ⟨pattern, ⟨⟩, fits⟩
        exact ⟨rfl, fits⟩
  | bool | int => simp [HasSort]

theorem hasSort_bool_iff : value.HasSort .bool ↔ ∃ truth, value = .bool truth := by
  cases value <;> simp [HasSort]

theorem hasSort_int_iff : value.HasSort .int ↔ ∃ number, value = .int number := by
  cases value <;> simp [HasSort]

theorem HasSort.unique {left right : SmtSort} (leftSort : value.HasSort left)
    (rightSort : value.HasSort right) : left = right := by
  cases value with
  | bits =>
      cases left with
      | bits leftWidth =>
          cases right with
          | bits rightWidth => exact congrArg _ (Width.ext (leftSort.1.symm.trans rightSort.1))
          | bool | int => exact rightSort.elim
      | bool | int => exact leftSort.elim
  | bool | int => cases left <;> cases right <;> simp_all [HasSort]

theorem exists_hasSort (sort : SmtSort) : ∃ value : Value, value.HasSort sort := by
  cases sort with
  | bool => exact ⟨.bool false, trivial⟩
  | int => exact ⟨.int 0, trivial⟩
  | bits width => exact ⟨.bits width.bits 0, rfl, Nat.two_pow_pos width.bits⟩

/-! ## Operands of given sorts -/

variable {values : List Value}

theorem exists_pattern (operands : List.Forall₂ HasSort values [.bits width]) :
    ∃ pattern, values = [.bits width.bits pattern] ∧ pattern < 2 ^ width.bits := by
  rcases exists_one operands with ⟨operand, rfl, has⟩
  rcases hasSort_bits_iff.mp has with ⟨pattern, rfl, fits⟩
  exact ⟨pattern, rfl, fits⟩

theorem exists_two_patterns {leftWidth rightWidth : Width}
    (operands : List.Forall₂ HasSort values [.bits leftWidth, .bits rightWidth]) :
    ∃ first second, values = [.bits leftWidth.bits first, .bits rightWidth.bits second] ∧
      first < 2 ^ leftWidth.bits ∧ second < 2 ^ rightWidth.bits := by
  rcases exists_two operands with ⟨left, right, rfl, hasLeft, hasRight⟩
  rcases hasSort_bits_iff.mp hasLeft with ⟨first, rfl, firstFits⟩
  rcases hasSort_bits_iff.mp hasRight with ⟨second, rfl, secondFits⟩
  exact ⟨first, second, rfl, firstFits, secondFits⟩

end Value

/-! ## Evaluation -/

theorem Connective.evaluate_and (left right : Bool) :
    Connective.and.evaluate (.bool left) (.bool right) = .ok (left && right) := by
  cases left <;> rfl

theorem Connective.exists_evaluate (operation : Connective) (left right : Bool) :
    ∃ joined, operation.evaluate (.bool left) (.bool right) = .ok joined := by
  cases operation <;> cases left <;> exact ⟨_, rfl⟩

namespace Operator.Types

open Pattern

/-- The operands of a typed application have a value together, of the application's sort. -/
theorem evaluate_hasSort {operator : Operator} {sorts : List SmtSort} {sort : SmtSort}
    {values : List Value} (rule : operator.Types sorts sort)
    (operands : List.Forall₂ Value.HasSort values sorts) :
    ∃ value, operator.evaluate values = .ok value ∧ value.HasSort sort := by
  cases rule with
  | complement width =>
      rcases Value.exists_pattern operands with ⟨pattern, rfl, fits⟩
      exact ⟨_, rfl, rfl, Nat.xor_lt_two_pow fits (ones_lt _)⟩
  | negate width =>
      rcases Value.exists_pattern operands with ⟨pattern, rfl, fits⟩
      exact ⟨_, rfl, rfl, negate_lt _ _⟩
  | bitwise operation width =>
      rcases Value.exists_two_patterns operands with ⟨left, right, rfl, leftFits, rightFits⟩
      exact ⟨_, rfl, rfl, bitwise_lt operation leftFits rightFits⟩
  | ring operation width =>
      rcases Value.exists_two_patterns operands with ⟨left, right, rfl, -, -⟩
      exact ⟨_, rfl, rfl, ring_lt operation _ _ _⟩
  | divide operation width =>
      rcases Value.exists_two_patterns operands with ⟨left, right, rfl, leftFits, -⟩
      exact ⟨_, rfl, rfl, divide_lt operation leftFits⟩
  | shift operation width =>
      rcases Value.exists_two_patterns operands with ⟨value, amount, rfl, fits, -⟩
      exact ⟨_, rfl, rfl, shift_lt operation fits amount⟩
  | rotate direction width =>
      rcases Value.exists_two_patterns operands with ⟨value, amount, rfl, fits, -⟩
      exact ⟨_, rfl, rfl, rotate_lt direction fits amount⟩
  | compare | overflows | quotientOverflows =>
      rcases Value.exists_two_patterns operands with ⟨left, right, rfl, -, -⟩
      exact ⟨_, rfl, trivial⟩
  | negationOverflows | toInt =>
      rcases Value.exists_pattern operands with ⟨pattern, rfl, -⟩
      exact ⟨_, rfl, trivial⟩
  | concat leftWidth rightWidth result sum =>
      rcases Value.exists_two_patterns operands with ⟨left, right, rfl, leftFits, rightFits⟩
      exact ⟨_, rfl, sum.symm, concat_lt leftFits rightFits⟩
  | extract high low width result ordered inside count =>
      rcases Value.exists_pattern operands with ⟨pattern, rfl, -⟩
      exact ⟨_, rfl, by omega, extract_lt _ _ _⟩
  | extend reading extra width result sum =>
      rcases Value.exists_pattern operands with ⟨pattern, rfl, fits⟩
      exact ⟨_, rfl, sum.symm, extend_lt reading extra fits⟩
  | replicate count width result some product =>
      rcases Value.exists_pattern operands with ⟨pattern, rfl, fits⟩
      exact ⟨_, rfl, product.symm, replicate_lt count fits⟩
  | equal sort =>
      rcases exists_two operands with ⟨left, right, rfl, -, -⟩
      exact ⟨_, rfl, trivial⟩
  | ite sort =>
      rcases exists_three operands with
        ⟨condition, left, right, rfl, hasCondition, hasLeft, hasRight⟩
      rcases Value.hasSort_bool_iff.mp hasCondition with ⟨truth, rfl⟩
      cases truth with
      | false => exact ⟨right, rfl, hasRight⟩
      | true => exact ⟨left, rfl, hasLeft⟩
  | not =>
      rcases exists_one operands with ⟨operand, rfl, hasOperand⟩
      rcases Value.hasSort_bool_iff.mp hasOperand with ⟨truth, rfl⟩
      exact ⟨_, rfl, trivial⟩
  | connective operation =>
      rcases exists_two operands with ⟨left, right, rfl, hasLeft, hasRight⟩
      rcases Value.hasSort_bool_iff.mp hasLeft with ⟨leftTruth, rfl⟩
      rcases Value.hasSort_bool_iff.mp hasRight with ⟨rightTruth, rfl⟩
      rcases operation.exists_evaluate leftTruth rightTruth with ⟨joined, found⟩
      have evaluated : Operator.evaluate (.connective operation)
          [.bool leftTruth, .bool rightTruth] = .ok (.bool joined) := by
        simp only [Operator.evaluate, found]
        rfl
      exact ⟨.bool joined, evaluated, trivial⟩

end Operator.Types

end BitTerms
