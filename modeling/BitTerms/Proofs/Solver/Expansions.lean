import BitTerms.Proofs.Pattern.Expansions
import BitTerms.Proofs.Solver.Drafts

/-!
# Expansions have the values of their operators

Rotations, conversions to integers and the overflow predicates are written with other operators.
Each of these s-expressions has the value that evaluation gives to the operator it is written for,
at every width and for all operands of that width.
-/

namespace BitTerms.Draft

variable {terms : Dag SExpr.Label} {assignment : Assignment} {width : Nat}
  {left right operand : Draft} {leftPattern rightPattern pattern : Nat}

/-! ## Parts of expansions -/

theorem means_bits (terms : Dag SExpr.Label) (assignment : Assignment) (positive : 0 < width)
    (inRange : width < wordLimit) (fits : pattern < 2 ^ width) :
    (bits width pattern).Means terms assignment (.bits width pattern) :=
  means_symbol (SExpr.symbolLiteral?_bitsText positive inRange fits)

theorem means_number (value : Nat) : (number value).Means terms assignment (.int value) :=
  means_symbol (SExpr.symbolLiteral?_toString value)

theorem means_binary (operator : Operator) {leftValue rightValue value : Value}
    (named : Function.named operator.name [] = some (.native operator))
    (onLeft : left.Means terms assignment leftValue)
    (onRight : right.Means terms assignment rightValue)
    (evaluated : operator.evaluate [leftValue, rightValue] = .ok value) :
    (call operator.name [left, right]).Means terms assignment value :=
  means_call operator.name (.native operator) named (.cons onLeft (.cons onRight .nil))
    (by simp [Function.value?, evaluated, Except.toOption])

theorem means_equal {leftValue rightValue : Value}
    (onLeft : left.Means terms assignment leftValue)
    (onRight : right.Means terms assignment rightValue) :
    (equal left right).Means terms assignment (.bool (leftValue = rightValue)) :=
  means_binary .equal rfl onLeft onRight rfl

theorem means_not {truth : Bool} (means : operand.Means terms assignment (.bool truth)) :
    (not operand).Means terms assignment (.bool !truth) :=
  means_call "not" (.native .not) rfl (.cons means .nil) rfl

theorem means_extract (high low : Nat)
    (means : operand.Means terms assignment (.bits width pattern)) :
    (extract high low operand).Means terms assignment
      (.bits (high + 1 - low) (Pattern.extract (high + 1 - low) low pattern)) :=
  means_callIndexed (.native (.extract high low)) rfl (.cons means .nil) rfl

theorem means_bit (index : Nat) (means : operand.Means terms assignment (.bits width pattern)) :
    (bit index operand).Means terms assignment (.bits 1 (Pattern.extract 1 index pattern)) := by
  have extracted := means_extract index index means
  rwa [Nat.add_sub_cancel_left] at extracted

theorem means_extend (reading : Reading) (extra : Nat)
    (means : operand.Means terms assignment (.bits width pattern)) :
    (extend reading extra operand).Means terms assignment
      (.bits (width + extra) (Pattern.extend reading extra width pattern)) :=
  means_callIndexed (.native (.extend reading extra)) (Function.named_extend reading extra)
    (.cons means .nil) rfl

theorem means_widened (operation : RingOp) (reading : Reading) (extra : Nat)
    (onLeft : left.Means terms assignment (.bits width leftPattern))
    (onRight : right.Means terms assignment (.bits width rightPattern)) :
    (widened operation reading extra left right).Means terms assignment
      (.bits (width + extra) (Pattern.ring operation (width + extra)
        (Pattern.extend reading extra width leftPattern)
        (Pattern.extend reading extra width rightPattern))) :=
  means_binary (.ring operation) (Function.named_ring operation)
    (means_extend reading extra onLeft) (means_extend reading extra onRight) rfl

/-! ## The expansions -/

theorem means_rotate (direction : Rotation) (positive : 0 < width) (inRange : width < wordLimit)
    (fits : leftPattern < 2 ^ width)
    (onValue : left.Means terms assignment (.bits width leftPattern))
    (onAmount : right.Means terms assignment (.bits width rightPattern)) :
    (rotate direction width left right).Means terms assignment
      (.bits width (Pattern.rotate direction width leftPattern rightPattern)) := by
  have whole := means_bits terms assignment positive inRange
    Nat.lt_two_pow_self
  have distance := means_binary (.divide .unsignedRemainder) rfl onAmount whole rfl
  have missing := means_binary (.ring .sub) rfl whole distance rfl
  cases direction with
  | left =>
      rw [← Pattern.rotate_left_eq positive fits]
      exact means_binary (.bitwise .or) rfl
        (means_binary (.shift .left) rfl onValue distance rfl)
        (means_binary (.shift .logicalRight) rfl onValue missing rfl) rfl
  | right =>
      rw [← Pattern.rotate_right_eq positive fits]
      exact means_binary (.bitwise .or) rfl
        (means_binary (.shift .logicalRight) rfl onValue distance rfl)
        (means_binary (.shift .left) rfl onValue missing rfl) rfl

theorem means_toInt (reading : Reading) (positive : 0 < width) (inRange : width < wordLimit)
    (fits : pattern < 2 ^ width)
    (means : operand.Means terms assignment (.bits width pattern)) :
    (toInt reading width operand).Means terms assignment (.int (reading.read width pattern)) := by
  have natural : (call "bv2nat" [operand]).Means terms assignment (.int pattern) :=
    means_call "bv2nat" (.native (.toInt .unsigned)) rfl (.cons means .nil) rfl
  cases reading with
  | unsigned => exact natural
  | signed =>
      have negative := means_binary (.compare .less .signed) rfl means
        (means_bits _ _ positive inRange (Nat.two_pow_pos width)) rfl
      have less : (call "-" [call "bv2nat" [operand], number (2 ^ width)]).Means terms assignment
          (.int (pattern - (2 ^ width : Nat))) :=
        means_call "-" .difference rfl (.cons natural (.cons (means_number _) .nil)) rfl
      have chosen := means_call "ite" (.native .ite) rfl
        (.cons negative (.cons less (.cons natural .nil))) rfl
      rw [Pattern.compare_zero positive fits] at chosen
      have read : Reading.signed.read width pattern =
          if Pattern.sign width pattern then (pattern : Int) - (2 ^ width : Nat) else pattern := rfl
      rw [read, apply_ite Value.int]
      exact chosen

theorem means_topBitsDiffer {operation : RingOp} (linear : operation ≠ .mul)
    (positive : 0 < width) (leftFits : leftPattern < 2 ^ width)
    (rightFits : rightPattern < 2 ^ width)
    (onLeft : left.Means terms assignment (.bits width leftPattern))
    (onRight : right.Means terms assignment (.bits width rightPattern)) :
    (topBitsDiffer width (width - 1) (widened operation .signed 1 left right)).Means terms
      assignment (.bool (Pattern.overflows operation .signed width leftPattern rightPattern)) := by
  rw [← Pattern.top_bits_differ positive
    (Pattern.exact_in_range linear positive leftFits rightFits)]
  have result := means_widened operation .signed 1 onLeft onRight
  exact means_not (means_equal (means_bit width result) (means_bit (width - 1) result))

theorem means_overflows (operation : RingOp) (reading : Reading) (positive : 0 < width)
    (inRange : width < wordLimit) (leftFits : leftPattern < 2 ^ width)
    (rightFits : rightPattern < 2 ^ width)
    (onLeft : left.Means terms assignment (.bits width leftPattern))
    (onRight : right.Means terms assignment (.bits width rightPattern)) :
    (overflows operation reading width (width - 1) (topIndex operation reading width) left
      right).Means terms assignment
      (.bool (Pattern.overflows operation reading width leftPattern rightPattern)) := by
  cases operation with
  | add =>
      cases reading with
      | unsigned =>
          rw [← Pattern.carry_eq leftFits rightFits]
          exact means_equal (means_bit width (means_widened .add .unsigned 1 onLeft onRight))
            (means_symbol (by decide +kernel))
      | signed =>
          exact means_topBitsDiffer (by decide) positive leftFits rightFits onLeft onRight
  | sub =>
      cases reading with
      | unsigned =>
          rw [← Pattern.borrow_eq]
          exact means_binary (.compare .less .unsigned) rfl onLeft onRight rfl
      | signed =>
          exact means_topBitsDiffer (by decide) positive leftFits rightFits onLeft onRight
  | mul =>
      have product (reading : Reading) := means_widened .mul reading width onLeft onRight
      cases reading with
      | unsigned =>
          rw [← Pattern.upper_half_eq leftFits rightFits]
          have count : 2 * width - 1 + 1 - width = width := by omega
          have upper := means_extract (2 * width - 1) width (product .unsigned)
          rw [count] at upper
          exact means_not (means_equal upper
            (means_bits _ _ positive inRange (Nat.two_pow_pos width)))
      | signed =>
          rw [← Pattern.lower_half_eq positive leftFits rightFits]
          have count : width - 1 + 1 - 0 = width := by omega
          have lower := means_extract (width - 1) 0 (product .signed)
          rw [count] at lower
          exact means_not (means_equal (product .signed) (means_extend .signed width lower))

theorem means_isLeast (positive : 0 < width) (inRange : width < wordLimit)
    (means : operand.Means terms assignment (.bits width pattern)) :
    (isLeast width (width - 1) operand).Means terms assignment
      (.bool (pattern = Pattern.least width)) := by
  have least := means_bits terms assignment positive inRange
    (Pattern.least_lt positive)
  have same : (isLeast width (width - 1) operand).Means terms assignment
      (.bool (Value.bits width pattern = .bits width (Pattern.least width))) :=
    means_equal means least
  simpa only [Value.bits.injEq, true_and] using same

theorem means_quotientOverflows (positive : 0 < width) (inRange : width < wordLimit)
    (onLeft : left.Means terms assignment (.bits width leftPattern))
    (onRight : right.Means terms assignment (.bits width rightPattern)) :
    (quotientOverflows width (width - 1) left right).Means terms assignment
      (.bool (Pattern.quotientOverflows width leftPattern rightPattern)) := by
  have ones := means_bits terms assignment positive inRange
    (Pattern.ones_lt width)
  have isOnes : (equal right (bits width (2 ^ width - 1))).Means terms assignment
      (.bool (Value.bits width rightPattern = .bits width (Pattern.ones width))) :=
    means_equal onRight ones
  simp only [Value.bits.injEq, true_and] at isOnes
  exact means_binary (.connective .and) rfl (means_isLeast positive inRange onLeft) isOnes
    (by simp only [Operator.evaluate, Connective.evaluate_and]; rfl)

end BitTerms.Draft

namespace BitTerms

open Draft

variable {terms : Dag SExpr.Label} {assignment : Assignment}

namespace Operator

theorem IsNative.named {operator : Operator} (native : operator.IsNative) :
    Function.named operator.name operator.indices = some (.native operator) := by
  cases operator with
  | rotate | toInt | overflows | quotientOverflows | negationOverflows => exact native.elim
  | bitwise operation | ring operation | divide operation | shift operation
  | connective operation => cases operation <;> rfl
  | compare relation reading => cases relation <;> cases reading <;> rfl
  | extend reading extra => cases reading <;> rfl
  | complement | negate | concat | extract | replicate | equal | ite | not => rfl

/-- An application that obeys the typing rules is lowered to a draft of its value, if the widths
are those of its result and of its first operand and no index exceeds a word. -/
theorem Types.exists_means {build : Build} {operator : Operator} {sorts : List SmtSort}
    {sort : SmtSort} (rule : operator.Types sorts sort) {operands : List Draft}
    {values : List Value} (resultWidth operandWidth : Unit → Except Error Nat)
    (ofResult : ∀ width, sort = .bits width → resultWidth () = .ok width.bits)
    (ofOperand : ∀ width, sorts.head? = some (.bits width) → operandWidth () = .ok width.bits)
    (narrow : operator.IsNarrow sorts) (sorted : List.Forall₂ Value.HasSort values sorts)
    (means : List.Forall₂ (Means terms assignment) operands values) :
    ∃ draft value, operator.lower build operands resultWidth operandWidth = .ok draft ∧
      operator.evaluate values = .ok value ∧ draft.Means terms assignment value := by
  have count := means.length_eq.trans sorted.length_eq
  rcases rule.exists_lowered count fun _ => narrow with ⟨draft, lowers⟩
  have lowered := lowers resultWidth operandWidth ofResult ofOperand
  rcases rule.evaluate_hasSort sorted with ⟨value, evaluated, -⟩
  refine ⟨draft, value, lowered, evaluated, ?_⟩
  cases lower_eq_ok_iff.mp lowered with
  | native native => exact means_native native.named means evaluated
  | rotate found =>
      cases rule with
      | rotate _ width =>
        rcases Value.exists_two_patterns sorted with ⟨valuePattern, amountPattern, rfl, fits, -⟩
        rcases means with - | ⟨onValue, - | ⟨onAmount, -⟩⟩
        cases found.symm.trans (ofResult width rfl)
        cases evaluated
        exact means_rotate _ width.pos width.lt_wordLimit fits onValue onAmount
  | toInt found =>
      cases rule with
      | toInt _ width =>
        rcases Value.exists_pattern sorted with ⟨pattern, rfl, fits⟩
        rcases means with - | ⟨onOperand, -⟩
        cases found.symm.trans (ofOperand width rfl)
        cases evaluated
        exact means_toInt _ width.pos width.lt_wordLimit fits onOperand
  | overflows found isSign isTop =>
      cases rule with
      | overflows _ _ width =>
        rcases Value.exists_two_patterns sorted with
          ⟨leftPattern, rightPattern, rfl, leftFits, rightFits⟩
        rcases means with - | ⟨onLeft, - | ⟨onRight, -⟩⟩
        cases found.symm.trans (ofOperand width rfl)
        cases Word.eq_of_sub isSign width.pos width.lt_wordLimit
        cases Draft.eq_topIndex isTop (fitsWords_iff_isNarrow.mpr narrow)
        cases evaluated
        exact means_overflows _ _ width.pos width.lt_wordLimit leftFits rightFits onLeft onRight
  | quotientOverflows found isSign =>
      cases rule with
      | quotientOverflows width =>
        rcases Value.exists_two_patterns sorted with ⟨leftPattern, rightPattern, rfl, -, -⟩
        rcases means with - | ⟨onLeft, - | ⟨onRight, -⟩⟩
        cases found.symm.trans (ofOperand width rfl)
        cases Word.eq_of_sub isSign width.pos width.lt_wordLimit
        cases evaluated
        exact means_quotientOverflows width.pos width.lt_wordLimit onLeft onRight
  | negationOverflows found isSign =>
      cases rule with
      | negationOverflows width =>
        rcases Value.exists_pattern sorted with ⟨pattern, rfl, -⟩
        rcases means with - | ⟨onOperand, -⟩
        cases found.symm.trans (ofOperand width rfl)
        cases Word.eq_of_sub isSign width.pos width.lt_wordLimit
        cases evaluated
        exact means_isLeast width.pos width.lt_wordLimit onOperand

end Operator

end BitTerms
