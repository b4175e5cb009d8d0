import Mathlib.Data.List.Basic
import BitTerms.Operator.Typing

/-!
# Typing rules

`Operator.Types` lists the rules by which an application has a sort, one for each way to write
an operator, over unbounded numbers. `Operator.resultSort` accepts exactly the operands that some
rule accepts, and gives the sort of that rule.
-/

namespace BitTerms

theorem Except.bind_eq_ok_iff {ε α β : Type} {first : Except ε α} {next : α → Except ε β}
    {result : β} :
    (first >>= next) = .ok result ↔ ∃ middle, first = .ok middle ∧ next middle = .ok result := by
  cases first <;> simp [bind, Except.bind]

theorem Width.ofNat?_eq_some_iff {bits : Nat} {width : Width} :
    Width.ofNat? bits = some width ↔ width.bits = bits := by
  unfold Width.ofNat?
  constructor
  · intro found
    split at found
    · cases found
      rfl
    · cases found
  · rintro rfl
    rw [dif_pos ⟨width.pos, width.lt_wordLimit⟩]

namespace Operator

/-- The operator takes operands of these sorts to a result of that sort. -/
inductive Types : Operator → List SmtSort → SmtSort → Prop
  | complement (width : Width) : Types .complement [.bits width] (.bits width)
  | negate (width : Width) : Types .negate [.bits width] (.bits width)
  | bitwise (operation : Bitwise) (width : Width) :
      Types (.bitwise operation) [.bits width, .bits width] (.bits width)
  | ring (operation : RingOp) (width : Width) :
      Types (.ring operation) [.bits width, .bits width] (.bits width)
  | divide (operation : Division) (width : Width) :
      Types (.divide operation) [.bits width, .bits width] (.bits width)
  | shift (operation : Shift) (width : Width) :
      Types (.shift operation) [.bits width, .bits width] (.bits width)
  | rotate (direction : Rotation) (width : Width) :
      Types (.rotate direction) [.bits width, .bits width] (.bits width)
  | compare (relation : Comparison) (reading : Reading) (width : Width) :
      Types (.compare relation reading) [.bits width, .bits width] .bool
  | overflows (operation : RingOp) (reading : Reading) (width : Width) :
      Types (.overflows operation reading) [.bits width, .bits width] .bool
  | quotientOverflows (width : Width) :
      Types .quotientOverflows [.bits width, .bits width] .bool
  | negationOverflows (width : Width) : Types .negationOverflows [.bits width] .bool
  | concat (left right result : Width) (sum : result.bits = left.bits + right.bits) :
      Types .concat [.bits left, .bits right] (.bits result)
  | extract (high low : Nat) (width result : Width) (ordered : low ≤ high)
      (inside : high < width.bits) (count : result.bits = high - low + 1) :
      Types (.extract high low) [.bits width] (.bits result)
  | extend (reading : Reading) (extra : Nat) (width result : Width)
      (sum : result.bits = width.bits + extra) :
      Types (.extend reading extra) [.bits width] (.bits result)
  | replicate (count : Nat) (width result : Width) (some : count ≠ 0)
      (product : result.bits = width.bits * count) :
      Types (.replicate count) [.bits width] (.bits result)
  | toInt (reading : Reading) (width : Width) : Types (.toInt reading) [.bits width] .int
  | equal (sort : SmtSort) : Types .equal [sort, sort] .bool
  | ite (sort : SmtSort) : Types .ite [.bool, sort, sort] sort
  | not : Types .not [.bool] .bool
  | connective (operation : Connective) : Types (.connective operation) [.bool, .bool] .bool

/-! ## The checks of a single operand -/

variable {operator : Operator} {given left right sort : SmtSort} {width : Width} {bits : Nat}

theorem operandWidth_eq_ok_iff : operator.operandWidth given = .ok width ↔ given = .bits width := by
  cases given <;> simp [operandWidth]

theorem commonWidth_eq_ok_iff :
    operator.commonWidth left right = .ok width ↔ left = .bits width ∧ right = .bits width := by
  cases left with
  | bool | int => simp [commonWidth, operandWidth, bind, Except.bind]
  | bits leftWidth =>
      cases right with
      | bool | int => simp [commonWidth, operandWidth, bind, Except.bind]
      | bits rightWidth =>
          by_cases same : leftWidth = rightWidth
          · subst same
            simp [commonWidth, operandWidth, bind, Except.bind]
          · simp [commonWidth, operandWidth, bind, Except.bind, same]
            rintro rfl rfl
            exact same rfl

theorem resultOfWidth_eq_ok_iff :
    operator.resultOfWidth bits = .ok sort ↔ ∃ width, sort = .bits width ∧ width.bits = bits := by
  unfold resultOfWidth
  cases found : Width.ofNat? bits with
  | none =>
      have missing : ∀ width : Width, width.bits ≠ bits := by
        intro width same
        rw [Width.ofNat?_eq_some_iff.mpr same] at found
        cases found
      simp [missing]
  | some result =>
      have same := Width.ofNat?_eq_some_iff.mp found
      constructor
      · rintro ⟨⟩
        exact ⟨result, rfl, same⟩
      · rintro ⟨width, rfl, other⟩
        rw [Width.ext (same.trans other.symm)]

theorem requireBool_eq_ok_iff : operator.requireBool given = .ok () ↔ given = .bool := by
  simp [requireBool]

/-! ## All operators -/

theorem resultSort_extract (high low : Nat) (operand : SmtSort) :
    resultSort (.extract high low) [operand] =
      ((Operator.extract high low).operandWidth operand >>= fun width =>
        if high < low then
          .error (.extractReversed high low)
        else if width.bits ≤ high then
          .error (.extractOutOfRange high width)
        else
          (Operator.extract high low).resultOfWidth (high - low + 1)) := rfl

theorem resultSort_replicate (count : Nat) (operand : SmtSort) :
    resultSort (.replicate count) [operand] =
      ((Operator.replicate count).operandWidth operand >>= fun width =>
        if count = 0 then
          .error .zeroReplication
        else
          (Operator.replicate count).resultOfWidth (width.bits * count)) := rfl

theorem resultSort_equal (left right : SmtSort) :
    resultSort .equal [left, right] =
      if left = right then .ok .bool else .error (.equalSorts left right) := rfl

theorem resultSort_ite (condition left right : SmtSort) :
    resultSort .ite [condition, left, right] =
      if condition ≠ .bool then
        .error (.iteCondition condition)
      else if left = right then
        .ok left
      else
        .error (.iteBranches left right) := rfl

theorem types_of_extract {high low : Nat} {operand sort : SmtSort}
    (typed : (Operator.extract high low).resultSort [operand] = .ok sort) :
    (Operator.extract high low).Types [operand] sort := by
  rw [resultSort_extract] at typed
  rcases Except.bind_eq_ok_iff.mp typed with ⟨width, bits, checks⟩
  cases operandWidth_eq_ok_iff.mp bits
  by_cases reversed : high < low
  · rw [if_pos reversed] at checks
    cases checks
  · by_cases outside : width.bits ≤ high
    · rw [if_neg reversed, if_pos outside] at checks
      cases checks
    · rw [if_neg reversed, if_neg outside] at checks
      rcases resultOfWidth_eq_ok_iff.mp checks with ⟨result, rfl, count⟩
      exact .extract high low width result (by omega) (by omega) count

theorem types_of_replicate {count : Nat} {operand sort : SmtSort}
    (typed : (Operator.replicate count).resultSort [operand] = .ok sort) :
    (Operator.replicate count).Types [operand] sort := by
  rw [resultSort_replicate] at typed
  rcases Except.bind_eq_ok_iff.mp typed with ⟨width, bits, checks⟩
  cases operandWidth_eq_ok_iff.mp bits
  by_cases none : count = 0
  · rw [if_pos none] at checks
    cases checks
  · rw [if_neg none] at checks
    rcases resultOfWidth_eq_ok_iff.mp checks with ⟨result, rfl, product⟩
    exact .replicate count width result none product

theorem resultSort_of_miscount {operator : Operator} {operands : List SmtSort}
    (miscount : operands.length ≠ operator.arity) :
    operator.resultSort operands = .error (.operandCount operator operands.length) := by
  unfold resultSort
  split <;> first | rfl | exact absurd rfl miscount

theorem types_of_resultSort {operator : Operator} {operands : List SmtSort} {sort : SmtSort}
    (typed : operator.resultSort operands = .ok sort) : operator.Types operands sort := by
  have count : operands.length = operator.arity := by
    refine Decidable.byContradiction fun miscount => ?_
    rw [resultSort_of_miscount miscount] at typed
    cases typed
  cases operator with
  | complement | negate | negationOverflows | toInt =>
      rcases List.length_eq_one_iff.mp count with ⟨operand, rfl⟩
      rcases Except.bind_eq_ok_iff.mp typed with ⟨width, bits, result⟩
      cases operandWidth_eq_ok_iff.mp bits
      cases result
      constructor
  | bitwise | ring | divide | shift | rotate | compare | overflows | quotientOverflows =>
      rcases List.length_eq_two.mp count with ⟨left, right, rfl⟩
      rcases Except.bind_eq_ok_iff.mp typed with ⟨width, bits, result⟩
      rcases commonWidth_eq_ok_iff.mp bits with ⟨leftBits, rightBits⟩
      cases leftBits
      cases rightBits
      cases result
      constructor
  | concat =>
      rcases List.length_eq_two.mp count with ⟨left, right, rfl⟩
      rcases Except.bind_eq_ok_iff.mp typed with ⟨leftWidth, leftBits, rest⟩
      rcases Except.bind_eq_ok_iff.mp rest with ⟨rightWidth, rightBits, joined⟩
      cases operandWidth_eq_ok_iff.mp leftBits
      cases operandWidth_eq_ok_iff.mp rightBits
      rcases resultOfWidth_eq_ok_iff.mp joined with ⟨result, rfl, sum⟩
      exact .concat leftWidth rightWidth result sum
  | extract high low =>
      rcases List.length_eq_one_iff.mp count with ⟨operand, rfl⟩
      exact types_of_extract typed
  | extend reading extra =>
      rcases List.length_eq_one_iff.mp count with ⟨operand, rfl⟩
      rcases Except.bind_eq_ok_iff.mp typed with ⟨width, bits, extended⟩
      cases operandWidth_eq_ok_iff.mp bits
      rcases resultOfWidth_eq_ok_iff.mp extended with ⟨result, rfl, sum⟩
      exact .extend reading extra width result sum
  | replicate times =>
      rcases List.length_eq_one_iff.mp count with ⟨operand, rfl⟩
      exact types_of_replicate typed
  | equal =>
      rcases List.length_eq_two.mp count with ⟨left, right, rfl⟩
      rw [resultSort_equal] at typed
      by_cases same : left = right
      · rw [if_pos same] at typed
        cases typed
        subst same
        constructor
      · rw [if_neg same] at typed
        cases typed
  | ite =>
      rcases List.length_eq_three.mp count with ⟨condition, left, right, rfl⟩
      rw [resultSort_ite] at typed
      by_cases other : condition ≠ .bool
      · rw [if_pos other] at typed
        cases typed
      · rw [if_neg other] at typed
        by_cases same : left = right
        · rw [if_pos same] at typed
          cases typed
          subst same
          cases Decidable.not_not.mp other
          constructor
        · rw [if_neg same] at typed
          cases typed
  | not =>
      rcases List.length_eq_one_iff.mp count with ⟨operand, rfl⟩
      rcases Except.bind_eq_ok_iff.mp typed with ⟨_, bool, result⟩
      cases requireBool_eq_ok_iff.mp bool
      cases result
      constructor
  | connective operation =>
      rcases List.length_eq_two.mp count with ⟨left, right, rfl⟩
      rcases Except.bind_eq_ok_iff.mp typed with ⟨_, leftBool, rest⟩
      rcases Except.bind_eq_ok_iff.mp rest with ⟨_, rightBool, result⟩
      cases requireBool_eq_ok_iff.mp leftBool
      cases requireBool_eq_ok_iff.mp rightBool
      cases result
      constructor

/-- A sort is the result exactly if a rule gives it. -/
theorem resultSort_eq_ok_iff {operator : Operator} {operands : List SmtSort} {sort : SmtSort} :
    operator.resultSort operands = .ok sort ↔ operator.Types operands sort := by
  refine ⟨types_of_resultSort, fun rule => ?_⟩
  have ofWidth {result : Width} {bits : Nat} (same : result.bits = bits) (operator : Operator) :
      operator.resultOfWidth bits = .ok (.bits result) :=
    resultOfWidth_eq_ok_iff.mpr ⟨result, rfl, same⟩
  cases rule with
  | concat left right result sum => exact ofWidth sum _
  | extract high low width result ordered inside count =>
      rw [resultSort_extract, operandWidth_eq_ok_iff.mpr rfl, Except.bind_eq_ok_iff]
      refine ⟨width, rfl, ?_⟩
      rw [if_neg (by omega), if_neg (by omega)]
      exact ofWidth count _
  | extend reading extra width result sum => exact ofWidth sum _
  | replicate count width result some product =>
      rw [resultSort_replicate, operandWidth_eq_ok_iff.mpr rfl, Except.bind_eq_ok_iff]
      refine ⟨width, rfl, ?_⟩
      rw [if_neg some]
      exact ofWidth product _
  | equal sort => exact if_pos rfl
  | ite sort =>
      simp [resultSort]
  | complement | negate | negationOverflows | toInt | not | connective => rfl
  | bitwise | ring | divide | shift | rotate | compare | overflows | quotientOverflows =>
      simp [resultSort, commonWidth, operandWidth, bind, Except.bind, pure, Except.pure]

end Operator

end BitTerms
