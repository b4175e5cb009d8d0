import BitTerms.Proofs.Operator.Typing

/-!
# What the typing rules refuse

A width or the operands of an application are refused for one of a few reasons, all of which are
known before anything is asked of an engine. The caller is told each of them.
-/

namespace BitTerms

/-- The caller is told what went wrong. -/
def Error.IsReported (error : Error) : Prop := ∃ message, error.report? = some message

@[simp] theorem Error.isReported_iff (error : Error) :
    error.IsReported ↔
      error ≠ .malformedModel ∧ error ≠ .wordOverflow ∧ error ≠ .failedAssertion := by
  cases error <;> simp [IsReported, report?, cause?]

/-- A width or the operands of an application are refused, before anything is asked of an
engine. -/
def Error.IsRefusal : Error → Prop
  | .zeroWidth | .widthTooLarge | .operandCount _ _ | .notBits _ _ | .widthMismatch _ _ _
  | .notBool _ _ | .resultTooWide _ | .extractReversed _ _ | .extractOutOfRange _ _
  | .zeroReplication | .equalSorts _ _ | .iteCondition _ | .iteBranches _ _
  | .foreignExpression => True
  | _ => False

theorem Error.IsRefusal.isReported {error : Error} (refusal : error.IsRefusal) :
    error.IsReported := by
  rw [isReported_iff]
  refine ⟨?_, ?_, ?_⟩
  all_goals
    rintro rfl
    exact refusal

namespace Except

def Refuses {α : Type} : Except Error α → Prop
  | .ok _ => True
  | .error error => error.IsRefusal

theorem Refuses.bind {α β : Type} {first : Except Error α} {next : α → Except Error β}
    (refuses : Refuses first) (refusesNext : ∀ result, Refuses (next result)) :
    Refuses (first >>= next) := by
  cases first with
  | ok result => exact refusesNext result
  | error error => exact refuses

end Except

theorem Width.refuses_ofNat (bits : Nat) : Except.Refuses (ofNat bits) := by
  unfold ofNat
  split
  · trivial
  · split <;> trivial

namespace Operator

variable (operator : Operator)

theorem refuses_operandWidth (given : SmtSort) :
    Except.Refuses (operator.operandWidth given) := by
  cases given <;> trivial

theorem refuses_commonWidth (left right : SmtSort) :
    Except.Refuses (operator.commonWidth left right) := by
  refine (operator.refuses_operandWidth left).bind fun leftWidth =>
    (operator.refuses_operandWidth right).bind fun rightWidth => ?_
  split <;> trivial

theorem refuses_resultOfWidth (bits : Nat) :
    Except.Refuses (operator.resultOfWidth bits) := by
  unfold resultOfWidth
  split <;> trivial

theorem refuses_requireBool (given : SmtSort) :
    Except.Refuses (operator.requireBool given) := by
  unfold requireBool
  split <;> trivial

theorem refuses_resultSort (operands : List SmtSort) :
    Except.Refuses (operator.resultSort operands) := by
  by_cases count : operands.length = operator.arity
  case neg =>
      rw [resultSort_of_miscount count]
      trivial
  cases operator with
  | complement | negate | negationOverflows | toInt =>
      rcases List.length_eq_one_iff.mp count with ⟨operand, rfl⟩
      exact (refuses_operandWidth _ operand).bind fun _ => trivial
  | bitwise | ring | divide | shift | rotate | compare | overflows | quotientOverflows =>
      rcases List.length_eq_two.mp count with ⟨left, right, rfl⟩
      exact (refuses_commonWidth _ left right).bind fun _ => trivial
  | concat =>
      rcases List.length_eq_two.mp count with ⟨left, right, rfl⟩
      refine (refuses_operandWidth _ left).bind fun _ => ?_
      exact (refuses_operandWidth _ right).bind fun _ => refuses_resultOfWidth _ _
  | extract high low =>
      rcases List.length_eq_one_iff.mp count with ⟨operand, rfl⟩
      rw [resultSort_extract]
      refine (refuses_operandWidth _ operand).bind fun width => ?_
      split
      · trivial
      · split
        · trivial
        · exact refuses_resultOfWidth _ _
  | extend reading extra =>
      rcases List.length_eq_one_iff.mp count with ⟨operand, rfl⟩
      exact (refuses_operandWidth _ operand).bind fun _ => refuses_resultOfWidth _ _
  | replicate times =>
      rcases List.length_eq_one_iff.mp count with ⟨operand, rfl⟩
      rw [resultSort_replicate]
      refine (refuses_operandWidth _ operand).bind fun width => ?_
      split
      · trivial
      · exact refuses_resultOfWidth _ _
  | equal =>
      rcases List.length_eq_two.mp count with ⟨left, right, rfl⟩
      rw [resultSort_equal]
      split <;> trivial
  | ite =>
      rcases List.length_eq_three.mp count with ⟨condition, left, right, rfl⟩
      rw [resultSort_ite]
      split
      · trivial
      · split <;> trivial
  | not =>
      rcases List.length_eq_one_iff.mp count with ⟨operand, rfl⟩
      exact (refuses_requireBool _ operand).bind fun _ => trivial
  | connective operation =>
      rcases List.length_eq_two.mp count with ⟨left, right, rfl⟩
      refine (refuses_requireBool _ left).bind fun _ => ?_
      exact (refuses_requireBool _ right).bind fun _ => trivial

end Operator

end BitTerms
