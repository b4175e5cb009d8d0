import Mathlib.Data.List.Induction
import Mathlib.Data.List.Infix
import BitTerms.Proofs.Solver.Lowering
import BitTerms.Proofs.Solver.ModelValues

/-!
# What is reported

Whatever a solver prints, a step that fails says why, with two exceptions. The value of an
expression is picked out of a reply by its place, and a reply without that place leads to no report.
And a program that checks its machine words gives up without a report where it is to write an
overflow predicate at a width that does not fit them; values of the model can make it take such a
width for the one of an operand. `Session.Misleads` says when this happens, step by step, and
`Literal.IsOversize` where the readings of a literal fail for the like reason.
-/

namespace BitTerms

def Outcome.IsReported : Outcome → Prop
  | .failed error => error.IsReported
  | .made _ | .done | .answered _ | .skipped => True

/-! ## Overflow predicates -/

namespace Solver

variable {solver : Solver} {operator : Operator} {operands : List Nat}

/-- A width is recorded or spelled, and fits a machine word, or there is a report. -/
theorem widthOf_cases (solver : Solver) (term : Nat) :
    (∃ bits, solver.widthOf term = .ok bits ∧ bits < wordLimit) ∨
      solver.widthOf term = .error (.unknownWidth (solver.text term)) := by
  unfold widthOf
  cases solver.widths[term]? with
  | some width => exact .inl ⟨width.bits, rfl, width.lt_wordLimit⟩
  | none =>
      cases spelled : solver.literal? term with
      | none => exact .inr rfl
      | some literal =>
          cases literal with
          | bits bits pattern =>
              exact .inl ⟨bits, rfl, (SExpr.bits_or_loose_of_literal? spelled).1⟩
          | bool | int => exact .inr rfl

theorem widthOf_lt {term bits : Nat} (found : solver.widthOf term = .ok bits) :
    bits < wordLimit := by
  rcases solver.widthOf_cases term with ⟨other, foundToo, small⟩ | unknown
  · cases found.symm.trans foundToo
    exact small
  · cases found.symm.trans unknown

/-- The program checks its machine words, and the width that it finds for the first operand does not
fit them. -/
def Oversteps (solver : Solver) (operator : Operator) (operands : List Nat) : Prop :=
  solver.build = .checked ∧
    ∃ width, solver.widthOf (operands.headD 0) = .ok width ∧ ¬ operator.FitsWords width

end Solver

/-! ## Building -/

namespace Solver

variable {solver : Solver}

end Solver

namespace Session

variable {session : Session Solver} {call : Call}

/-- The call applies an operator to expressions that it may be applied to, and the program checks
its words and finds a width for the first of them that does not fit. -/
def Oversteps (session : Session Solver) : Call → Prop
  | .apply operator operands =>
    ∃ exprs sort, operands.mapM session.expr? = some exprs ∧
      exprs.all (·.owner = session.context.id) ∧ operator.Types (exprs.map Expr.sort) sort ∧
      session.context.engine.Oversteps operator (exprs.map Expr.term)
  | _ => False

theorem Oversteps.asks (oversteps : session.Oversteps call) :
    ∃ operator exprs sort,
      (call.plan session.context.id session.expr?).ending = .ask (.apply operator exprs) sort ∧
      session.context.engine.Oversteps operator (exprs.map Expr.term) := by
  cases call with
  | apply operator operands =>
      rcases oversteps with ⟨exprs, sort, named, own, rule, beyond⟩
      refine ⟨operator, exprs, sort, ?_, beyond⟩
      have typed := Operator.resultSort_eq_ok_iff.mpr rule
      simp only [Call.plan, named, own, typed, if_true]
  | bitsSort | declare | declareBits | boolLiteral | bitsLiteral | simplify =>
      exact oversteps.elim

end Session

/-! ## Steps -/

namespace Context

end Context

/-! ## Readings of literals -/

namespace Literal

variable {build : Build} {width : Nat} {literal : Option Value}

end Literal

/-! ## Dialogues -/

namespace Session

variable {session : Session Solver} {α : Type}

end Session

end BitTerms
