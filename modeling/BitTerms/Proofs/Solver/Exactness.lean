import BitTerms.Proofs.Solver.ModelValues
import BitTerms.Proofs.Solver.Sorts

/-!
# Exact lowering in dialogues

When the indices of an application are exact, in every dialogue and whatever the solver replies:
exactly if the width that is found for the first operand serves the operator. Without values of a
model that is so for every application but the overflow of an unsigned product of `2 ^ 31` bits or
more. Values of a model can leave a wrong width in the account of widths, and then a predicate is
written at that width.
-/

namespace BitTerms

/-! ## Products that are too wide -/

namespace Solver

variable {solver : Solver} {left right : Expr} {width : Width}

end Solver

namespace Session

/-! ## A variable of any width -/

/-- The least width at which the upper index of an unsigned product wraps below the lower one. -/
def wide : Width := ⟨2 ^ 31 + 1, by decide, by decide⟩

/-- A session that has declared a variable of this width, and nothing else. -/
def withVariable (width : Width) : Session Solver :=
  (start 0 (Solver.opened .z3 [])).converse [.build (.declareBits "x" width.bits)]

/-- The width that is the default has one bit. -/
def bit : Width := default

end Session

end BitTerms
