import BitTerms.Proofs.SExpr.Expansions
import BitTerms.Proofs.Solver.Widths

/-!
# Indices are exact

Whether an application is written with the indices that its expansion calls for. That depends on
the width which the session finds for the first operand, and on nothing else: it has to be the
right one as far as the operator writes it, and to fit the machine words that the indices are
computed in (`Operator.Serves`, `Solver.lowersExactly_iff_serves`).
-/

namespace BitTerms

/-! ## Widths that serve -/

theorem Draft.expand_overflows (operation : RingOp) (reading : Reading) (width : Nat)
    (left right : Draft) (terms : Dag SExpr.Label) :
    (overflows operation reading width (width - 1) (topIndex operation reading width) left
        right).expand terms =
      SExpr.overflowed operation reading width (left.expand terms) (right.expand terms) := by
  cases operation <;> cases reading <;> rfl

namespace Operator

variable {build : Build} {operator : Operator} {operands : List Draft} {draft : Draft}
  {resultWidth operandWidth : Unit → Except Error Nat}

/-- The width that an operator finds for its first operand is the right one, as far as the operator
uses it, and no index leaves its range. -/
structure Serves (operator : Operator) (found width : Nat) : Prop where
  fits : operator.FitsWords found
  same : operator.WritesWidth → found = width

theorem overflowed_eq_of_same {operation : RingOp} {reading : Reading} {found width : Nat}
    (same : (overflows operation reading).WritesWidth → found = width) (left right : SExpr) :
    SExpr.overflowed operation reading found left right =
      SExpr.overflowed operation reading width left right := by
  cases operation with
  | add | mul => rw [same trivial]
  | sub =>
      cases reading with
      | unsigned => rfl
      | signed => rw [same trivial]

/-- Where the width serves the operator, the draft stands for the expansion at the right width. -/
theorem Lowered.expand_eq {width : Nat}
    (lowered : Lowered build resultWidth operandWidth operator operands draft)
    (ofResult : ∀ direction, operator = .rotate direction → resultWidth () = .ok width)
    (inRange : ∀ found, operandWidth () = .ok found → found < wordLimit)
    (serves : ∀ found, operandWidth () = .ok found → operator.Serves found width)
    (terms : Dag SExpr.Label) :
    draft.expand terms = operator.expansion width (operands.map (Draft.expand terms)) := by
  cases lowered with
  | @rotate direction _ _ _ found =>
      cases found.symm.trans (ofResult direction rfl)
      cases direction <;> rfl
  | @toInt reading _ _ found =>
      cases reading with
      | unsigned => rfl
      | signed =>
          cases (serves _ found).same trivial
          rfl
  | @overflows operation reading left right found sign top isFound isSign isTop =>
      rcases serves found isFound with ⟨fits, same⟩
      cases Word.eq_of_sub isSign fits.positive (inRange found isFound)
      cases Draft.eq_topIndex isTop fits
      rw [Draft.expand_overflows]
      exact overflowed_eq_of_same same _ _
  | @quotientOverflows left right found sign isFound isSign =>
      rcases serves found isFound with ⟨positive, same⟩
      cases Word.eq_of_sub isSign positive (inRange found isFound)
      cases same trivial
      rfl
  | @negationOverflows value found sign isFound isSign =>
      rcases serves found isFound with ⟨positive, same⟩
      cases Word.eq_of_sub isSign positive (inRange found isFound)
      cases same trivial
      rfl
  | native native count =>
      rw [Draft.expand_native, native.expansion_eq]
      rfl

end Operator

namespace Solver

variable {solver next : Solver} {operator : Operator} {operands : List Expr} {sort : SmtSort}
  {term : Nat}

/-! ## Exact applications -/

def declaredSort? (solver : Solver) (name : String) : Option SmtSort :=
  (solver.declared[name]?).map Prod.fst

/-- The term is a well-sorted s-expression of this sort. -/
def WellSorts (solver : Solver) (term : Nat) (sort : SmtSort) : Prop :=
  (SExpr.ofShared solver.terms term).WellSorted solver.declaredSort? sort.widen

/-- What an application is drafted as by a program that checks every index it computes. -/
def draftInWords (solver : Solver) (operator : Operator) (operands : List Nat)
    (result : SmtSort) : Except Error Draft :=
  operator.lower .checked (operands.map .term) (fun _ => widthOfResult operator result)
    (fun _ => solver.widthOf (operands.headD 0))

def expansion (solver : Solver) (operator : Operator) (width : Nat) (operands : List Expr) :
    SExpr :=
  operator.expansion width (operands.map fun operand => SExpr.ofShared solver.terms operand.term)

/-- No index of the application wraps: none leaves its range when it is computed, and if a term
comes of it, then one that is written with the exact indices of the expansion, and that is
well-sorted if the operands are. -/
structure LowersExactly (solver : Solver) (operator : Operator) (operands : List Expr)
    (sort : SmtSort) : Prop where
  inWords : solver.draftInWords operator (operands.map Expr.term) sort ≠ .error .wordOverflow
  written : ∀ term next, apply operator (operands.map Expr.term) sort solver = .ok term next →
    SExpr.ofShared next.terms term =
      solver.expansion operator (Operator.firstWidth (operands.map Expr.sort)) operands
  wellSorted : ∀ term next, apply operator (operands.map Expr.term) sort solver = .ok term next →
    (∀ operand ∈ operands, solver.WellSorts operand.term operand.sort) → next.WellSorts term sort

/-! ## Widths that are found -/

theorem exists_applied_of_draft (shared : solver.terms.WellFormed)
    (inside : ∀ operand ∈ operands, operand.term < solver.terms.size) {draft : Draft}
    (drafted : solver.draft operator (operands.map Expr.term) sort = .ok draft) :
    ∃ term next, apply operator (operands.map Expr.term) sort solver = .ok term next ∧
      SExpr.Shared solver.terms next.terms term (draft.expand solver.terms) ∧
      next.declared = solver.declared := by
  have draftInside := inside_of_draft (by simpa using inside) drafted
  rcases apply_of_draft drafted with ⟨widths, applied, -⟩
  exact ⟨_, _, applied, draft.shared_share shared draftInside, rfl⟩

section

variable (rule : operator.Types (operands.map Expr.sort) sort)

include rule

theorem length_drafts :
    ((operands.map Expr.term).map Draft.term).length = operator.arity := by
  simpa using rule.length_eq

/-- The draft stands for the expansion at this width, if it serves the operator. -/
theorem expand_draft {draft : Draft} {width : Nat}
    (drafted : solver.draft operator (operands.map Expr.term) sort = .ok draft)
    (ofResult : ∀ direction, operator = .rotate direction →
      width = Operator.firstWidth (operands.map Expr.sort))
    (serves : ∀ found, solver.widthOf ((operands.map Expr.term).headD 0) = .ok found →
      operator.Serves found width) :
    draft.expand solver.terms = solver.expansion operator width operands := by
  have resultWidth (direction : Rotation) (rotates : operator = .rotate direction) :
      widthOfResult operator sort = .ok width := by
    rw [ofResult direction rotates]
    subst rotates
    generalize operands.map Expr.sort = sorts at rule
    cases rule
    rfl
  rw [(Operator.lower_eq_ok_iff.mp drafted).expand_eq resultWidth (fun _ => widthOf_lt) serves,
    expansion, List.map_map, List.map_map]
  rfl

/-- An operator that writes a width is written with the one that is found. -/
theorem exists_written (shared : solver.terms.WellFormed)
    (inside : ∀ operand ∈ operands, operand.term < solver.terms.size) {found : Nat}
    (isFound : solver.widthOf ((operands.map Expr.term).headD 0) = .ok found)
    (writes : operator.WritesWidth) (fits : operator.FitsWords found) :
    ∃ term next, apply operator (operands.map Expr.term) sort solver = .ok term next ∧
      SExpr.ofShared next.terms term = solver.expansion operator found operands := by
  have notRotation (direction : Rotation) (rotates : operator = .rotate direction) :
      ∃ width, widthOfResult operator sort = .ok width := by
    subst rotates
    exact writes.elim
  obtain ⟨draft, lowered⟩ : ∃ draft, Operator.Lowered solver.build
      (fun _ => widthOfResult operator sort)
      (fun _ => solver.widthOf ((operands.map Expr.term).headD 0)) operator
      ((operands.map Expr.term).map Draft.term) draft :=
    Operator.exists_lowered (length_drafts rule) notRotation fun _ =>
      ⟨found, isFound, widthOf_lt isFound, fun _ => fits⟩
  have drafted : solver.draft operator (operands.map Expr.term) sort = .ok draft :=
    Operator.lower_eq_ok_iff.mpr lowered
  rcases exists_applied_of_draft shared inside drafted with ⟨term, next, applied, written, -⟩
  refine ⟨term, next, applied, written.ofShared_eq.trans ?_⟩
  refine expand_draft rule drafted ?_ fun other isOther => ?_
  · rintro direction rfl
    exact writes.elim
  · cases isFound.symm.trans isOther
    exact ⟨fits, fun _ => rfl⟩

/-- A width that is found serves the operator if no index wraps. -/
theorem LowersExactly.serves (exact : solver.LowersExactly operator operands sort)
    (shared : solver.terms.WellFormed)
    (inside : ∀ operand ∈ operands, operand.term < solver.terms.size) {found : Nat}
    (isFound : solver.widthOf ((operands.map Expr.term).headD 0) = .ok found) :
    operator.Serves found (Operator.firstWidth (operands.map Expr.sort)) := by
  have fits : operator.FitsWords found := Classical.byContradiction fun misfit =>
    exact.inWords
      (Operator.lower_of_misfit (length_drafts rule) isFound (widthOf_lt isFound) misfit)
  refine ⟨fits, fun writes => ?_⟩
  rcases exists_written rule shared inside isFound writes fits with
    ⟨term, next, applied, atFound⟩
  have same := atFound.symm.trans (exact.written term next applied)
  rcases writes.exists_width rule with ⟨width, isWidth⟩
  refine writes.width_eq ?_ fits (widthOf_lt isFound) ?_ ?_ same
  · simpa using rule.length_eq
  · exact isWidth ▸ width.pos
  · exact isWidth ▸ width.lt_wordLimit

end

end Solver

end BitTerms
