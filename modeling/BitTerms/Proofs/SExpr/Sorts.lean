import BitTerms.Proofs.Operator.Signatures
import BitTerms.Proofs.SExpr.Widths

/-!
# Sorts of s-expressions

When an s-expression is well-sorted for a solver, given the sorts of the declared variables: a
numeral is strictly one, the words of the truth values are taken, and a function is applied to
operands of its rank. Ranks are over sorts of any width, since what an operator is written with may
be wider than any sort. So an extraction whose indices are reversed has no sort at all.
-/

namespace BitTerms

deriving instance DecidableEq for WideSort

/-! ## Ranks -/

/-- The sort of an application, for operands of any width. Only the operators that SMT-LIB has
under their own names, and `bv2nat`, are functions there. -/
def Operator.rank? : Operator → List WideSort → Option WideSort
  | .complement, [.bits width] | .negate, [.bits width] => some (.bits width)
  | .bitwise _, [.bits left, .bits right] | .ring _, [.bits left, .bits right]
  | .divide _, [.bits left, .bits right] | .shift _, [.bits left, .bits right] =>
    if left = right then some (.bits left) else none
  | .compare _ _, [.bits left, .bits right] => if left = right then some .bool else none
  | .concat, [.bits left, .bits right] => some (.bits (left + right))
  | .extract high low, [.bits width] =>
    if low ≤ high ∧ high < width then some (.bits (high - low + 1)) else none
  | .extend _ extra, [.bits width] => some (.bits (width + extra))
  | .replicate count, [.bits width] => if 1 ≤ count then some (.bits (width * count)) else none
  | .toInt .unsigned, [.bits _] => some .int
  | .equal, [left, right] => if left = right then some .bool else none
  | .ite, [.bool, left, right] => if left = right then some left else none
  | .not, [.bool] | .connective _, [.bool, .bool] => some .bool
  | _, _ => none

def Function.rank? : Function → List WideSort → Option WideSort
  | .native operator, operands => operator.rank? operands
  | .difference, [.int, .int] => some .int
  | .difference, _ => none

namespace SExpr

/-! ## Well-sorted s-expressions -/

/-- The s-expression is well-sorted, of this sort. -/
inductive WellSorted (declared : String → Option SmtSort) : SExpr → WideSort → Prop
  | bits {expr : SExpr} {width value : Nat} (numeral : expr.IsBits width value) :
      WellSorted declared expr (.bits width)
  | int {expr : SExpr} {value : Int} (numeral : expr.IsInt value) : WellSorted declared expr .int
  | truth (value : Bool) : WellSorted declared (.symbol (Numeral.boolText value)) .bool
  | variable {name : String} {sort : SmtSort} (notTrue : name ≠ "true") (notFalse : name ≠ "false")
      (found : declared name = some sort) :
      WellSorted declared (.symbol (Symbol.text name)) sort.widen
  | apply {head : SExpr} {function : Function} {operands : List SExpr} {sorts : List WideSort}
      {sort : WideSort} (named : head.function? = some function)
      (count : operands.length = sorts.length)
      (each : ∀ operand operandSort, (operand, operandSort) ∈ operands.zip sorts →
        WellSorted declared operand operandSort)
      (ranked : function.rank? sorts = some sort) :
      WellSorted declared (.list (head :: operands)) sort

variable {declared later : String → Option SmtSort} {expr head operand left right : SExpr}
  {operands : List SExpr} {sort : WideSort} {sorts : List WideSort} {operator : Operator}

/-- What is declared later does not change the sorts. -/
theorem WellSorted.mono (grows : ∀ name sort, declared name = some sort → later name = some sort)
    (sorted : WellSorted declared expr sort) : WellSorted later expr sort := by
  induction sorted with
  | bits numeral => exact .bits numeral
  | int numeral => exact .int numeral
  | truth value => exact .truth value
  | «variable» notTrue notFalse found => exact .variable notTrue notFalse (grows _ _ found)
  | apply named count each ranked induction => exact .apply named count induction ranked

/-- An application under the operator's own name. -/
def applied (operator : Operator) (operands : List SExpr) : SExpr :=
  .list (operator.expr :: operands)

theorem operands_eq_of_applied {other : Operator} {others : List SExpr}
    (same : applied operator operands = applied other others) : operands = others :=
  (List.cons.inj (SExpr.list.inj same)).2

theorem operator_eq_of_applied {other : Operator} {others : List SExpr}
    (native : operator.IsNative) (nativeToo : other.IsNative)
    (same : applied operator operands = applied other others) : operator = other :=
  native.eq_of_expr nativeToo (List.cons.inj (SExpr.list.inj same)).1

end SExpr

end BitTerms
