import BitTerms.Error

/-!
# Typing

The sort of an application, computed from the sorts of its operands. The same rule checks the
operands: widths that differ, an extraction outside its operand and a result too wide for any
sort are refused here, before anything is built.
-/

namespace BitTerms

/-- The width of this many bits, or the reason why there is none. -/
def Width.ofNat (bits : Nat) : Except Error Width :=
  match Width.ofNat? bits with
  | some width => .ok width
  | none => .error (if bits = 0 then .zeroWidth else .widthTooLarge)

namespace Operator

def operandWidth (operator : Operator) : SmtSort → Except Error Width
  | .bits width => .ok width
  | given => .error (.notBits operator given)

def commonWidth (operator : Operator) (left right : SmtSort) : Except Error Width := do
  let left ← operator.operandWidth left
  let right ← operator.operandWidth right
  if left = right then .ok left else .error (.widthMismatch operator left right)

def resultOfWidth (operator : Operator) (bits : Nat) : Except Error SmtSort :=
  match Width.ofNat? bits with
  | some width => .ok (.bits width)
  | none => .error (.resultTooWide operator)

def requireBool (operator : Operator) (given : SmtSort) : Except Error Unit :=
  if given = .bool then .ok () else .error (.notBool operator given)

def resultSort (operator : Operator) (operands : List SmtSort) : Except Error SmtSort :=
  match operator, operands with
  | .complement, [operand] | .negate, [operand] => do
    return .bits (← operator.operandWidth operand)
  | .bitwise _, [left, right] | .ring _, [left, right] | .divide _, [left, right]
  | .shift _, [left, right] | .rotate _, [left, right] => do
    return .bits (← operator.commonWidth left right)
  | .compare _ _, [left, right] | .overflows _ _, [left, right]
  | .quotientOverflows, [left, right] => do
    let _ ← operator.commonWidth left right
    return .bool
  | .negationOverflows, [operand] => do
    let _ ← operator.operandWidth operand
    return .bool
  | .concat, [left, right] => do
    let left ← operator.operandWidth left
    let right ← operator.operandWidth right
    operator.resultOfWidth (left.bits + right.bits)
  | .extract high low, [operand] => do
    let width ← operator.operandWidth operand
    if high < low then
      throw (.extractReversed high low)
    if width.bits ≤ high then
      throw (.extractOutOfRange high width)
    operator.resultOfWidth (high - low + 1)
  | .extend _ extra, [operand] => do
    let width ← operator.operandWidth operand
    operator.resultOfWidth (width.bits + extra)
  | .replicate count, [operand] => do
    let width ← operator.operandWidth operand
    if count = 0 then
      throw .zeroReplication
    operator.resultOfWidth (width.bits * count)
  | .toInt _, [operand] => do
    let _ ← operator.operandWidth operand
    return .int
  | .equal, [left, right] =>
    if left = right then .ok .bool else .error (.equalSorts left right)
  | .ite, [condition, left, right] =>
    if condition ≠ .bool then
      .error (.iteCondition condition)
    else if left = right then
      .ok left
    else
      .error (.iteBranches left right)
  | .not, [operand] => do
    operator.requireBool operand
    return .bool
  | .connective _, [left, right] => do
    operator.requireBool left
    operator.requireBool right
    return .bool
  | _, _ => .error (.operandCount operator operands.length)

end Operator

end BitTerms
