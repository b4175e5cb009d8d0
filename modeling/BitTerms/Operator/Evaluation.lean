import BitTerms.Error

/-!
# Evaluation

The meaning of every operator on ground values, as the theory of fixed-width bit-vectors defines
it: division by zero gives all ones, a remainder by zero the dividend, and a shift by the width
or more leaves only fill bits. `Pattern` holds the arithmetic on bit patterns, `Operator.evaluate`
selects it.
-/

namespace BitTerms

/-! ## Arithmetic on patterns -/

namespace Pattern

def negate (width value : Nat) : Nat := truncate width (2 ^ width - value)

/-- The distance from zero in two's complement. The least number keeps its pattern, read
unsigned. -/
def magnitude (width value : Nat) : Nat :=
  if sign width value then negate width value else value

def negateIf (condition : Bool) (width value : Nat) : Nat :=
  if condition then negate width value else value

def bitwise (operation : Bitwise) (width left right : Nat) : Nat :=
  match operation with
  | .and => left &&& right
  | .or => left ||| right
  | .xor => left ^^^ right
  | .nand => (left &&& right) ^^^ ones width
  | .nor => (left ||| right) ^^^ ones width
  | .xnor => (left ^^^ right) ^^^ ones width

def ring (operation : RingOp) (width left right : Nat) : Nat :=
  match operation with
  | .add => truncate width (left + right)
  | .sub => truncate width (left + negate width right)
  | .mul => truncate width (left * right)

/-- The quotient, all ones for a division by zero. -/
def quotient (width left right : Nat) : Nat :=
  if right = 0 then ones width else left / right

/-- The remainder, the dividend for a division by zero. -/
def remainder (left right : Nat) : Nat :=
  if right = 0 then left else left % right

/-- The remainder that takes the sign of the divisor. A remainder of the magnitudes other than
zero is moved by the divisor where the signs differ. -/
def modulus (width left right : Nat) : Nat :=
  let rest := remainder (magnitude width left) (magnitude width right)
  if rest = 0 then
    0
  else
    match sign width left, sign width right with
    | false, false => rest
    | true, false => truncate width (negate width rest + right)
    | false, true => truncate width (rest + right)
    | true, true => negate width rest

/-- Quotients and remainders. The signed ones work on magnitudes. -/
def divide (operation : Division) (width left right : Nat) : Nat :=
  match operation with
  | .unsignedQuotient => quotient width left right
  | .unsignedRemainder => remainder left right
  | .signedQuotient =>
    negateIf (sign width left != sign width right) width
      (quotient width (magnitude width left) (magnitude width right))
  | .signedRemainder =>
    negateIf (sign width left) width
      (remainder (magnitude width left) (magnitude width right))
  | .signedModulus => modulus width left right

/-- Shifts. An amount of the width or more shifts every bit out. -/
def shift (operation : Shift) (width value amount : Nat) : Nat :=
  match operation with
  | .left => if amount < width then truncate width (value <<< amount) else 0
  | .logicalRight => if amount < width then value >>> amount else 0
  | .arithmeticRight =>
    let fill := if sign width value then ones width else 0
    if amount < width then (value >>> amount) ||| (fill ^^^ (fill >>> amount)) else fill

def rotateLeft (width value amount : Nat) : Nat :=
  truncate width (value <<< amount) ||| (value >>> (width - amount))

/-- Rotations, by the amount modulo the width. A rotation to the right is the rotation to the
left by what is missing to the width. -/
def rotate (direction : Rotation) (width value amount : Nat) : Nat :=
  match direction with
  | .left => rotateLeft width value (amount % width)
  | .right => rotateLeft width value ((width - amount % width) % width)

def concat (rightWidth left right : Nat) : Nat := (left <<< rightWidth) ||| right

def extract (width low value : Nat) : Nat := truncate width (value >>> low)

/-- The pattern in `width + extra` bits that stands for the same number. -/
def extend (reading : Reading) (extra width value : Nat) : Nat :=
  match reading with
  | .unsigned => value
  | .signed => ofInt (width + extra) (signed width value)

def replicate (count width value : Nat) : Nat :=
  Nat.repeat (fun copies => concat width copies value) count 0

end Pattern

/-! ## Predicates -/

def Comparison.holds (left right : Int) : Comparison → Bool
  | .less => left < right
  | .lessEqual => left ≤ right
  | .greaterEqual => left ≥ right
  | .greater => left > right

def RingOp.exact (left right : Int) : RingOp → Int
  | .add => left + right
  | .sub => left - right
  | .mul => left * right

namespace Pattern

/-- Whether the ring operation leaves the range of the reading. An unsigned sum or product does
when it has more digits than the width, an unsigned difference when it is negative. -/
def overflows (operation : RingOp) (reading : Reading) (width left right : Nat) : Bool :=
  match operation, reading with
  | .add, .unsigned => width < bitLength (left + right)
  | .sub, .unsigned => left < right
  | .mul, .unsigned => width < bitLength (left * right)
  | operation, .signed =>
    !decide (Reading.signed.Fits width (operation.exact (signed width left) (signed width right)))

def least (width : Nat) : Nat := 2 ^ (width - 1)

def compare (relation : Comparison) (reading : Reading) (width left right : Nat) : Bool :=
  relation.holds (reading.read width left) (reading.read width right)

/-- Whether the signed quotient leaves the range: the least number divided by minus one. -/
def quotientOverflows (width left right : Nat) : Bool :=
  left = least width && right = ones width

end Pattern

/-! ## Operators -/

namespace Value

def asBits : Value → Except Error (Nat × Nat)
  | .bits width pattern => .ok (width, pattern)
  | given => .error (.expectedBits given)

def asBool : Value → Except Error Bool
  | .bool value => .ok value
  | given => .error (.expectedBool given)

end Value

/-- The truth value of two operands joined. The right operand is looked at only where the left
one leaves the result open. -/
def Connective.evaluate (left right : Value) : Connective → Except Error Bool
  | .and => do if ← left.asBool then right.asBool else return false
  | .or => do if ← left.asBool then return true else right.asBool
  | .xor => do return (← left.asBool) != (← right.asBool)
  | .implies => do if ← left.asBool then right.asBool else return true

namespace Value

def onBits (operand : Value) (result : (width value : Nat) → Value) : Except Error Value := do
  let (width, value) ← operand.asBits
  return result width value

/-- The result of a function on two patterns. The width that governs it is that of the left
one. -/
def onPatterns (left right : Value) (result : (width left right : Nat) → Value) :
    Except Error Value := do
  let (width, left) ← left.asBits
  let (_, right) ← right.asBits
  return result width left right

end Value

def Operator.evaluate (operator : Operator) (operands : List Value) : Except Error Value :=
  match operator, operands with
  | .complement, [operand] =>
    operand.onBits fun width value => .bits width (value ^^^ Pattern.ones width)
  | .negate, [operand] =>
    operand.onBits fun width value => .bits width (Pattern.negate width value)
  | .bitwise operation, [left, right] =>
    left.onPatterns right fun width left right =>
      .bits width (Pattern.bitwise operation width left right)
  | .ring operation, [left, right] =>
    left.onPatterns right fun width left right =>
      .bits width (Pattern.ring operation width left right)
  | .divide operation, [left, right] =>
    left.onPatterns right fun width left right =>
      .bits width (Pattern.divide operation width left right)
  | .shift operation, [value, amount] =>
    value.onPatterns amount fun width value amount =>
      .bits width (Pattern.shift operation width value amount)
  | .rotate direction, [value, amount] =>
    value.onPatterns amount fun width value amount =>
      .bits width (Pattern.rotate direction width value amount)
  | .compare relation reading, [left, right] =>
    left.onPatterns right fun width left right =>
      .bool (Pattern.compare relation reading width left right)
  | .overflows operation reading, [left, right] =>
    left.onPatterns right fun width left right =>
      .bool (Pattern.overflows operation reading width left right)
  | .quotientOverflows, [left, right] =>
    left.onPatterns right fun width left right =>
      .bool (Pattern.quotientOverflows width left right)
  | .negationOverflows, [operand] =>
    operand.onBits fun width value => .bool (value = Pattern.least width)
  | .concat, [left, right] => do
    let (leftWidth, left) ← left.asBits
    let (rightWidth, right) ← right.asBits
    return .bits (leftWidth + rightWidth) (Pattern.concat rightWidth left right)
  | .extract high low, [operand] =>
    operand.onBits fun _ value =>
      .bits (high + 1 - low) (Pattern.extract (high + 1 - low) low value)
  | .extend reading extra, [operand] =>
    operand.onBits fun width value =>
      .bits (width + extra) (Pattern.extend reading extra width value)
  | .replicate count, [operand] =>
    operand.onBits fun width value =>
      .bits (width * count) (Pattern.replicate count width value)
  | .toInt reading, [operand] =>
    operand.onBits fun width value => .int (reading.read width value)
  | .equal, [left, right] => .ok (.bool (left = right))
  | .ite, [condition, left, right] => do
    return if ← condition.asBool then left else right
  | .not, [operand] => do
    return .bool !(← operand.asBool)
  | .connective operation, [left, right] => do
    return .bool (← operation.evaluate left right)
  | _, _ => .error (.operandCount operator operands.length)

end BitTerms
