import BitTerms.Proofs.Operator.Soundness

/-!
# Evaluation in machine words

Widths and indices are machine words of 32 bits, and patterns have no sign. So a sum or product of
words has to stay below `wordLimit`, a difference must not be negative, and nothing may be reduced
modulo zero. `Operator.evaluateInWords` is the evaluation that gives nothing where one of these
steps leaves its range. On operands that the typing rules accept it is the evaluation over
unbounded numbers: `Operator.Types.evaluateInWords_eq`.
-/

namespace BitTerms

/-! ## Checked arithmetic -/

namespace Word

def add? (left right : Nat) : Option Nat :=
  if left + right < wordLimit then some (left + right) else none

def mul? (left right : Nat) : Option Nat :=
  if left * right < wordLimit then some (left * right) else none

def sub? (left right : Nat) : Option Nat :=
  if right ≤ left then some (left - right) else none

def mod? (left right : Nat) : Option Nat :=
  if right = 0 then none else some (left % right)

variable {left right : Nat}

theorem add?_of_lt (inRange : left + right < wordLimit) : add? left right = some (left + right) :=
  if_pos inRange

theorem mul?_of_lt (inRange : left * right < wordLimit) : mul? left right = some (left * right) :=
  if_pos inRange

theorem sub?_of_le (inRange : right ≤ left) : sub? left right = some (left - right) :=
  if_pos inRange

theorem mod?_of_pos (positive : 0 < right) : mod? left right = some (left % right) :=
  if_neg (by omega)

end Word

/-! ## Patterns -/

namespace Pattern

open Word

def sign? (width value : Nat) : Option Bool := do
  return value.testBit (← sub? width 1)

def signed? (width value : Nat) : Option Int := do
  if ← sign? width value then return (value : Int) - (2 ^ width : Nat) else return value

def negate? (width value : Nat) : Option Nat := do
  return truncate width (← sub? (2 ^ width) value)

def magnitude? (width value : Nat) : Option Nat := do
  if ← sign? width value then negate? width value else return value

def negateIf? (condition : Bool) (width value : Nat) : Option Nat :=
  if condition then negate? width value else some value

def least? (width : Nat) : Option Nat := do
  return 2 ^ (← sub? width 1)

def ring? (operation : RingOp) (width left right : Nat) : Option Nat :=
  match operation with
  | .sub => do return truncate width (left + (← negate? width right))
  | operation => some (ring operation width left right)

def modulus? (width left right : Nat) : Option Nat := do
  let rest := remainder (← magnitude? width left) (← magnitude? width right)
  if rest = 0 then
    return 0
  else
    match ← sign? width left, ← sign? width right with
    | false, false => return rest
    | true, false => return truncate width ((← negate? width rest) + right)
    | false, true => return truncate width (rest + right)
    | true, true => negate? width rest

def divide? (operation : Division) (width left right : Nat) : Option Nat :=
  match operation with
  | .signedQuotient => do
    let quotient := quotient width (← magnitude? width left) (← magnitude? width right)
    negateIf? ((← sign? width left) != (← sign? width right)) width quotient
  | .signedRemainder => do
    let rest := remainder (← magnitude? width left) (← magnitude? width right)
    negateIf? (← sign? width left) width rest
  | .signedModulus => modulus? width left right
  | operation => some (divide operation width left right)

/-- The amount of a shift as a word, if it is below the width. -/
def shiftAmount? (width amount : Nat) : Option Nat :=
  (if amount < wordLimit then some amount else none).filter (· < width)

def shift? (operation : Shift) (width value amount : Nat) : Option Nat :=
  match operation with
  | .left =>
    some (((shiftAmount? width amount).map fun amount => truncate width (value <<< amount)).getD 0)
  | .logicalRight => some (((shiftAmount? width amount).map (value >>> ·)).getD 0)
  | .arithmeticRight => do
    let fill := if ← sign? width value then ones width else 0
    return ((shiftAmount? width amount).map fun amount =>
      (value >>> amount) ||| (fill ^^^ (fill >>> amount))).getD fill

def rotateLeft? (width value amount : Nat) : Option Nat := do
  return truncate width (value <<< amount) ||| (value >>> (← sub? width amount))

def rotate? (direction : Rotation) (width value amount : Nat) : Option Nat := do
  let amount ← mod? amount width
  match direction with
  | .left => rotateLeft? width value amount
  | .right => do rotateLeft? width value (← mod? (← sub? width amount) width)

def compare? (relation : Comparison) (reading : Reading) (width left right : Nat) :
    Option Bool :=
  match reading with
  | .unsigned => some (relation.holds left right)
  | .signed => do return relation.holds (← signed? width left) (← signed? width right)

def overflows? (operation : RingOp) (reading : Reading) (width left right : Nat) :
    Option Bool :=
  match reading with
  | .unsigned => some (overflows operation .unsigned width left right)
  | .signed => do
    let exact := operation.exact (← signed? width left) (← signed? width right)
    let least ← least? width
    return !decide (-(least : Int) ≤ exact ∧ exact < least)

end Pattern

open Word Pattern in
/-- The value of an application, if every word that is computed on the way is in its range. The
operators that are not listed compute no words. -/
def Operator.evaluateInWords (operator : Operator) (operands : List Value) : Option Value :=
  match operator, operands with
  | .negate, [.bits width value] => do return .bits width (← negate? width value)
  | .ring operation, [.bits width left, .bits _ right] => do
    return .bits width (← ring? operation width left right)
  | .divide operation, [.bits width left, .bits _ right] => do
    return .bits width (← divide? operation width left right)
  | .shift operation, [.bits width value, .bits _ amount] => do
    return .bits width (← shift? operation width value amount)
  | .rotate direction, [.bits width value, .bits _ amount] => do
    return .bits width (← rotate? direction width value amount)
  | .compare relation reading, [.bits width left, .bits _ right] => do
    return .bool (← compare? relation reading width left right)
  | .overflows operation reading, [.bits width left, .bits _ right] => do
    return .bool (← overflows? operation reading width left right)
  | .quotientOverflows, [.bits width left, .bits _ right] => do
    let least ← least? width
    return .bool (left = least && right = ones width)
  | .negationOverflows, [.bits width value] => do
    let least ← least? width
    return .bool (value = least)
  | .concat, [.bits leftWidth left, .bits rightWidth right] => do
    return .bits (← add? leftWidth rightWidth) (Pattern.concat rightWidth left right)
  | .extract high low, [.bits _ value] => do
    let width ← add? (← sub? high low) 1
    return .bits width (Pattern.extract width low value)
  | .extend .unsigned extra, [.bits width value] => do
    return .bits (← add? width extra) value
  | .extend .signed extra, [.bits width value] => do
    let wider ← add? width extra
    return .bits wider (ofInt wider (← signed? width value))
  | .replicate count, [.bits width value] => do
    return .bits (← mul? width count) (Pattern.replicate count width value)
  | .toInt .signed, [.bits width value] => do return .int (← signed? width value)
  | operator, operands => (operator.evaluate operands).toOption

/-! ## Patterns within their width -/

namespace Pattern

open Word

variable {width value left right : Nat}

theorem sign?_eq (positive : 0 < width) (value : Nat) :
    sign? width value = some (sign width value) := by
  simp only [sign?, sub?_of_le positive]
  rfl

theorem signed?_eq (positive : 0 < width) (value : Nat) :
    signed? width value = some (signed width value) := by
  simp only [signed?, sign?_eq positive, signed]
  cases sign width value <;> rfl

theorem negate?_eq (fits : value < 2 ^ width) :
    negate? width value = some (negate width value) := by
  simp only [negate?, sub?_of_le (Nat.le_of_lt fits)]
  rfl

theorem negateIf?_eq (condition : Bool) (fits : value < 2 ^ width) :
    negateIf? condition width value = some (negateIf condition width value) := by
  cases condition with
  | false => rfl
  | true => exact negate?_eq fits

theorem magnitude?_eq (positive : 0 < width) (fits : value < 2 ^ width) :
    magnitude? width value = some (magnitude width value) := by
  simp only [magnitude?, sign?_eq positive, magnitude]
  cases sign width value with
  | false => rfl
  | true => exact negate?_eq fits

theorem least?_eq (positive : 0 < width) : least? width = some (least width) := by
  simp only [least?, sub?_of_le positive]
  rfl

theorem ring?_eq (operation : RingOp) (rightFits : right < 2 ^ width) :
    ring? operation width left right = some (ring operation width left right) := by
  cases operation with
  | add | mul => rfl
  | sub =>
      simp only [ring?, negate?_eq rightFits]
      rfl

theorem modulus?_eq (positive : 0 < width) (leftFits : left < 2 ^ width)
    (rightFits : right < 2 ^ width) :
    modulus? width left right = some (modulus width left right) := by
  have fits : remainder (magnitude width left) (magnitude width right) < 2 ^ width :=
    remainder_lt (magnitude_lt leftFits)
  simp only [modulus?, magnitude?_eq positive leftFits, magnitude?_eq positive rightFits,
    sign?_eq positive, Option.bind_eq_bind, Option.bind_some, modulus]
  split
  case isTrue => rfl
  case isFalse =>
      cases sign width left <;> cases sign width right
      case true.false | true.true => simp [negate?_eq fits]
      case false.false | false.true => rfl

theorem divide?_eq (operation : Division) (positive : 0 < width) (leftFits : left < 2 ^ width)
    (rightFits : right < 2 ^ width) :
    divide? operation width left right = some (divide operation width left right) := by
  have magnitudeFits := magnitude_lt leftFits
  cases operation with
  | unsignedQuotient | unsignedRemainder => rfl
  | signedQuotient =>
      simp only [divide?, magnitude?_eq positive leftFits, magnitude?_eq positive rightFits,
        sign?_eq positive, Option.bind_eq_bind, Option.bind_some]
      exact negateIf?_eq _ (quotient_lt magnitudeFits)
  | signedRemainder =>
      simp only [divide?, magnitude?_eq positive leftFits, magnitude?_eq positive rightFits,
        sign?_eq positive, Option.bind_eq_bind, Option.bind_some]
      exact negateIf?_eq _ (remainder_lt magnitudeFits)
  | signedModulus => exact modulus?_eq positive leftFits rightFits

theorem shiftAmount?_eq (word : width < wordLimit) (amount : Nat) :
    shiftAmount? width amount = if amount < width then some amount else none := by
  unfold shiftAmount?
  by_cases inside : amount < width
  · have amountWord : amount < wordLimit := by omega
    simp [inside, amountWord]
  · rw [if_neg inside]
    split <;> simp [Nat.le_of_not_lt inside]

theorem shift?_eq (operation : Shift) (positive : 0 < width) (word : width < wordLimit)
    (value amount : Nat) :
    shift? operation width value amount = some (shift operation width value amount) := by
  cases operation with
  | left | logicalRight =>
      simp only [shift?, shift, shiftAmount?_eq word]
      split <;> rfl
  | arithmeticRight =>
      simp only [shift?, shift, shiftAmount?_eq word, sign?_eq positive, Option.bind_eq_bind,
        Option.bind_some]
      by_cases inside : amount < width
      · rw [if_pos inside, if_pos inside]
        rfl
      · rw [if_neg inside, if_neg inside]
        rfl

theorem rotateLeft?_eq {amount : Nat} (inside : amount < width) (value : Nat) :
    rotateLeft? width value amount = some (rotateLeft width value amount) := by
  simp only [rotateLeft?, sub?_of_le (Nat.le_of_lt inside)]
  rfl

theorem rotate?_eq (direction : Rotation) (positive : 0 < width) (value amount : Nat) :
    rotate? direction width value amount = some (rotate direction width value amount) := by
  have inside := Nat.mod_lt amount positive
  have missing := Nat.mod_lt (width - amount % width) positive
  cases direction with
  | left =>
      simp only [rotate?, mod?_of_pos positive, Option.bind_eq_bind, Option.bind_some]
      exact rotateLeft?_eq inside value
  | right =>
      simp only [rotate?, mod?_of_pos positive, sub?_of_le (Nat.le_of_lt inside),
        Option.bind_eq_bind, Option.bind_some]
      exact rotateLeft?_eq missing value

theorem compare?_eq (relation : Comparison) (reading : Reading) (positive : 0 < width)
    (left right : Nat) :
    compare? relation reading width left right =
      some (compare relation reading width left right) := by
  cases reading with
  | unsigned => rfl
  | signed =>
      simp only [compare?, signed?_eq positive]
      rfl

theorem overflows?_eq (operation : RingOp) (reading : Reading) (positive : 0 < width)
    (left right : Nat) :
    overflows? operation reading width left right =
      some (overflows operation reading width left right) := by
  cases reading with
  | unsigned => rfl
  | signed =>
      simp only [overflows?, signed?_eq positive, least?_eq positive]
      cases operation <;> rfl

end Pattern

/-! ## Evaluation -/

open Word Pattern in
/-- On operands that the typing rules accept, every word that is computed is in its range. -/
theorem Operator.Types.evaluateInWords_eq {operator : Operator} {sorts : List SmtSort}
    {sort : SmtSort} {values : List Value} (rule : operator.Types sorts sort)
    (operands : List.Forall₂ Value.HasSort values sorts) :
    operator.evaluateInWords values = (operator.evaluate values).toOption := by
  cases rule with
  | complement | bitwise | equal | ite | not | connective => rfl
  | negate width =>
      rcases Value.exists_pattern operands with ⟨pattern, rfl, fits⟩
      simp only [evaluateInWords, negate?_eq fits]
      rfl
  | ring operation width =>
      rcases Value.exists_two_patterns operands with ⟨left, right, rfl, -, rightFits⟩
      simp only [evaluateInWords, ring?_eq operation rightFits]
      rfl
  | divide operation width =>
      rcases Value.exists_two_patterns operands with ⟨left, right, rfl, leftFits, rightFits⟩
      simp only [evaluateInWords, divide?_eq operation width.pos leftFits rightFits]
      rfl
  | shift operation width =>
      rcases Value.exists_two_patterns operands with ⟨value, amount, rfl, -, -⟩
      simp only [evaluateInWords, shift?_eq operation width.pos width.lt_wordLimit]
      rfl
  | rotate direction width =>
      rcases Value.exists_two_patterns operands with ⟨value, amount, rfl, -, -⟩
      simp only [evaluateInWords, rotate?_eq direction width.pos]
      rfl
  | compare relation reading width =>
      rcases Value.exists_two_patterns operands with ⟨left, right, rfl, -, -⟩
      simp only [evaluateInWords, compare?_eq relation reading width.pos]
      rfl
  | overflows operation reading width =>
      rcases Value.exists_two_patterns operands with ⟨left, right, rfl, -, -⟩
      simp only [evaluateInWords, overflows?_eq operation reading width.pos]
      rfl
  | quotientOverflows width =>
      rcases Value.exists_two_patterns operands with ⟨left, right, rfl, -, -⟩
      simp only [evaluateInWords, least?_eq width.pos]
      rfl
  | negationOverflows width =>
      rcases Value.exists_pattern operands with ⟨pattern, rfl, -⟩
      simp only [evaluateInWords, least?_eq width.pos]
      rfl
  | concat leftWidth rightWidth result sum =>
      rcases Value.exists_two_patterns operands with ⟨left, right, rfl, -, -⟩
      have inRange : leftWidth.bits + rightWidth.bits < wordLimit := sum ▸ result.lt_wordLimit
      simp only [evaluateInWords, add?_of_lt inRange]
      rfl
  | extract high low width result ordered inside count =>
      rcases Value.exists_pattern operands with ⟨pattern, rfl, -⟩
      have inRange : high - low + 1 < wordLimit := count ▸ result.lt_wordLimit
      have same : high + 1 - low = high - low + 1 := by omega
      simp only [evaluateInWords, sub?_of_le ordered, Option.bind_eq_bind, Option.bind_some,
        add?_of_lt inRange, Operator.evaluate, same]
      rfl
  | extend reading extra width result sum =>
      rcases Value.exists_pattern operands with ⟨pattern, rfl, -⟩
      have inRange : width.bits + extra < wordLimit := sum ▸ result.lt_wordLimit
      cases reading with
      | unsigned =>
          simp only [evaluateInWords, add?_of_lt inRange]
          rfl
      | signed =>
          simp only [evaluateInWords, add?_of_lt inRange, signed?_eq width.pos]
          rfl
  | replicate count width result some product =>
      rcases Value.exists_pattern operands with ⟨pattern, rfl, -⟩
      have inRange : width.bits * count < wordLimit := product ▸ result.lt_wordLimit
      simp only [evaluateInWords, mul?_of_lt inRange]
      rfl
  | toInt reading width =>
      rcases Value.exists_pattern operands with ⟨pattern, rfl, -⟩
      cases reading with
      | unsigned => rfl
      | signed =>
          simp only [evaluateInWords, signed?_eq width.pos]
          rfl

end BitTerms
