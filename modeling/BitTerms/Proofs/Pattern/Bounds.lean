import BitTerms.Operator.Evaluation

/-!
# Patterns stay within their width

Every operation on patterns below `2 ^ width` gives a pattern that fits the width of its result.
The signed operations keep this because the magnitude of the least number is its own pattern.
-/

namespace BitTerms.Pattern

variable {width value left right : Nat}

theorem truncate_lt (width value : Nat) : truncate width value < 2 ^ width :=
  Nat.mod_lt value (Nat.two_pow_pos width)

theorem truncate_of_lt (fits : value < 2 ^ width) : truncate width value = value :=
  Nat.mod_eq_of_lt fits

theorem ones_lt (width : Nat) : ones width < 2 ^ width := by
  have := Nat.two_pow_pos width
  simp only [ones]
  omega

theorem least_lt (positive : 0 < width) : least width < 2 ^ width :=
  Nat.pow_lt_pow_right (by decide) (Nat.sub_lt positive Nat.one_pos)

theorem negate_lt (width value : Nat) : negate width value < 2 ^ width := truncate_lt _ _

theorem magnitude_lt (fits : value < 2 ^ width) : magnitude width value < 2 ^ width := by
  unfold magnitude
  split
  · exact negate_lt width value
  · exact fits

theorem negateIf_lt (condition : Bool) (fits : value < 2 ^ width) :
    negateIf condition width value < 2 ^ width := by
  cases condition with
  | false => exact fits
  | true => exact negate_lt width value

theorem ofInt_lt (width : Nat) (value : Int) : ofInt width value < 2 ^ width := by
  have positive := Nat.two_pow_pos width
  have bound := Int.emod_lt_of_pos value (b := (2 ^ width : Nat)) (by omega)
  have natural := Int.emod_nonneg value (b := (2 ^ width : Nat)) (by omega)
  rw [ofInt_eq_emod]
  omega

/-! ## The operations -/

theorem bitwise_lt (operation : Bitwise) (leftFits : left < 2 ^ width)
    (rightFits : right < 2 ^ width) : bitwise operation width left right < 2 ^ width := by
  have conjunction : left &&& right < 2 ^ width := Nat.and_lt_two_pow left rightFits
  have disjunction : left ||| right < 2 ^ width := Nat.or_lt_two_pow leftFits rightFits
  have difference : left ^^^ right < 2 ^ width := Nat.xor_lt_two_pow leftFits rightFits
  cases operation with
  | and => exact conjunction
  | or => exact disjunction
  | xor => exact difference
  | nand => exact Nat.xor_lt_two_pow conjunction (ones_lt width)
  | nor => exact Nat.xor_lt_two_pow disjunction (ones_lt width)
  | xnor => exact Nat.xor_lt_two_pow difference (ones_lt width)

theorem ring_lt (operation : RingOp) (width left right : Nat) :
    ring operation width left right < 2 ^ width := by
  cases operation <;> exact truncate_lt _ _

theorem quotient_lt (leftFits : left < 2 ^ width) : quotient width left right < 2 ^ width := by
  unfold quotient
  split
  · exact ones_lt width
  · exact Nat.lt_of_le_of_lt (Nat.div_le_self left right) leftFits

theorem remainder_lt (leftFits : left < 2 ^ width) : remainder left right < 2 ^ width := by
  unfold remainder
  split
  · exact leftFits
  · exact Nat.lt_of_le_of_lt (Nat.mod_le left right) leftFits

theorem modulus_lt (leftFits : left < 2 ^ width) : modulus width left right < 2 ^ width := by
  have rest : remainder (magnitude width left) (magnitude width right) < 2 ^ width :=
    remainder_lt (magnitude_lt leftFits)
  simp only [modulus]
  split
  · exact Nat.two_pow_pos width
  · split
    · exact rest
    · exact truncate_lt _ _
    · exact truncate_lt _ _
    · exact negate_lt _ _

theorem divide_lt (operation : Division) (leftFits : left < 2 ^ width) :
    divide operation width left right < 2 ^ width := by
  cases operation with
  | unsignedQuotient => exact quotient_lt leftFits
  | unsignedRemainder => exact remainder_lt leftFits
  | signedQuotient => exact negateIf_lt _ (quotient_lt (magnitude_lt leftFits))
  | signedRemainder => exact negateIf_lt _ (remainder_lt (magnitude_lt leftFits))
  | signedModulus => exact modulus_lt leftFits

theorem shiftRight_lt (fits : value < 2 ^ width) (amount : Nat) :
    value >>> amount < 2 ^ width :=
  Nat.lt_of_le_of_lt (Nat.shiftRight_le value amount) fits

theorem shift_lt (operation : Shift) (fits : value < 2 ^ width) (amount : Nat) :
    shift operation width value amount < 2 ^ width := by
  cases operation with
  | left =>
      simp only [shift]
      split
      · exact truncate_lt _ _
      · exact Nat.two_pow_pos width
  | logicalRight =>
      simp only [shift]
      split
      · exact shiftRight_lt fits amount
      · exact Nat.two_pow_pos width
  | arithmeticRight =>
      have fill : (if sign width value then ones width else 0) < 2 ^ width := by
        split
        · exact ones_lt width
        · exact Nat.two_pow_pos width
      simp only [shift]
      split
      · exact Nat.or_lt_two_pow (shiftRight_lt fits amount)
          (Nat.xor_lt_two_pow fill (shiftRight_lt fill amount))
      · exact fill

theorem rotateLeft_lt (fits : value < 2 ^ width) (amount : Nat) :
    rotateLeft width value amount < 2 ^ width :=
  Nat.or_lt_two_pow (truncate_lt _ _) (shiftRight_lt fits _)

theorem rotate_lt (direction : Rotation) (fits : value < 2 ^ width) (amount : Nat) :
    rotate direction width value amount < 2 ^ width := by
  cases direction <;> exact rotateLeft_lt fits _

theorem concat_lt {leftWidth rightWidth : Nat} (leftFits : left < 2 ^ leftWidth)
    (rightFits : right < 2 ^ rightWidth) :
    concat rightWidth left right < 2 ^ (leftWidth + rightWidth) := by
  have shifted : left <<< rightWidth < 2 ^ (leftWidth + rightWidth) := by
    rw [Nat.shiftLeft_eq, Nat.pow_add]
    exact Nat.mul_lt_mul_of_pos_right leftFits (Nat.two_pow_pos rightWidth)
  have wider : 2 ^ rightWidth ≤ 2 ^ (leftWidth + rightWidth) :=
    Nat.pow_le_pow_right (by decide) (Nat.le_add_left rightWidth leftWidth)
  exact Nat.or_lt_two_pow shifted (Nat.lt_of_lt_of_le rightFits wider)

theorem extract_lt (width low value : Nat) : extract width low value < 2 ^ width :=
  truncate_lt _ _

theorem extend_lt (reading : Reading) (extra : Nat) (fits : value < 2 ^ width) :
    extend reading extra width value < 2 ^ (width + extra) := by
  cases reading with
  | unsigned =>
      exact Nat.lt_of_lt_of_le fits (Nat.pow_le_pow_right (by decide) (Nat.le_add_right _ _))
  | signed => exact ofInt_lt _ _

theorem replicate_lt (count : Nat) (fits : value < 2 ^ width) :
    replicate count width value < 2 ^ (width * count) := by
  unfold replicate
  induction count with
  | zero => simp [Nat.repeat]
  | succ count induction =>
      rw [Nat.repeat, Nat.mul_succ]
      exact concat_lt induction fits

end BitTerms.Pattern
