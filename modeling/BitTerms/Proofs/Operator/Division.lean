import BitTerms.Proofs.Operator.Arithmetic

/-!
# Division

The signed divisions are computed on magnitudes and get their sign afterwards. They come out as
the divisions of the integers that the operands are read as: the quotient that is rounded toward
zero with its remainder, and the remainder of the quotient that is rounded down. Quotient and
remainder belong together at every divisor, zero included.
-/

namespace BitTerms

/-! ## Integer division by magnitudes -/

namespace Pattern

variable {width value left right : Nat} {first second : Int}

theorem tdiv_eq_ite (first second : Int) :
    first.tdiv second =
      if decide (first < 0) != decide (second < 0) then
        -((first.natAbs / second.natAbs : Nat) : Int)
      else
        (first.natAbs / second.natAbs : Nat) := by
  have size : (first.tdiv second).natAbs = first.natAbs / second.natAbs :=
    Int.natAbs_tdiv first second
  by_cases negative : first < 0 <;> by_cases negative' : second < 0 <;>
    simp only [negative, negative', decide_true, decide_false, bne_self_eq_false,
      Bool.bne_false, Bool.bne_true, Bool.not_false, Bool.false_eq_true, if_false, if_true]
  · have sign := Int.tdiv_nonneg_of_nonpos_of_nonpos (Int.le_of_lt negative)
      (Int.le_of_lt negative')
    omega
  · have sign := Int.tdiv_nonneg (a := -first) (b := second) (by omega) (by omega)
    rw [Int.neg_tdiv] at sign
    omega
  · have sign := Int.tdiv_nonpos_of_nonneg_of_nonpos (Int.not_lt.mp negative)
      (Int.le_of_lt negative')
    omega
  · have sign := Int.tdiv_nonneg (Int.not_lt.mp negative) (Int.not_lt.mp negative')
    omega

theorem tmod_eq_ite (first second : Int) :
    first.tmod second =
      if first < 0 then -((first.natAbs % second.natAbs : Nat) : Int)
      else (first.natAbs % second.natAbs : Nat) := by
  have size := Int.natAbs_tmod first second
  split
  case isTrue negative =>
      have sign := Int.tmod_nonneg second (a := -first) (by omega)
      rw [Int.neg_tmod] at sign
      omega
  case isFalse natural =>
      have sign := Int.tmod_nonneg second (Int.not_lt.mp natural)
      omega

/-- The two remainders differ by the divisor where the signs differ and the division is not
exact. -/
theorem fmod_eq_ite (first second : Int) :
    first.fmod second =
      if first.natAbs % second.natAbs = 0 then 0
      else if first < 0 ↔ second < 0 then first.tmod second
      else first.tmod second + second := by
  have divides : second ∣ first ↔ first.natAbs % second.natAbs = 0 := by
    rw [← Int.natAbs_dvd_natAbs, Nat.dvd_iff_mod_eq_zero]
  have truncated := tmod_eq_ite first second
  rw [Int.fmod_eq_tmod]
  simp only [divides]
  split
  · split at truncated <;> omega
  · split <;> split <;> (try split) <;> omega

theorem tmod_eq_zero_or_sign (first second : Int) :
    first.tmod second = 0 ∨ (first.tmod second).sign = first.sign := by
  have sign := Int.sign_tmod first second
  split at sign
  · exact .inl (Int.sign_eq_zero_iff_zero.mp sign)
  · exact .inr sign

theorem fmod_eq_zero_or_sign (first : Int) (nonzero : second ≠ 0) :
    first.fmod second = 0 ∨ (first.fmod second).sign = second.sign := by
  rcases Int.lt_or_gt_of_ne nonzero with negative | natural
  · have sign := Int.fmod_nonneg_of_pos (-first) (b := -second) (by omega)
    rw [Int.neg_fmod_neg] at sign
    by_cases zero : first.fmod second = 0
    · exact .inl zero
    · rw [Int.sign_eq_neg_one_of_neg negative]
      exact .inr (Int.sign_eq_neg_one_of_neg (by omega))
  · have sign := Int.fmod_nonneg_of_pos first natural
    by_cases zero : first.fmod second = 0
    · exact .inl zero
    · rw [Int.sign_eq_one_of_pos natural]
      exact .inr (Int.sign_eq_one_of_pos (by omega))

theorem fits_tmod (second : Int) (fits : Reading.signed.Fits width first) :
    Reading.signed.Fits width (first.tmod second) := by
  have smaller : first.natAbs % second.natAbs ≤ first.natAbs := Nat.mod_le _ _
  have truncated := tmod_eq_ite first second
  simp only [Reading.Fits, Reading.least, Reading.bound] at fits ⊢
  split at truncated <;> omega

theorem fits_fmod (fits : Reading.signed.Fits width first)
    (fits' : Reading.signed.Fits width second) :
    Reading.signed.Fits width (first.fmod second) := by
  by_cases zero : second = 0
  · rwa [zero, Int.fmod_zero]
  · have smaller : first.natAbs % second.natAbs < second.natAbs := Nat.mod_lt _ (by omega)
    have truncated := fits_tmod second fits
    have below := tmod_eq_ite first second
    have floored := fmod_eq_ite first second
    simp only [Reading.Fits, Reading.least, Reading.bound] at fits fits' truncated ⊢
    split at below <;> split at floored <;> (try split at floored) <;> omega

/-! ## Magnitudes and signs -/

theorem sign_eq_decide (positive : 0 < width) (fits : value < 2 ^ width) :
    sign width value = decide (signed width value < 0) := by
  rw [sign_eq positive fits, decide_eq_decide]
  exact (signed_neg_iff positive fits).symm

theorem signed_eq_zero_iff (positive : 0 < width) (fits : value < 2 ^ width) :
    signed width value = 0 ↔ value = 0 := by
  have half := Nat.two_pow_pos (width - 1)
  rw [signed_eq positive fits]
  split <;> omega

theorem magnitude_eq (positive : 0 < width) (fits : value < 2 ^ width) :
    magnitude width value = (signed width value).natAbs := by
  have half := Nat.two_pow_pos (width - 1)
  rw [magnitude, sign_eq positive fits, signed_eq positive fits]
  by_cases large : 2 ^ (width - 1) ≤ value
  · have negated : negate width value = 2 ^ width - value := truncate_of_lt (by omega)
    simp only [large, decide_true, if_true, negated]
    omega
  · simp [large]

theorem natAbs_signed_lt (positive : 0 < width) (fits : value < 2 ^ width) :
    (signed width value).natAbs < 2 ^ width :=
  magnitude_eq positive fits ▸ magnitude_lt fits

theorem remainder_eq_mod (left right : Nat) : remainder left right = left % right := by
  unfold remainder
  split
  case isTrue zero => rw [zero, Nat.mod_zero]
  case isFalse => rfl

theorem modEq_truncate (width value : Nat) :
    (truncate width value : Int) ≡ value [ZMOD (2 ^ width : Nat)] := by
  rw [truncate, Int.natCast_emod]
  exact Int.mod_modEq _ _

theorem modEq_negateIf (condition : Bool) (fits : value < 2 ^ width) :
    (negateIf condition width value : Int) ≡ if condition then -(value : Int) else value
      [ZMOD (2 ^ width : Nat)] := by
  cases condition with
  | false => rfl
  | true => exact negate_cast (Nat.le_of_lt fits)

/-! ## The signed divisions -/

theorem modEq_signedQuotient (positive : 0 < width) (leftFits : left < 2 ^ width)
    (rightFits : right < 2 ^ width) (nonzero : right ≠ 0) :
    (divide .signedQuotient width left right : Int) ≡
      (signed width left).tdiv (signed width right) [ZMOD (2 ^ width : Nat)] := by
  have divisor : (signed width right).natAbs ≠ 0 :=
    Int.natAbs_ne_zero.mpr ((signed_eq_zero_iff positive rightFits).not.mpr nonzero)
  have fits : (signed width left).natAbs / (signed width right).natAbs < 2 ^ width :=
    Nat.lt_of_le_of_lt (Nat.div_le_self _ _) (natAbs_signed_lt positive leftFits)
  rw [divide, sign_eq_decide positive leftFits, sign_eq_decide positive rightFits,
    magnitude_eq positive leftFits, magnitude_eq positive rightFits, quotient, if_neg divisor,
    tdiv_eq_ite]
  exact modEq_negateIf _ fits

/-- A division by zero gives minus one, or its negative where the dividend is negative. -/
theorem divide_signedQuotient_zero (positive : 0 < width) (leftFits : left < 2 ^ width) :
    divide .signedQuotient width left 0 =
      if signed width left < 0 then 1 else ones width := by
  have zero : signed width 0 = 0 := (signed_eq_zero_iff positive (Nat.two_pow_pos width)).mpr rfl
  have double := two_pow_eq positive
  have half := Nat.two_pow_pos (width - 1)
  have negated : negate width (ones width) = 1 := by
    rw [negate, ones, Nat.sub_sub_self (Nat.two_pow_pos width)]
    exact truncate_of_lt (by omega)
  rw [divide, sign_eq_decide positive leftFits, sign_eq_decide positive (Nat.two_pow_pos width),
    magnitude_eq positive (Nat.two_pow_pos width), zero, quotient, if_pos Int.natAbs_zero]
  by_cases negative : signed width left < 0 <;> simp [negative, negateIf, negated]

/-- One is a number of every width but the first, where its pattern is that of minus one. -/
theorem signed_one (positive : 0 < width) : signed width 1 = if width = 1 then -1 else 1 := by
  split
  case isTrue one => rw [one]; rfl
  case isFalse more =>
      have large : 2 ^ 1 ≤ 2 ^ (width - 1) := Nat.pow_le_pow_right (by decide) (by omega)
      have double := two_pow_eq positive
      rw [signed_eq positive (by omega), if_neg (by omega)]
      rfl

theorem signed_signedQuotient_zero (positive : 0 < width) (leftFits : left < 2 ^ width) :
    signed width (divide .signedQuotient width left 0) =
      if 0 ≤ signed width left ∨ width = 1 then -1 else 1 := by
  have negated : signed width (ones width) = -1 :=
    (signed_eq_neg_one_iff positive (ones_lt width)).mp rfl
  rw [divide_signedQuotient_zero positive leftFits]
  by_cases negative : signed width left < 0
  · have below : ¬ 0 ≤ signed width left := Int.not_le.mpr negative
    simp only [if_pos negative, signed_one positive, below, false_or]
  · rw [if_neg negative, negated, if_pos (.inl (Int.not_lt.mp negative))]

/-- The least number is what its negative, the first one out of range, is reduced to. -/
theorem reduces_neg_least (positive : 0 < width) :
    Reading.signed.Reduces width (2 ^ (width - 1) : Nat) (-(2 ^ (width - 1) : Nat)) := by
  have half := Nat.two_pow_pos (width - 1)
  have double := two_pow_eq positive
  refine ⟨?_, Int.modEq_iff_dvd.mpr ⟨1, by omega⟩⟩
  simp only [Reading.Fits, Reading.least, Reading.bound]
  omega

theorem signed_signedRemainder (positive : 0 < width) (leftFits : left < 2 ^ width)
    (rightFits : right < 2 ^ width) :
    signed width (divide .signedRemainder width left right) =
      (signed width left).tmod (signed width right) := by
  refine Reading.signed_eq_of_fits positive (divide_lt _ leftFits) ?_
    (fits_tmod _ (fits_signed positive leftFits))
  have fits : (signed width left).natAbs % (signed width right).natAbs < 2 ^ width :=
    Nat.lt_of_le_of_lt (Nat.mod_le _ _) (natAbs_signed_lt positive leftFits)
  rw [divide, sign_eq_decide positive leftFits, magnitude_eq positive leftFits,
    magnitude_eq positive rightFits, remainder_eq_mod, tmod_eq_ite]
  simpa using modEq_negateIf (decide (signed width left < 0)) fits

theorem modEq_modulus (positive : 0 < width) (leftFits : left < 2 ^ width)
    (rightFits : right < 2 ^ width) :
    (modulus width left right : Int) ≡ (signed width left).fmod (signed width right)
      [ZMOD (2 ^ width : Nat)] := by
  have fits : (signed width left).natAbs % (signed width right).natAbs < 2 ^ width :=
    Nat.lt_of_le_of_lt (Nat.mod_le _ _) (natAbs_signed_lt positive leftFits)
  have negated := negate_cast (Nat.le_of_lt fits)
  have divisor := (modEq_signed width right).symm
  have truncated := tmod_eq_ite (signed width left) (signed width right)
  rw [fmod_eq_ite]
  simp only [modulus, magnitude_eq positive leftFits, magnitude_eq positive rightFits,
    remainder_eq_mod, sign_eq_decide positive leftFits, sign_eq_decide positive rightFits]
  generalize (signed width left).natAbs % (signed width right).natAbs = rest at *
  split
  case isTrue => rfl
  case isFalse =>
      by_cases negative : signed width left < 0 <;> by_cases negative' : signed width right < 0 <;>
        simp only [negative, negative', decide_true, decide_false, if_true, if_false, iff_self,
          true_iff, iff_true] at truncated ⊢ <;>
        rw [truncated]
      · exact negated
      · refine (modEq_truncate width _).trans ?_
        rw [Int.natCast_add]
        exact negated.add divisor
      · refine (modEq_truncate width _).trans ?_
        rw [Int.natCast_add]
        exact Int.ModEq.add rfl divisor

theorem signed_signedModulus (positive : 0 < width) (leftFits : left < 2 ^ width)
    (rightFits : right < 2 ^ width) :
    signed width (divide .signedModulus width left right) =
      (signed width left).fmod (signed width right) :=
  Reading.signed_eq_of_fits positive (divide_lt _ leftFits)
    (modEq_modulus positive leftFits rightFits)
    (fits_fmod (fits_signed positive leftFits) (fits_signed positive rightFits))

/-! ## Quotient and remainder together -/

theorem quotient_mul_add_remainder (width left right : Nat) :
    quotient width left right * right + remainder left right = left := by
  rw [remainder_eq_mod]
  by_cases zero : right = 0
  · rw [zero, Nat.mul_zero, Nat.zero_add, Nat.mod_zero]
  · rw [quotient, if_neg zero]
    exact Nat.div_add_mod' left right

theorem modEq_signedQuotient_mul_add (positive : 0 < width) (leftFits : left < 2 ^ width)
    (rightFits : right < 2 ^ width) :
    divide .signedQuotient width left right * right + divide .signedRemainder width left right ≡
      left [MOD 2 ^ width] := by
  have rest := (modEq_signed width (divide .signedRemainder width left right)).symm
  rw [signed_signedRemainder positive leftFits rightFits] at rest
  have dividend := modEq_signed width left
  have divisor := (modEq_signed width right).symm
  rw [← Int.natCast_modEq_iff, Int.natCast_add, Int.natCast_mul]
  refine (?_ : _ ≡ signed width left [ZMOD (2 ^ width : Nat)]).trans dividend
  by_cases zero : right = 0
  · have zero' := (signed_eq_zero_iff positive rightFits).mpr zero
    rw [zero', Int.tmod_zero] at rest
    simpa [zero] using rest
  · have ratio := modEq_signedQuotient positive leftFits rightFits zero
    calc
      _ ≡ (signed width left).tdiv (signed width right) * signed width right +
          (signed width left).tmod (signed width right) [ZMOD (2 ^ width : Nat)] :=
        (ratio.mul divisor).add rest
      _ = signed width left := Int.tdiv_mul_add_tmod _ _

end Pattern

/-! ## Operators -/

namespace Operator

open Pattern

/-- The unsigned divisions are those of natural numbers, the signed ones those of the integers that
are read, with the quotient reduced into the range. A quotient by zero is all ones or, of a
negative number, one: at width one, that pattern is read as minus one. A remainder by zero is the
dividend. -/
theorem divisions_decode {width left right : Nat} (positive : 0 < width)
    (leftFits : left < 2 ^ width) (rightFits : right < 2 ^ width) :
    ∃ result : Division → Nat,
      let first := signed width left
      let second := signed width right
      (∀ operation, (divide operation).evaluate [.bits width left, .bits width right] =
        .ok (.bits width (result operation)) ∧ result operation < 2 ^ width) ∧
      (right ≠ 0 → result .unsignedQuotient = left / right ∧
        result .unsignedRemainder = left % right) ∧
      (right = 0 → result .unsignedQuotient = 2 ^ width - 1 ∧ result .unsignedRemainder = left) ∧
      (right ≠ 0 → Reading.signed.Reduces width (first.tdiv second)
        (signed width (result .signedQuotient))) ∧
      (first = -(2 ^ (width - 1) : Nat) → second = -1 →
        signed width (result .signedQuotient) = first) ∧
      (right = 0 → signed width (result .signedQuotient) =
        if 0 ≤ first ∨ width = 1 then -1 else 1) ∧
      (signed width (result .signedRemainder) = first.tmod second ∧
        (first.tmod second = 0 ∨ (first.tmod second).sign = first.sign) ∧
        (right = 0 → signed width (result .signedRemainder) = first)) ∧
      (signed width (result .signedModulus) = first.fmod second ∧
        (right ≠ 0 → first.fmod second = 0 ∨ (first.fmod second).sign = second.sign) ∧
        (right = 0 → signed width (result .signedModulus) = first)) ∧
      result .unsignedQuotient * right + result .unsignedRemainder ≡ left [MOD 2 ^ width] ∧
      result .signedQuotient * right + result .signedRemainder ≡ left [MOD 2 ^ width] := by
  refine ⟨fun operation => Pattern.divide operation width left right, ?_⟩
  intro first second
  have zero_iff := signed_eq_zero_iff positive rightFits
  have rest := signed_signedRemainder positive leftFits rightFits
  have modulus := signed_signedModulus positive leftFits rightFits
  have ratio (nonzero : right ≠ 0) : Reading.signed.Reduces width (first.tdiv second)
      (signed width (Pattern.divide .signedQuotient width left right)) :=
    Reading.reduces_read positive (divide_lt _ leftFits)
      (modEq_signedQuotient positive leftFits rightFits nonzero)
  refine ⟨fun operation => ⟨rfl, divide_lt operation leftFits⟩, ?_, ?_, ratio, ?_, ?_,
    ⟨rest, tmod_eq_zero_or_sign first second, ?_⟩, ⟨modulus, ?_, ?_⟩, ?_,
    modEq_signedQuotient_mul_add positive leftFits rightFits⟩
  · intro nonzero
    exact ⟨if_neg nonzero, if_neg nonzero⟩
  · intro zero
    exact ⟨if_pos zero, if_pos zero⟩
  · intro least unit
    have nonzero : right ≠ 0 := zero_iff.not.mp (by omega)
    have reduces := ratio nonzero
    rw [unit, Int.tdiv_neg, Int.tdiv_one, least, Int.neg_neg] at reduces
    rw [reduces.unique positive (reduces_neg_least positive), least]
  · rintro rfl
    exact signed_signedQuotient_zero positive leftFits
  · intro zero
    rw [rest, zero_iff.mpr zero, Int.tmod_zero]
  · exact fun nonzero => fmod_eq_zero_or_sign first (zero_iff.not.mpr nonzero)
  · intro zero
    rw [modulus, zero_iff.mpr zero, Int.fmod_zero]
  · exact congrArg (· % 2 ^ width) (quotient_mul_add_remainder width left right)

/-- The least number of four bits divided by minus one, and by zero. -/
theorem divisions_decode_of_least :
    (∃ quotient, (divide .signedQuotient).evaluate [.bits 4 8, .bits 4 15] =
      .ok (.bits 4 quotient) ∧ signed 4 quotient = -8) ∧
    ∃ quotient, (divide .signedQuotient).evaluate [.bits 4 8, .bits 4 0] =
      .ok (.bits 4 quotient) ∧ signed 4 quotient = 1 := by
  rcases divisions_decode (show 0 < 4 by decide) (show 8 < 2 ^ 4 by decide)
    (show 15 < 2 ^ 4 by decide) with ⟨result, evaluated, -, -, -, wrapped, -⟩
  rcases divisions_decode (show 0 < 4 by decide) (show 8 < 2 ^ 4 by decide)
    (show 0 < 2 ^ 4 by decide) with ⟨result', evaluated', -, -, -, -, byZero, -⟩
  exact ⟨⟨_, (evaluated .signedQuotient).1, wrapped rfl rfl⟩,
    _, (evaluated' .signedQuotient).1, byZero rfl⟩

/-- At width one, a negative number divided by zero is not one, which is out of range. -/
theorem not_one_of_one_bit_by_zero :
    signed 1 1 < 0 ∧
      (divide .signedQuotient).evaluate [.bits 1 1, .bits 1 0] = .ok (.bits 1 1) ∧
      signed 1 1 ≠ 1 := by
  decide

end Operator

end BitTerms
