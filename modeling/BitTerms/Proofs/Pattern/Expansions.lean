import BitTerms.Proofs.Pattern.Signed
import BitTerms.Value

/-!
# The arithmetic of the expansions

A rotation joins two shifts, and an overflow shows in the bits of the exact result at a larger
width. These are the facts about patterns that make the expansions of those operators right.
-/

namespace BitTerms.Pattern

variable {width value left right : Nat}

/-! ## Rotations -/

theorem remainder_width (positive : 0 < width) (amount : Nat) :
    divide .unsignedRemainder width amount width = amount % width := by
  simp only [divide, remainder, if_neg (Nat.ne_of_gt positive)]

theorem ring_sub_width {distance : Nat} (below : distance < width) :
    ring .sub width width distance = width - distance := by
  have fits : width < 2 ^ width := Nat.lt_two_pow_self
  rw [ring_eq_ofInt .sub (Nat.lt_trans below fits)]
  have exact : RingOp.sub.exact (width : Int) distance = ((width - distance : Nat) : Int) := by
    simp only [RingOp.exact]
    omega
  rw [exact, ofInt_natCast_of_lt (by omega)]

theorem shiftRight_width (fits : value < 2 ^ width) : value >>> width = 0 := by
  rw [Nat.shiftRight_eq_div_pow, Nat.div_eq_of_lt fits]

/-- A rotation to the left joins the bits shifted up with those shifted out. -/
theorem rotate_left_eq (positive : 0 < width) (fits : value < 2 ^ width) (amount : Nat) :
    bitwise .or width
        (shift .left width value (divide .unsignedRemainder width amount width))
        (shift .logicalRight width value
          (ring .sub width width (divide .unsignedRemainder width amount width))) =
      rotate .left width value amount := by
  have below := Nat.mod_lt amount positive
  rw [remainder_width positive, ring_sub_width below]
  simp only [bitwise, shift, rotate, rotateLeft, if_pos below]
  congr 1
  split
  case isTrue => rfl
  case isFalse all =>
      have none : amount % width = 0 := by omega
      rw [none, Nat.sub_zero, shiftRight_width fits]

/-- A rotation to the right joins the bits shifted down with those shifted out. -/
theorem rotate_right_eq (positive : 0 < width) (fits : value < 2 ^ width) (amount : Nat) :
    bitwise .or width
        (shift .logicalRight width value (divide .unsignedRemainder width amount width))
        (shift .left width value
          (ring .sub width width (divide .unsignedRemainder width amount width))) =
      rotate .right width value amount := by
  have below := Nat.mod_lt amount positive
  rw [remainder_width positive, ring_sub_width below]
  simp only [bitwise, shift, rotate, rotateLeft, if_pos below]
  by_cases none : amount % width = 0
  · rw [none, Nat.sub_zero, Nat.mod_self, if_neg (Nat.lt_irrefl width), Nat.sub_zero,
      shiftRight_width fits, Nat.shiftLeft_zero, Nat.shiftRight_zero, truncate_of_lt fits]
  · have missing : width - amount % width < width := by omega
    rw [Nat.mod_eq_of_lt missing, if_pos missing, Nat.or_comm]
    congr 2
    omega

/-! ## Conversions -/

theorem compare_zero (positive : 0 < width) (fits : value < 2 ^ width) :
    compare .less .signed width value 0 = sign width value := by
  have zero : signed width 0 = 0 := by simp [signed, sign]
  rw [sign_eq positive fits]
  simp only [compare, Comparison.holds, Reading.read, zero, signed_neg_iff positive fits]

/-! ## Overflows -/

theorem extract_bit (index value : Nat) : extract 1 index value = value / 2 ^ index % 2 := by
  rw [extract, truncate, Nat.shiftRight_eq_div_pow, Nat.pow_one]

theorem div_half (half value : Nat) (below : value < 4 * half) :
    value / half = 0 ∧ value < half ∨
      value / half = 1 ∧ half ≤ value ∧ value < 2 * half ∨
      value / half = 2 ∧ 2 * half ≤ value ∧ value < 3 * half ∨
      value / half = 3 ∧ 3 * half ≤ value := by
  have positive : 0 < half := by omega
  have lower : half * (value / half) ≤ value := Nat.mul_div_le value half
  have upper : value < half * (value / half + 1) := Nat.lt_mul_div_succ value positive
  have atMost : value / half < 4 := (Nat.div_lt_iff_lt_mul positive).mpr below
  generalize value / half = quarter at lower upper atMost
  have cases : quarter = 0 ∨ quarter = 1 ∨ quarter = 2 ∨ quarter = 3 := by omega
  rcases cases with rfl | rfl | rfl | rfl <;> omega

/-- An integer of at most one bit more than the width fits the width exactly if the two top bits
of its pattern agree. -/
theorem top_bits_agree_iff (positive : 0 < width) {number : Int}
    (atLeast : -(2 ^ width : Nat) ≤ number) (below : number < (2 ^ width : Nat)) :
    extract 1 width (ofInt (width + 1) number) = extract 1 (width - 1) (ofInt (width + 1) number) ↔
      Reading.signed.Fits width number := by
  have double := two_pow_eq positive
  have twice : 2 ^ (width + 1) = 2 * 2 ^ width := by rw [Nat.pow_succ, Nat.mul_comm]
  have pattern := ofInt_eq_ite (width + 1) number (by omega) (by omega)
  have bound := ofInt_lt (width + 1) number
  have upper : ofInt (width + 1) number / 2 ^ width =
      ofInt (width + 1) number / 2 ^ (width - 1) / 2 := by
    rw [Nat.div_div_eq_div_mul, Nat.mul_comm, ← double]
  rw [extract_bit, extract_bit, upper]
  simp only [Reading.Fits, Reading.least, Reading.bound]
  rcases div_half (2 ^ (width - 1)) (ofInt (width + 1) number) (by omega) with
      ⟨quarter, range⟩ | ⟨quarter, range⟩ | ⟨quarter, range⟩ | ⟨quarter, range⟩ <;>
    rw [quarter] <;> split at pattern <;> omega

theorem extend_signed (extra width value : Nat) :
    extend .signed extra width value = ofInt (width + extra) (signed width value) := rfl

theorem top_bits_differ {operation : RingOp} (positive : 0 < width)
    (inRange : -(2 ^ width : Nat) ≤ operation.exact (signed width left) (signed width right) ∧
      operation.exact (signed width left) (signed width right) < (2 ^ width : Nat)) :
    (!decide (Value.bits 1 (extract 1 width (ring operation (width + 1)
          (extend .signed 1 width left) (extend .signed 1 width right))) =
        .bits 1 (extract 1 (width - 1) (ring operation (width + 1)
          (extend .signed 1 width left) (extend .signed 1 width right))))) =
      overflows operation .signed width left right := by
  have agree := top_bits_agree_iff positive inRange.1 inRange.2
  have same : overflows operation .signed width left right =
      !decide (Reading.signed.Fits width
        (operation.exact (signed width left) (signed width right))) := by
    cases operation <;> rfl
  rw [same, extend_signed, extend_signed, ring_ofInt]
  simp only [Value.bits.injEq, true_and, agree]

theorem exact_in_range {operation : RingOp} (linear : operation ≠ .mul) (positive : 0 < width)
    (leftFits : left < 2 ^ width) (rightFits : right < 2 ^ width) :
    -(2 ^ width : Nat) ≤ operation.exact (signed width left) (signed width right) ∧
      operation.exact (signed width left) (signed width right) < (2 ^ width : Nat) := by
  have double := two_pow_eq positive
  have onLeft := fits_signed positive leftFits
  have onRight := fits_signed positive rightFits
  simp only [Reading.Fits, Reading.least, Reading.bound] at onLeft onRight
  cases operation with
  | add | sub =>
      simp only [RingOp.exact]
      omega
  | mul => exact absurd rfl linear

theorem carry_eq (leftFits : left < 2 ^ width) (rightFits : right < 2 ^ width) :
    decide (Value.bits 1 (extract 1 width (ring .add (width + 1)
        (extend .unsigned 1 width left) (extend .unsigned 1 width right))) = .bits 1 1) =
      overflows .add .unsigned width left right := by
  have twice : 2 ^ (width + 1) = 2 * 2 ^ width := by rw [Nat.pow_succ, Nat.mul_comm]
  have sum : ring .add (width + 1) left right = left + right := truncate_of_lt (by omega)
  have carry : (left + right) / 2 ^ width % 2 = 1 ↔ 2 ^ width ≤ left + right := by
    by_cases large : 2 ^ width ≤ left + right
    · have one : (left + right) / 2 ^ width = 1 := Nat.div_eq_of_lt_le (by omega) (by omega)
      simp [one, large]
    · have zero : (left + right) / 2 ^ width = 0 := Nat.div_eq_of_lt (by omega)
      simp [zero, large]
  simp only [extend, sum, extract_bit, Value.bits.injEq, true_and, carry, overflows,
    lt_bitLength_iff]

theorem borrow_eq (width left right : Nat) :
    compare .less .unsigned width left right = overflows .sub .unsigned width left right := by
  simp only [compare, Comparison.holds, Reading.read, Int.ofNat_lt, overflows]

theorem upper_half_eq (leftFits : left < 2 ^ width) (rightFits : right < 2 ^ width) :
    (!decide (Value.bits width (extract width width (ring .mul (width + width)
        (extend .unsigned width width left) (extend .unsigned width width right))) =
          .bits width 0)) =
      overflows .mul .unsigned width left right := by
  have bound : left * right < 2 ^ width * 2 ^ width := Nat.mul_lt_mul'' leftFits rightFits
  have product : ring .mul (width + width) left right = left * right :=
    truncate_of_lt (by rwa [Nat.pow_add])
  have upper : extract width width (left * right) = left * right / 2 ^ width := by
    rw [extract, Nat.shiftRight_eq_div_pow]
    exact truncate_of_lt (Nat.div_lt_of_lt_mul bound)
  have zero : left * right / 2 ^ width = 0 ↔ left * right < 2 ^ width :=
    Nat.div_eq_zero_iff_lt (Nat.two_pow_pos width)
  simp only [extend, product, upper, Value.bits.injEq, true_and, zero, overflows,
    lt_bitLength_iff, ← decide_not, Nat.not_lt]

theorem truncate_ofInt (width extra : Nat) (number : Int) :
    truncate width (ofInt (width + extra) number) = ofInt width number := by
  rw [← Int.natCast_inj, truncate, Int.natCast_emod, ofInt_cast, ofInt_cast]
  exact Int.emod_emod_of_dvd number (Int.natCast_dvd_natCast.mpr ⟨2 ^ extra, Nat.pow_add 2 _ _⟩)

theorem ofInt_inj (positive : 0 < width) {first second : Int}
    (firstFits : Reading.signed.Fits width first) (secondFits : Reading.signed.Fits width second) :
    ofInt width first = ofInt width second ↔ first = second := by
  constructor
  · intro same
    rw [← (signed_ofInt_iff positive).mpr firstFits, same,
      (signed_ofInt_iff positive).mpr secondFits]
  · exact congrArg (ofInt width)

theorem fits_wider {number : Int} (fits : Reading.signed.Fits width number) :
    Reading.signed.Fits (width + width) number := by
  have wider : 2 ^ (width - 1) ≤ 2 ^ (width + width - 1) :=
    Nat.pow_le_pow_right (by decide) (by omega)
  simp only [Reading.Fits, Reading.least, Reading.bound] at fits ⊢
  omega

theorem fits_mul (positive : 0 < width) {first second : Int}
    (firstFits : Reading.signed.Fits width first) (secondFits : Reading.signed.Fits width second) :
    Reading.signed.Fits (width + width) (first * second) := by
  simp only [Reading.Fits, Reading.least, Reading.bound] at firstFits secondFits ⊢
  have half := Nat.two_pow_pos (width - 1)
  have square : 2 ^ (width + width - 1) = 2 * (2 ^ (width - 1) * 2 ^ (width - 1)) := by
    rw [← Nat.pow_add, ← Nat.pow_succ']
    congr 1
    omega
  have magnitude : (first * second).natAbs ≤ 2 ^ (width - 1) * 2 ^ (width - 1) := by
    rw [Int.natAbs_mul]
    exact Nat.mul_le_mul (by omega) (by omega)
  have positiveSquare := Nat.mul_pos half half
  omega

/-- An integer of at most twice the width fits the width exactly if widening the lower half of its
pattern gives the pattern back. -/
theorem lower_half_agrees_iff (positive : 0 < width) {number : Int}
    (inRange : Reading.signed.Fits (width + width) number) :
    ofInt (width + width) number =
        extend .signed width width (extract width 0 (ofInt (width + width) number)) ↔
      Reading.signed.Fits width number := by
  have lower := fits_wider (fits_signed positive (ofInt_lt width number))
  rw [extract, Nat.shiftRight_zero, truncate_ofInt, extend_signed,
    ofInt_inj (Nat.add_pos_left positive width) inRange lower, eq_comm, signed_ofInt_iff positive]

theorem lower_half_eq (positive : 0 < width) (leftFits : left < 2 ^ width)
    (rightFits : right < 2 ^ width) :
    (!decide (Value.bits (width + width) (ring .mul (width + width)
          (extend .signed width width left) (extend .signed width width right)) =
        .bits (width + width) (extend .signed width width (extract width 0
          (ring .mul (width + width)
            (extend .signed width width left) (extend .signed width width right)))))) =
      overflows .mul .signed width left right := by
  have agree := lower_half_agrees_iff positive
    (fits_mul positive (fits_signed positive leftFits) (fits_signed positive rightFits))
  rw [extend_signed width width left, extend_signed width width right, ring_ofInt]
  simp only [Value.bits.injEq, true_and]
  exact congrArg (!·) (decide_eq_decide.mpr agree)

end BitTerms.Pattern
