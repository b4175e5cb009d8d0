import BitTerms.Proofs.Pattern.Signed

/-!
# Arithmetic under both readings

Sums, differences, products and negations decode to the exact result, reduced into the range of
the reading, whichever reading that is. So an overflow predicate, however it is computed, says that
the exact result is outside the range, or, what is the same, that it is not what the pattern of the
result is read as.
-/

namespace BitTerms

/-! ## Reduction into the range of a reading -/

/-- The number in the range of the reading that is congruent to the exact one. -/
structure Reading.Reduces (reading : Reading) (width : Nat) (exact reduced : Int) : Prop where
  fits : reading.Fits width reduced
  congruent : reduced ≡ exact [ZMOD (2 ^ width : Nat)]

/-- The relation that a comparison decides. -/
def Comparison.Orders (left right : Int) : Comparison → Prop
  | .less => left < right
  | .lessEqual => left ≤ right
  | .greaterEqual => left ≥ right
  | .greater => left > right

theorem Comparison.holds_iff (relation : Comparison) (left right : Int) :
    relation.holds left right = true ↔ relation.Orders left right := by
  cases relation <;> exact decide_eq_true_iff

namespace Reading

variable {reading : Reading} {width value left right : Nat} {exact first second : Int}

theorem bound_eq (positive : 0 < width) (reading : Reading) :
    reading.bound width = reading.least width + (2 ^ width : Nat) := by
  have double := Pattern.two_pow_eq positive
  cases reading <;> simp only [bound, least] <;> omega

theorem Reduces.unique (positive : 0 < width) (one : reading.Reduces width exact first)
    (other : reading.Reduces width exact second) : first = second := by
  have range := bound_eq positive reading
  have divides := (one.congruent.trans other.congruent.symm).dvd
  have small : |second - first| < (2 ^ width : Nat) := by
    have := one.fits
    have := other.fits
    simp only [Fits] at *
    exact abs_lt.mpr (by omega)
  have same := Int.eq_zero_of_abs_lt_dvd divides small
  omega

/-- What an integer is reduced to is the integer itself exactly if it is in range. -/
theorem Reduces.eq_iff (positive : 0 < width) (reduces : reading.Reduces width exact first) :
    exact = first ↔ reading.Fits width exact := by
  constructor
  · rintro rfl
    exact reduces.fits
  · exact fun fits => Reduces.unique positive ⟨fits, rfl⟩ reduces

theorem fits_read (positive : 0 < width) (fits : value < 2 ^ width) (reading : Reading) :
    reading.Fits width (reading.read width value) := by
  cases reading with
  | unsigned => exact ⟨Int.natCast_nonneg value, Int.ofNat_lt.mpr fits⟩
  | signed => exact Pattern.fits_signed positive fits

theorem modEq_read (reading : Reading) (width value : Nat) :
    reading.read width value ≡ value [ZMOD (2 ^ width : Nat)] := by
  cases reading with
  | unsigned => rfl
  | signed => exact Pattern.modEq_signed width value

/-- A pattern that is congruent to an integer decodes to the reduced integer. -/
theorem reduces_read (positive : 0 < width) (fits : value < 2 ^ width)
    (congruent : (value : Int) ≡ exact [ZMOD (2 ^ width : Nat)]) :
    reading.Reduces width exact (reading.read width value) :=
  ⟨fits_read positive fits reading, (modEq_read reading width value).trans congruent⟩

/-- A pattern that is congruent to an integer in the signed range decodes to it. -/
theorem signed_eq_of_fits (positive : 0 < width) (fits : value < 2 ^ width)
    (congruent : (value : Int) ≡ exact [ZMOD (2 ^ width : Nat)])
    (inRange : Reading.signed.Fits width exact) : Pattern.signed width value = exact := by
  have reduces : Reading.signed.Reduces width exact (Pattern.signed width value) :=
    reduces_read positive fits congruent
  exact reduces.unique positive ⟨inRange, rfl⟩

end Reading

/-! ## The operations -/

namespace Pattern

variable {width value left right : Nat}

theorem reduces_ring (operation : RingOp) (reading : Reading) (left : Nat) (positive : 0 < width)
    (rightFits : right < 2 ^ width) :
    reading.Reduces width (operation.exact (reading.read width left) (reading.read width right))
      (reading.read width (ring operation width left right)) := by
  refine Reading.reduces_read positive (ring_lt operation width left right) ?_
  rw [ring_eq_ofInt operation rightFits]
  exact (modEq_ofInt width _).trans
    (exact_modEq operation (reading.modEq_read width left) (reading.modEq_read width right)).symm

theorem reduces_negate (reading : Reading) (positive : 0 < width) (fits : value < 2 ^ width) :
    reading.Reduces width (-reading.read width value)
      (reading.read width (negate width value)) := by
  refine Reading.reduces_read positive (negate_lt width value) ?_
  exact (negate_cast (Nat.le_of_lt fits)).trans (reading.modEq_read width value).neg.symm

/-! ## Overflows -/

theorem overflows_iff (operation : RingOp) (reading : Reading) (leftFits : left < 2 ^ width)
    (right : Nat) :
    overflows operation reading width left right = true ↔
      ¬ reading.Fits width
        (operation.exact (reading.read width left) (reading.read width right)) := by
  cases reading with
  | signed => cases operation <;> simp [overflows, Reading.read]
  | unsigned =>
      have product : (left : Int) * right = (left * right : Nat) :=
        (Int.natCast_mul left right).symm
      cases operation <;>
        simp only [overflows, Reading.read, Reading.Fits, Reading.least, Reading.bound,
          RingOp.exact, decide_eq_true_iff, lt_bitLength_iff, product] <;>
        omega

theorem signed_eq_least_iff (positive : 0 < width) (fits : value < 2 ^ width) :
    value = least width ↔ signed width value = -(2 ^ (width - 1) : Nat) := by
  have double := two_pow_eq positive
  rw [signed_eq positive fits, least]
  split <;> omega

theorem signed_eq_neg_one_iff (positive : 0 < width) (fits : value < 2 ^ width) :
    value = ones width ↔ signed width value = -1 := by
  have double := two_pow_eq positive
  rw [signed_eq positive fits, ones]
  split <;> omega

/-- Only the least number has no negative. -/
theorem eq_least_iff (positive : 0 < width) (fits : value < 2 ^ width) :
    value = least width ↔ ¬ Reading.signed.Fits width (-signed width value) := by
  have inRange := fits_signed positive fits
  rw [signed_eq_least_iff positive fits]
  simp only [Reading.Fits, Reading.least, Reading.bound] at inRange ⊢
  omega

/-- A quotient of two integers of a signed range leaves it only for the least one and minus
one. -/
theorem fits_tdiv_iff {first second : Int} (fits : Reading.signed.Fits width first)
    (nonzero : second ≠ 0) :
    Reading.signed.Fits width (first.tdiv second) ↔
      ¬ (first = -(2 ^ (width - 1) : Nat) ∧ second = -1) := by
  have half := Nat.two_pow_pos (width - 1)
  have magnitude : (first.tdiv second).natAbs = first.natAbs / second.natAbs :=
    Int.natAbs_tdiv first second
  simp only [Reading.Fits, Reading.least, Reading.bound] at fits ⊢
  constructor
  · rintro inRange ⟨rfl, rfl⟩
    rw [Int.tdiv_neg, Int.tdiv_one] at inRange
    omega
  · intro other
    by_cases unit : second.natAbs = 1
    · rcases Int.natAbs_eq_iff.mp unit with rfl | rfl
      · simpa using fits
      · simp only [Int.natCast_one, Int.tdiv_neg, Int.tdiv_one]
        omega
    · have smaller : first.natAbs / second.natAbs ≤ first.natAbs / 2 :=
        Nat.div_le_div_left (by omega) (by decide)
      omega

theorem quotientOverflows_iff (positive : 0 < width) (leftFits : left < 2 ^ width)
    (rightFits : right < 2 ^ width) :
    quotientOverflows width left right = true ↔
      signed width right ≠ 0 ∧
        ¬ Reading.signed.Fits width ((signed width left).tdiv (signed width right)) := by
  rw [quotientOverflows, Bool.and_eq_true, decide_eq_true_iff, decide_eq_true_iff,
    signed_eq_least_iff positive leftFits, signed_eq_neg_one_iff positive rightFits]
  by_cases zero : signed width right = 0
  · simp [zero]
  · simp [zero, fits_tdiv_iff (fits_signed positive leftFits) zero]

end Pattern

/-! ## Operators -/

namespace Operator

open Pattern

/-- Under either reading, the arithmetic of patterns is that of integers reduced into the range,
the predicates say when the exact result is out of range, and the comparisons compare what is
read. -/
theorem arithmetic_decodes {width left right : Nat} (positive : 0 < width)
    (leftFits : left < 2 ^ width) (rightFits : right < 2 ^ width) :
    (∀ reading : Reading,
      (∀ operation : RingOp,
        let exact := operation.exact (reading.read width left) (reading.read width right)
        ∃ result overflow,
          (ring operation).evaluate [.bits width left, .bits width right] =
            .ok (.bits width result) ∧
          (overflows operation reading).evaluate [.bits width left, .bits width right] =
            .ok (.bool overflow) ∧
          result < 2 ^ width ∧ reading.Reduces width exact (reading.read width result) ∧
          (overflow = true ↔ exact ≠ reading.read width result) ∧
          (overflow = true ↔ ¬ reading.Fits width exact)) ∧
      (∃ result, negate.evaluate [.bits width left] = .ok (.bits width result) ∧
        result < 2 ^ width ∧
        reading.Reduces width (-reading.read width left) (reading.read width result)) ∧
      ∀ relation : Comparison, ∃ truth,
        (compare relation reading).evaluate [.bits width left, .bits width right] =
          .ok (.bool truth) ∧
        (truth = true ↔
          relation.Orders (reading.read width left) (reading.read width right))) ∧
    (∃ overflow, negationOverflows.evaluate [.bits width left] = .ok (.bool overflow) ∧
      (overflow = true ↔ ¬ Reading.signed.Fits width (-signed width left))) ∧
    ∃ overflow, quotientOverflows.evaluate [.bits width left, .bits width right] =
        .ok (.bool overflow) ∧
      (overflow = true ↔ signed width right ≠ 0 ∧
        ¬ Reading.signed.Fits width ((signed width left).tdiv (signed width right))) := by
  refine ⟨fun reading => ⟨fun operation => ?_, ?_, fun relation => ?_⟩, ?_, ?_⟩
  · have reduces := reduces_ring operation reading left positive rightFits
    have outside := overflows_iff operation reading leftFits right
    exact ⟨_, _, rfl, rfl, ring_lt operation width left right, reduces,
      outside.trans (reduces.eq_iff positive).symm.not, outside⟩
  · exact ⟨_, rfl, negate_lt width left, reduces_negate reading positive leftFits⟩
  · exact ⟨_, rfl, relation.holds_iff _ _⟩
  · exact ⟨_, rfl, decide_eq_true_iff.trans (eq_least_iff positive leftFits)⟩
  · exact ⟨_, rfl, quotientOverflows_iff positive leftFits rightFits⟩

/-- At width one, the only number but zero is the least one. Its square, its negative and its
quotient by itself are all out of range. -/
theorem arithmetic_decodes_of_one_bit :
    (∃ result overflow,
      (ring .mul).evaluate [.bits 1 1, .bits 1 1] = .ok (.bits 1 result) ∧
      (overflows .mul .signed).evaluate [.bits 1 1, .bits 1 1] = .ok (.bool overflow) ∧
      Reading.signed.Reduces 1 1 (signed 1 result) ∧ overflow = true) ∧
    (∃ overflow, negationOverflows.evaluate [.bits 1 1] = .ok (.bool overflow) ∧
      overflow = true) ∧
    ∃ overflow, quotientOverflows.evaluate [.bits 1 1, .bits 1 1] = .ok (.bool overflow) ∧
      overflow = true := by
  have laws := arithmetic_decodes (show 0 < 1 by decide) (show 1 < 2 ^ 1 by decide)
    (show 1 < 2 ^ 1 by decide)
  rcases laws with ⟨readings, ⟨negated, negation, negationOut⟩, divided, quotient, quotientOut⟩
  rcases (readings .signed).1 .mul with
    ⟨result, overflow, product, predicate, -, reduces, -, outside⟩
  exact ⟨⟨result, overflow, product, predicate, reduces, outside.mpr (by decide)⟩,
    ⟨negated, negation, negationOut.mpr (by decide)⟩,
    divided, quotient, quotientOut.mpr (by decide)⟩

end Operator

end BitTerms
