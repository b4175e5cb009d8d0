import Mathlib.Data.Int.ModEq
import BitTerms.Proofs.Pattern.Bounds

/-!
# Two's complement

A pattern and an integer stand for each other modulo `2 ^ width`: `Pattern.ofInt` and
`Pattern.signed` are inverse to each other on the range of the reading, and the ring operations on
patterns are those on integers, reduced.
-/

namespace BitTerms.Pattern

variable {width value : Nat} {number : Int}

theorem two_pow_eq (positive : 0 < width) : 2 ^ width = 2 * 2 ^ (width - 1) := by
  rcases Nat.exists_eq_succ_of_ne_zero (Nat.ne_of_gt positive) with ⟨less, rfl⟩
  rw [Nat.succ_sub_one, Nat.pow_succ, Nat.mul_comm]

/-! ## The sign -/

theorem sign_eq (positive : 0 < width) (fits : value < 2 ^ width) :
    sign width value = decide (2 ^ (width - 1) ≤ value) := by
  have double := two_pow_eq positive
  have half := Nat.two_pow_pos (width - 1)
  unfold sign
  rw [Nat.testBit_eq_decide_div_mod_eq]
  by_cases large : 2 ^ (width - 1) ≤ value
  · have one : value / 2 ^ (width - 1) = 1 := Nat.div_eq_of_lt_le (by omega) (by omega)
    simp [one, large]
  · have zero : value / 2 ^ (width - 1) = 0 := Nat.div_eq_of_lt (by omega)
    simp [zero, large]

theorem signed_eq (positive : 0 < width) (fits : value < 2 ^ width) :
    signed width value =
      if 2 ^ (width - 1) ≤ value then (value : Int) - (2 ^ width : Nat) else value := by
  simp only [signed, sign_eq positive fits, decide_eq_true_eq]

theorem fits_signed (positive : 0 < width) (fits : value < 2 ^ width) :
    Reading.signed.Fits width (signed width value) := by
  have double := two_pow_eq positive
  rw [signed_eq positive fits]
  simp only [Reading.Fits, Reading.least, Reading.bound]
  split <;> constructor <;> omega

theorem signed_neg_iff (positive : 0 < width) (fits : value < 2 ^ width) :
    signed width value < 0 ↔ 2 ^ (width - 1) ≤ value := by
  rw [signed_eq positive fits]
  split <;> omega

/-! ## Integers as patterns -/

theorem ofInt_cast (width : Nat) (number : Int) :
    (ofInt width number : Int) = number % (2 ^ width : Nat) := by
  have positive := Nat.two_pow_pos width
  rw [ofInt_eq_emod]
  exact Int.toNat_of_nonneg (Int.emod_nonneg number (by omega))

theorem ofInt_eq_iff {left right : Int} :
    ofInt width left = ofInt width right ↔ left ≡ right [ZMOD (2 ^ width : Nat)] := by
  rw [← Int.natCast_inj, ofInt_cast, ofInt_cast]
  rfl

theorem ofInt_natCast (width value : Nat) : ofInt width value = truncate width value := by
  rw [← Int.natCast_inj, ofInt_cast, truncate, Int.natCast_emod]

theorem ofInt_natCast_of_lt (fits : value < 2 ^ width) : ofInt width value = value := by
  rw [ofInt_natCast, truncate_of_lt fits]

theorem modEq_ofInt (width : Nat) (number : Int) :
    (ofInt width number : Int) ≡ number [ZMOD (2 ^ width : Nat)] := by
  rw [ofInt_cast]
  exact Int.mod_modEq number _

theorem modEq_signed (width value : Nat) :
    signed width value ≡ (value : Int) [ZMOD (2 ^ width : Nat)] := by
  unfold signed
  split
  · exact (Int.modEq_sub_modulus_iff.mpr rfl).symm
  · rfl

/-- The pattern of an integer in twice the signed range. -/
theorem ofInt_eq_ite (width : Nat) (number : Int) (atLeast : -(2 ^ width : Nat) ≤ number)
    (below : number < (2 ^ width : Nat)) :
    (ofInt width number : Int) = if number < 0 then number + (2 ^ width : Nat) else number := by
  rw [ofInt_cast]
  split
  · rw [← Int.add_emod_right, Int.emod_eq_of_lt (by omega) (by omega)]
  · rw [Int.emod_eq_of_lt (by omega) (by omega)]

/-- Exactly the integers in range are the signed reading of their pattern. -/
theorem signed_ofInt_iff (positive : 0 < width) :
    signed width (ofInt width number) = number ↔ Reading.signed.Fits width number := by
  constructor
  · intro same
    rw [← same]
    exact fits_signed positive (ofInt_lt width number)
  · rintro ⟨atLeast, below⟩
    have double := two_pow_eq positive
    simp only [Reading.least, Reading.bound] at atLeast below
    have pattern := ofInt_eq_ite width number (by omega) (by omega)
    rw [signed_eq positive (ofInt_lt width number)]
    split at pattern <;> split <;> omega

/-! ## Ring operations -/

theorem negate_cast {right : Nat} (fits : right ≤ 2 ^ width) :
    (negate width right : Int) ≡ -(right : Int) [ZMOD (2 ^ width : Nat)] := by
  unfold negate truncate
  rw [Int.natCast_emod, Int.natCast_sub fits]
  refine (Int.mod_modEq _ _).trans ?_
  exact Int.modEq_iff_dvd.mpr ⟨-1, by omega⟩

theorem exact_modEq (operation : RingOp) {modulus left left' right right' : Int}
    (onLeft : left ≡ left' [ZMOD modulus]) (onRight : right ≡ right' [ZMOD modulus]) :
    operation.exact left right ≡ operation.exact left' right' [ZMOD modulus] := by
  cases operation with
  | add => exact onLeft.add onRight
  | sub => exact onLeft.sub onRight
  | mul => exact onLeft.mul onRight

theorem ring_eq_ofInt (operation : RingOp) {left right : Nat} (rightFits : right < 2 ^ width) :
    ring operation width left right = ofInt width (operation.exact left right) := by
  cases operation with
  | add => rw [ring, ← ofInt_natCast, Int.natCast_add]; rfl
  | sub =>
      rw [ring, ← ofInt_natCast, ofInt_eq_iff, Int.natCast_add]
      exact Int.ModEq.add rfl (negate_cast (Nat.le_of_lt rightFits))
  | mul => rw [ring, ← ofInt_natCast, Int.natCast_mul]; rfl

/-- A ring operation on the patterns of two integers gives the pattern of the integer result. -/
theorem ring_ofInt (operation : RingOp) (width : Nat) (left right : Int) :
    ring operation width (ofInt width left) (ofInt width right) =
      ofInt width (operation.exact left right) := by
  rw [ring_eq_ofInt operation (ofInt_lt width right), ofInt_eq_iff]
  exact exact_modEq operation (modEq_ofInt width left) (modEq_ofInt width right)

end BitTerms.Pattern
