import BitTerms.Proofs.Operator.Arithmetic

/-!
# Shifts and rotations

Where every bit of a shifted or rotated pattern comes from, for amounts of any size. The arithmetic
shift to the right divides the signed reading and rounds down, rotations by the same amount undo
each other, and only the remainder of their amount at the width counts.
-/

namespace BitTerms.Pattern

variable {width value left right amount index : Nat}

/-! ## Bits -/

theorem testBit_truncate (width value index : Nat) :
    (truncate width value).testBit index = (decide (index < width) && value.testBit index) :=
  Nat.testBit_mod_two_pow value width index

theorem testBit_ones (width index : Nat) : (ones width).testBit index = decide (index < width) :=
  Nat.testBit_two_pow_sub_one width index

theorem testBit_of_width_le (fits : value < 2 ^ width) (outside : width ≤ index) :
    value.testBit index = false :=
  Nat.testBit_lt_two_pow (Nat.lt_of_lt_of_le fits (Nat.pow_le_pow_right (by decide) outside))

theorem eq_of_testBit (leftFits : left < 2 ^ width) (rightFits : right < 2 ^ width)
    (same : ∀ index, index < width → left.testBit index = right.testBit index) : left = right := by
  refine Nat.eq_of_testBit_eq fun index => ?_
  by_cases inside : index < width
  · exact same index inside
  · have outside := Nat.le_of_not_lt inside
    rw [testBit_of_width_le leftFits outside, testBit_of_width_le rightFits outside]

/-! ## Shifts -/

theorem testBit_shift_left (inside : index < width) :
    (shift .left width value amount).testBit index =
      if amount ≤ index then value.testBit (index - amount) else false := by
  simp only [shift]
  split
  case isTrue => simp [testBit_truncate, Nat.testBit_shiftLeft, inside]
  case isFalse all => rw [Nat.zero_testBit, if_neg (by omega)]

theorem testBit_shift_logicalRight (fits : value < 2 ^ width) :
    (shift .logicalRight width value amount).testBit index =
      if index + amount < width then value.testBit (index + amount) else false := by
  simp only [shift]
  split
  case isTrue =>
      rw [Nat.testBit_shiftRight, Nat.add_comm]
      split
      · rfl
      · exact testBit_of_width_le fits (by omega)
  case isFalse all => rw [Nat.zero_testBit, if_neg (by omega)]

/-- What is shifted in from the left: the sign, as often as the amount says. -/
theorem testBit_fill (truth : Bool) (width index : Nat) :
    (if truth then ones width else 0).testBit index = (truth && decide (index < width)) := by
  cases truth with
  | false => exact Nat.zero_testBit index
  | true => exact testBit_ones width index

theorem testBit_shift_arithmeticRight (fits : value < 2 ^ width) (inside : index < width) :
    (shift .arithmeticRight width value amount).testBit index =
      if index + amount < width then value.testBit (index + amount) else sign width value := by
  simp only [shift]
  split
  case isTrue =>
      rw [Nat.testBit_or, Nat.testBit_xor, Nat.testBit_shiftRight, Nat.testBit_shiftRight,
        testBit_fill, testBit_fill, Nat.add_comm amount index]
      split
      case isTrue within => simp [inside, within]
      case isFalse out =>
          simp [inside, out, testBit_of_width_le fits (Nat.le_of_not_lt out)]
  case isFalse all =>
      rw [testBit_fill, if_neg (by omega)]
      simp [inside]

theorem sign_shift_arithmeticRight (positive : 0 < width) (fits : value < 2 ^ width) :
    sign width (shift .arithmeticRight width value amount) = sign width value := by
  rw [sign, testBit_shift_arithmeticRight fits (by omega)]
  split
  case isTrue none =>
      have zero : amount = 0 := by omega
      rw [zero]
      rfl
  case isFalse => rfl

theorem shiftRight_of_width_le (fits : value < 2 ^ width) (all : width ≤ amount) :
    value >>> amount = 0 := by
  rw [Nat.shiftRight_eq_div_pow]
  exact Nat.div_eq_of_lt
    (Nat.lt_of_lt_of_le fits (Nat.pow_le_pow_right (by decide) all))

theorem ones_xor_shiftRight (inside : amount < width) :
    ones width ^^^ (ones width >>> amount) = ones amount <<< (width - amount) := by
  refine Nat.eq_of_testBit_eq fun index => ?_
  rw [Nat.testBit_xor, Nat.testBit_shiftRight, Nat.testBit_shiftLeft, testBit_ones, testBit_ones,
    testBit_ones, Bool.eq_iff_iff]
  simp only [bne_iff_ne, ne_eq, decide_eq_decide, Bool.and_eq_true, decide_eq_true_eq]
  omega

/-- The bits shifted in stand above the others, so that joining them is adding. -/
theorem shift_arithmeticRight_add (fits : value < 2 ^ width) (negative : sign width value = true)
    (inside : amount < width) :
    shift .arithmeticRight width value amount + 2 ^ (width - amount) =
      value / 2 ^ amount + 2 ^ width := by
  have parts : 2 ^ (width - amount) * 2 ^ amount = 2 ^ width :=
    Nat.pow_sub_mul_pow 2 (Nat.le_of_lt inside)
  have below : value / 2 ^ amount < 2 ^ (width - amount) :=
    Nat.div_lt_of_lt_mul (by rwa [Nat.mul_comm, parts])
  have joined : shift .arithmeticRight width value amount =
      ones amount * 2 ^ (width - amount) + value / 2 ^ amount := by
    simp only [shift, negative, if_true, if_pos inside, ones_xor_shiftRight inside]
    rw [Nat.shiftRight_eq_div_pow, Nat.or_comm, ← Nat.shiftLeft_add_eq_or_of_lt below,
      Nat.shiftLeft_eq]
  have power := Nat.two_pow_pos amount
  have ones_mul : ones amount * 2 ^ (width - amount) + 2 ^ (width - amount) = 2 ^ width := by
    rw [← Nat.succ_mul, ← parts, Nat.mul_comm]
    congr 1
    simp only [ones]
    omega
  omega

theorem sub_two_pow_ediv (value : Nat) (within : amount ≤ width) :
    ((value : Int) - (2 ^ width : Nat)) / (2 ^ amount : Nat) =
      (value / 2 ^ amount : Nat) - (2 ^ (width - amount) : Nat) := by
  have power := Nat.two_pow_pos amount
  rw [← Nat.pow_sub_mul_pow 2 within, Int.natCast_mul, Int.sub_eq_add_neg, ← Int.neg_mul,
    Int.add_mul_ediv_right _ _ (by omega), Int.natCast_ediv, Int.sub_eq_add_neg]

theorem signed_shift_arithmeticRight (positive : 0 < width) (fits : value < 2 ^ width) :
    signed width (shift .arithmeticRight width value amount) =
      signed width value / (2 ^ amount : Nat) := by
  have power := Nat.two_pow_pos amount
  rw [signed, signed, sign_shift_arithmeticRight positive fits]
  cases negative : sign width value with
  | false =>
      have shifted : shift .arithmeticRight width value amount = value >>> amount := by
        simp only [shift, negative]
        split
        case isTrue => simp
        case isFalse all =>
            rw [shiftRight_of_width_le fits (Nat.le_of_not_lt all)]
            rfl
      rw [shifted, Nat.shiftRight_eq_div_pow]
      exact Int.natCast_ediv _ _
  | true =>
      rw [if_pos rfl, if_pos rfl]
      by_cases inside : amount < width
      · have sum := shift_arithmeticRight_add fits negative inside
        rw [sub_two_pow_ediv value (Nat.le_of_lt inside)]
        omega
      · have all : shift .arithmeticRight width value amount = ones width := by
          simp only [shift, negative, if_neg inside, if_true]
        have larger : 2 ^ width ≤ 2 ^ amount :=
          Nat.pow_le_pow_right (by decide) (Nat.le_of_not_lt inside)
        have quotient : ((value : Int) - (2 ^ width : Nat)) / (2 ^ amount : Nat) = -1 :=
          (Int.ediv_eq_iff_of_pos (by omega)).mpr (by omega)
        rw [quotient, all, ones]
        omega

/-! ## Rotations -/

theorem testBit_rotateLeft (fits : value < 2 ^ width) (inside : index < width)
    (within : amount ≤ width) :
    (rotateLeft width value amount).testBit index =
      if amount ≤ index then value.testBit (index - amount)
      else value.testBit (index + (width - amount)) := by
  rw [rotateLeft, Nat.testBit_or, testBit_truncate, Nat.testBit_shiftLeft, Nat.testBit_shiftRight,
    Nat.add_comm (width - amount) index]
  split
  case isTrue moved =>
      simp [inside, moved,
        testBit_of_width_le fits (show width ≤ index + (width - amount) by omega)]
  case isFalse moved => simp [moved]

/-- A position moved on by an amount, and around at most once when the amount is reduced. -/
theorem add_mod_width (inside : index < width) (amount : Nat) :
    (index + amount) % width =
      if index + amount % width < width then index + amount % width
      else index + amount % width - width := by
  rw [Nat.add_mod_eq_ite, Nat.mod_eq_of_lt inside]
  split <;> split <;> omega

theorem testBit_rotate_left (fits : value < 2 ^ width) (inside : index < width) :
    (rotate .left width value amount).testBit ((index + amount) % width) =
      value.testBit index := by
  have positive : 0 < width := by omega
  have distance := Nat.mod_lt amount positive
  rw [rotate, testBit_rotateLeft fits (Nat.mod_lt _ positive) (Nat.le_of_lt distance),
    add_mod_width inside]
  by_cases within : index + amount % width < width
  · rw [if_pos within, if_pos (Nat.le_add_left _ _), Nat.add_sub_cancel]
  · rw [if_neg within, if_neg (by omega)]
    congr 1
    omega

theorem testBit_rotate_right (fits : value < 2 ^ width) (inside : index < width) :
    (rotate .right width value amount).testBit index =
      value.testBit ((index + amount) % width) := by
  have positive : 0 < width := by omega
  have distance := Nat.mod_lt amount positive
  rw [rotate, testBit_rotateLeft fits inside (Nat.le_of_lt (Nat.mod_lt _ positive)),
    add_mod_width inside]
  by_cases none : amount % width = 0
  · rw [none, Nat.sub_zero, Nat.mod_self, if_pos (Nat.zero_le index), Nat.add_zero, if_pos inside,
      Nat.sub_zero]
  · have missing : (width - amount % width) % width = width - amount % width :=
      Nat.mod_eq_of_lt (by omega)
    rw [missing]
    by_cases within : index + amount % width < width
    · rw [if_pos within, if_neg (by omega), Nat.sub_sub_self (Nat.le_of_lt distance)]
    · rw [if_neg within, if_pos (by omega)]
      congr 1
      omega

theorem rotate_right_rotate_left (fits : value < 2 ^ width) (amount : Nat) :
    rotate .right width (rotate .left width value amount) amount = value := by
  have rotated := rotate_lt .left fits amount
  refine eq_of_testBit (rotate_lt .right rotated amount) fits fun index inside => ?_
  rw [testBit_rotate_right rotated inside, testBit_rotate_left fits inside]

theorem exists_moved (inside : index < width) (amount : Nat) :
    ∃ before, before < width ∧ (before + amount) % width = index := by
  have positive : 0 < width := by omega
  have distance := Nat.mod_lt amount positive
  by_cases moved : amount % width ≤ index
  · refine ⟨index - amount % width, by omega, ?_⟩
    rw [add_mod_width (by omega), if_pos (by omega)]
    omega
  · refine ⟨index + width - amount % width, by omega, ?_⟩
    rw [add_mod_width (by omega), if_neg (by omega)]
    omega

theorem rotate_left_rotate_right (fits : value < 2 ^ width) (amount : Nat) :
    rotate .left width (rotate .right width value amount) amount = value := by
  have rotated := rotate_lt .right fits amount
  refine eq_of_testBit (rotate_lt .left rotated amount) fits fun index inside => ?_
  rcases exists_moved inside amount with ⟨before, inside', rfl⟩
  rw [testBit_rotate_left rotated inside', testBit_rotate_right fits inside']

theorem rotate_mod (direction : Rotation) (width value amount : Nat) :
    rotate direction width value (amount % width) = rotate direction width value amount := by
  cases direction <;> simp only [rotate, Nat.mod_mod]

end BitTerms.Pattern

/-! ## Operators -/

namespace BitTerms.Operator

open Pattern

theorem evaluate_rotate (direction : Rotation) (width value amount : Nat) :
    (rotate direction).evaluate [.bits width value, .bits width amount] =
      .ok (.bits width (Pattern.rotate direction width value amount)) := rfl

/-- Where the bits of a shifted or rotated pattern come from, whatever the amount, and what follows
for the signed reading and for rotations one after the other. -/
theorem shifts_move_bits {width value : Nat} (positive : 0 < width) (fits : value < 2 ^ width)
    (amount : Nat) :
    ∃ (shifted : Shift → Nat) (rotated : Rotation → Nat),
      (∀ operation, (shift operation).evaluate [.bits width value, .bits width amount] =
        .ok (.bits width (shifted operation)) ∧ shifted operation < 2 ^ width) ∧
      (∀ direction, (rotate direction).evaluate [.bits width value, .bits width amount] =
        .ok (.bits width (rotated direction)) ∧ rotated direction < 2 ^ width) ∧
      (∀ index, index < width →
        ((shifted .left).testBit index =
          if amount ≤ index then value.testBit (index - amount) else false) ∧
        ((shifted .logicalRight).testBit index =
          if index + amount < width then value.testBit (index + amount) else false) ∧
        ((shifted .arithmeticRight).testBit index =
          if index + amount < width then value.testBit (index + amount)
          else value.testBit (width - 1)) ∧
        (rotated .left).testBit ((index + amount) % width) = value.testBit index ∧
        (rotated .right).testBit index = value.testBit ((index + amount) % width)) ∧
      signed width (shifted .arithmeticRight) = signed width value / (2 ^ amount : Nat) ∧
      (rotate .right).evaluate [.bits width (rotated .left), .bits width amount] =
        .ok (.bits width value) ∧
      (rotate .left).evaluate [.bits width (rotated .right), .bits width amount] =
        .ok (.bits width value) ∧
      ∀ direction,
        (rotate direction).evaluate [.bits width value, .bits width (amount % width)] =
          (rotate direction).evaluate [.bits width value, .bits width amount] := by
  refine ⟨fun operation => Pattern.shift operation width value amount,
    fun direction => Pattern.rotate direction width value amount,
    fun operation => ⟨rfl, shift_lt operation fits amount⟩,
    fun direction => ⟨rfl, rotate_lt direction fits amount⟩, fun index inside => ?_,
    signed_shift_arithmeticRight positive fits, ?_, ?_, fun direction => ?_⟩
  · exact ⟨testBit_shift_left inside, testBit_shift_logicalRight fits,
      testBit_shift_arithmeticRight fits inside, testBit_rotate_left fits inside,
      testBit_rotate_right fits inside⟩
  · rw [evaluate_rotate, rotate_right_rotate_left fits]
  · rw [evaluate_rotate, rotate_left_rotate_right fits]
  · rw [evaluate_rotate, evaluate_rotate, rotate_mod]

/-- Ten of four bits, a negative number, shifted and rotated by more than the width. -/
theorem shifts_move_bits_of_six :
    (∃ shifted, (shift .arithmeticRight).evaluate [.bits 4 10, .bits 4 6] =
      .ok (.bits 4 shifted) ∧ signed 4 shifted = -1) ∧
    ∃ rotated, (rotate .left).evaluate [.bits 4 10, .bits 4 7] = .ok (.bits 4 rotated) ∧
      rotated.testBit 0 = true ∧
      (rotate .right).evaluate [.bits 4 rotated, .bits 4 7] = .ok (.bits 4 10) := by
  rcases shifts_move_bits (show 0 < 4 by decide) (show 10 < 2 ^ 4 by decide) 6 with
    ⟨shifted, _, evaluated, _, _, divided, _⟩
  rcases shifts_move_bits (show 0 < 4 by decide) (show 10 < 2 ^ 4 by decide) 7 with
    ⟨_, rotated, _, evaluated', bits, _, undone, _⟩
  exact ⟨⟨_, (evaluated .arithmeticRight).1, divided⟩,
    _, (evaluated' .left).1, (bits 1 (by decide)).2.2.2.1, undone⟩

end BitTerms.Operator
