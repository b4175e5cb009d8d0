import BitTerms.Proofs.Operator.Shifts
import BitTerms.Proofs.Operator.Typing
import BitTerms.Proofs.Pattern.Expansions

/-!
# Patterns place by place

Where every bit of a pattern comes from that is combined of others place by place, joined of two,
cut out of one or repeated. Joining and cutting undo each other, and an extended pattern stands for
the same number and has the old pattern as its low bits.
-/

namespace BitTerms

/-- The truth function that a bitwise operation applies at every place. -/
def Bitwise.truth (left right : Bool) : Bitwise → Bool
  | .and => left && right
  | .or => left || right
  | .xor => left ^^ right
  | .nand => !(left && right)
  | .nor => !(left || right)
  | .xnor => !(left ^^ right)

namespace Pattern

variable {width leftWidth rightWidth value left right low index : Nat}

/-! ## Place by place -/

theorem testBit_xor_ones (value : Nat) (inside : index < width) :
    (value ^^^ ones width).testBit index = !value.testBit index := by
  rw [Nat.testBit_xor, testBit_ones, decide_eq_true inside, Bool.xor_true]

theorem testBit_bitwise (operation : Bitwise) (left right : Nat) (inside : index < width) :
    (bitwise operation width left right).testBit index =
      operation.truth (left.testBit index) (right.testBit index) := by
  cases operation with
  | and => exact Nat.testBit_and left right index
  | or => exact Nat.testBit_or left right index
  | xor => exact Nat.testBit_xor left right index
  | nand => rw [bitwise, testBit_xor_ones _ inside, Nat.testBit_and, Bitwise.truth]
  | nor => rw [bitwise, testBit_xor_ones _ inside, Nat.testBit_or, Bitwise.truth]
  | xnor => rw [bitwise, testBit_xor_ones _ inside, Nat.testBit_xor, Bitwise.truth]

/-! ## Joining and cutting -/

theorem testBit_concat (left : Nat) (rightFits : right < 2 ^ rightWidth) (index : Nat) :
    (concat rightWidth left right).testBit index =
      if index < rightWidth then right.testBit index else left.testBit (index - rightWidth) := by
  rw [concat, Nat.testBit_or, Nat.testBit_shiftLeft]
  split
  case isTrue below => simp [Nat.not_le_of_lt below]
  case isFalse above =>
      simp [Nat.le_of_not_lt above, testBit_of_width_le rightFits (Nat.le_of_not_lt above)]

theorem testBit_extract (low value : Nat) (inside : index < width) :
    (extract width low value).testBit index = value.testBit (low + index) := by
  rw [extract, testBit_truncate, Nat.testBit_shiftRight, decide_eq_true inside, Bool.true_and]

theorem extract_concat_left (leftFits : left < 2 ^ leftWidth) (rightFits : right < 2 ^ rightWidth) :
    extract leftWidth rightWidth (concat rightWidth left right) = left := by
  refine eq_of_testBit (extract_lt _ _ _) leftFits fun index inside => ?_
  rw [testBit_extract _ _ inside, testBit_concat left rightFits, if_neg (by omega),
    Nat.add_sub_cancel_left]

theorem extract_concat_right (left : Nat) (rightFits : right < 2 ^ rightWidth) :
    extract rightWidth 0 (concat rightWidth left right) = right := by
  refine eq_of_testBit (extract_lt _ _ _) rightFits fun index inside => ?_
  rw [testBit_extract _ _ inside, testBit_concat left rightFits, Nat.zero_add, if_pos inside]

theorem concat_extract (fits : value < 2 ^ width) (cut : Nat) (within : cut ≤ width) :
    concat cut (extract (width - cut) cut value) (extract cut 0 value) = value := by
  have joinedFits := concat_lt (extract_lt (width - cut) cut value) (extract_lt cut 0 value)
  rw [Nat.sub_add_cancel within] at joinedFits
  refine eq_of_testBit joinedFits fits fun index inside => ?_
  rw [testBit_concat _ (extract_lt cut 0 value)]
  split
  case isTrue below => rw [testBit_extract 0 value below, Nat.zero_add]
  case isFalse above => rw [testBit_extract cut value (by omega), Nat.add_sub_of_le (by omega)]

/-! ## Repeating -/

theorem replicate_succ (count width value : Nat) :
    replicate (count + 1) width value = concat width (replicate count width value) value := rfl

theorem testBit_replicate (fits : value < 2 ^ width) (count : Nat)
    (inside : index < width * count) :
    (replicate count width value).testBit index = value.testBit (index % width) := by
  induction count generalizing index with
  | zero => simp at inside
  | succ count induction =>
      rw [replicate_succ, testBit_concat _ fits]
      split
      case isTrue last => rw [Nat.mod_eq_of_lt last]
      case isFalse others =>
          have earlier : index - width < width * count := by
            rw [Nat.mul_succ] at inside
            omega
          rw [induction earlier, ← Nat.mod_eq_sub_mod (Nat.le_of_not_lt others)]

/-! ## Extending -/

theorem ofInt_signed (fits : value < 2 ^ width) : ofInt width (signed width value) = value :=
  (ofInt_eq_iff.mpr (modEq_signed width value)).trans (ofInt_natCast_of_lt fits)

/-- An extension stands for the same number. -/
theorem read_extend (reading : Reading) (extra : Nat) (positive : 0 < width)
    (fits : value < 2 ^ width) :
    reading.read (width + extra) (extend reading extra width value) = reading.read width value := by
  cases reading with
  | unsigned => rfl
  | signed =>
      have range := fits_signed positive fits
      have wider : 2 ^ (width - 1) ≤ 2 ^ (width + extra - 1) :=
        Nat.pow_le_pow_right (by decide) (by omega)
      refine (signed_ofInt_iff (Nat.add_pos_left positive extra)).mpr ?_
      simp only [Reading.Fits, Reading.least, Reading.bound] at range ⊢
      omega

theorem extract_extend (reading : Reading) (extra : Nat) (fits : value < 2 ^ width) :
    extract width 0 (extend reading extra width value) = value := by
  rw [extract, Nat.shiftRight_zero]
  cases reading with
  | unsigned => exact truncate_of_lt fits
  | signed => rw [extend_signed, truncate_ofInt, ofInt_signed fits]

end Pattern

/-! ## Operators -/

namespace Operator

open Pattern

/-- The application has a value, which is a pattern of this width with the property. -/
def Gives (operator : Operator) (operands : List Value) (width : Nat) (has : Nat → Prop) : Prop :=
  ∃ result, operator.evaluate operands = .ok (.bits width result) ∧ result < 2 ^ width ∧ has result

theorem evaluate_extract (high low width value : Nat) :
    (extract high low).evaluate [.bits width value] =
      .ok (.bits (high + 1 - low) (Pattern.extract (high + 1 - low) low value)) := rfl

theorem evaluate_concat (leftWidth left rightWidth right : Nat) :
    concat.evaluate [.bits leftWidth left, .bits rightWidth right] =
      .ok (.bits (leftWidth + rightWidth) (Pattern.concat rightWidth left right)) := rfl

/-- How operators combine, join, cut, extend and repeat the bits of a pattern, wherever the typing
rules accept them, and which of these steps undo others. -/
theorem patterns_place_by_place {width : Width} {value : Nat} (fits : value < 2 ^ width.bits) :
    complement.Gives [.bits width.bits value] width.bits (fun result =>
      ∀ index, index < width.bits → result.testBit index = !value.testBit index) ∧
    (∀ (operation : Bitwise) {other : Nat}, other < 2 ^ width.bits →
      (bitwise operation).Gives [.bits width.bits value, .bits width.bits other] width.bits
        fun result => ∀ index, index < width.bits →
          result.testBit index = operation.truth (value.testBit index) (other.testBit index)) ∧
    (∀ {right joint : Width} {other : Nat},
      concat.resultSort [.bits width, .bits right] = .ok (.bits joint) → other < 2 ^ right.bits →
        concat.Gives [.bits width.bits value, .bits right.bits other] joint.bits fun joined =>
          (∀ index, index < joint.bits → joined.testBit index =
            if index < right.bits then other.testBit index
            else value.testBit (index - right.bits)) ∧
          (extract (joint.bits - 1) right.bits).evaluate [.bits joint.bits joined] =
            .ok (.bits width.bits value) ∧
          (extract (right.bits - 1) 0).evaluate [.bits joint.bits joined] =
            .ok (.bits right.bits other)) ∧
    (∀ {high low : Nat} {part : Width},
      (extract high low).resultSort [.bits width] = .ok (.bits part) →
        (extract high low).Gives [.bits width.bits value] part.bits fun result =>
          ∀ index, index < part.bits → result.testBit index = value.testBit (low + index)) ∧
    (∀ cut, 0 < cut → cut < width.bits →
      (extract (width.bits - 1) cut).Gives [.bits width.bits value] (width.bits - cut) fun upper =>
        (extract (cut - 1) 0).Gives [.bits width.bits value] cut fun lower =>
          concat.evaluate [.bits (width.bits - cut) upper, .bits cut lower] =
            .ok (.bits width.bits value)) ∧
    (∀ (reading : Reading) {extra : Nat} {wider : Width},
      (extend reading extra).resultSort [.bits width] = .ok (.bits wider) →
        (extend reading extra).Gives [.bits width.bits value] wider.bits fun result =>
          reading.read wider.bits result = reading.read width.bits value ∧
          (extract (width.bits - 1) 0).evaluate [.bits wider.bits result] =
            .ok (.bits width.bits value)) ∧
    ∀ {count : Nat} {wider : Width},
      (replicate count).resultSort [.bits width] = .ok (.bits wider) →
        (replicate count).Gives [.bits width.bits value] wider.bits fun result =>
          ∀ index, index < wider.bits →
            result.testBit index = value.testBit (index % width.bits) := by
  have positive := width.pos
  refine ⟨?_, fun operation other otherFits => ?_, fun {right joint other} typed otherFits => ?_,
    fun {high low part} typed => ?_, fun cut some within => ?_,
    fun reading {extra wider} typed => ?_, fun {count wider} typed => ?_⟩
  · exact ⟨_, rfl, Nat.xor_lt_two_pow fits (ones_lt _), fun index => testBit_xor_ones value⟩
  · exact ⟨_, rfl, bitwise_lt operation fits otherFits, fun index => testBit_bitwise operation _ _⟩
  · cases types_of_resultSort typed with
    | concat _ _ _ sum =>
        have joinedFits := concat_lt fits otherFits
        have onRight := right.pos
        rw [sum]
        refine ⟨_, evaluate_concat .., joinedFits, fun index _ => testBit_concat _ otherFits index,
          ?_, ?_⟩
        · have size : width.bits + right.bits - 1 + 1 - right.bits = width.bits := by omega
          rw [evaluate_extract, size, extract_concat_left fits otherFits]
        · have size : right.bits - 1 + 1 - 0 = right.bits := by omega
          rw [evaluate_extract, size, extract_concat_right _ otherFits]
  · cases types_of_resultSort typed with
    | extract _ _ _ _ ordered inside count =>
        have size : high + 1 - low = part.bits := by omega
        refine ⟨_, by rw [evaluate_extract, size], extract_lt _ _ _, fun index => ?_⟩
        exact testBit_extract low value
  · have upperSize : width.bits - 1 + 1 - cut = width.bits - cut := by omega
    have lowerSize : cut - 1 + 1 - 0 = cut := by omega
    have joined : concat.evaluate
        [.bits (width.bits - cut) (Pattern.extract (width.bits - cut) cut value),
          .bits cut (Pattern.extract cut 0 value)] = .ok (.bits width.bits value) := by
      rw [evaluate_concat, Nat.sub_add_cancel (Nat.le_of_lt within),
        concat_extract fits cut (Nat.le_of_lt within)]
    exact ⟨_, by rw [evaluate_extract, upperSize], extract_lt _ _ _,
      _, by rw [evaluate_extract, lowerSize], extract_lt _ _ _, joined⟩
  · cases types_of_resultSort typed with
    | extend _ _ _ _ sum =>
        have size : width.bits - 1 + 1 - 0 = width.bits := by omega
        rw [sum]
        refine ⟨_, rfl, extend_lt reading extra fits, read_extend reading extra positive fits, ?_⟩
        rw [evaluate_extract, size, extract_extend reading extra fits]
  · cases types_of_resultSort typed with
    | replicate _ _ _ _ product =>
        rw [product]
        exact ⟨_, rfl, replicate_lt count fits, fun index => testBit_replicate fits count⟩

/-- Nine of four bits, a negative number: joined with zero, extended and repeated. -/
theorem patterns_place_by_place_of_nine :
    let nibble : Width := ⟨4, by decide, by decide⟩
    let byte : Width := ⟨8, by decide, by decide⟩
    concat.resultSort [.bits nibble, .bits nibble] = .ok (.bits byte) ∧
      (∃ joined, concat.evaluate [.bits 4 9, .bits 4 0] = .ok (.bits 8 joined) ∧
        (extract 7 4).evaluate [.bits 8 joined] = .ok (.bits 4 9)) ∧
      (extend .signed 4).resultSort [.bits nibble] = .ok (.bits byte) ∧
      (∃ result, (extend .signed 4).evaluate [.bits 4 9] = .ok (.bits 8 result) ∧
        signed 8 result = -7) ∧
      (replicate 2).resultSort [.bits nibble] = .ok (.bits byte) ∧
      ∃ result, (replicate 2).evaluate [.bits 4 9] = .ok (.bits 8 result) ∧
        result.testBit 7 = true := by
  intro nibble byte
  have nine : 9 < 2 ^ nibble.bits := by decide
  have joinTyped : concat.resultSort [.bits nibble, .bits nibble] = .ok (.bits byte) := rfl
  have extendTyped : (extend .signed 4).resultSort [.bits nibble] = .ok (.bits byte) := rfl
  have repeatTyped : (replicate 2).resultSort [.bits nibble] = .ok (.bits byte) := rfl
  rcases patterns_place_by_place nine with ⟨-, -, joins, -, -, extensions, repetitions⟩
  rcases joins joinTyped (show 0 < 2 ^ 4 by decide) with ⟨joined, isJoined, -, -, upper, -⟩
  rcases extensions .signed extendTyped with ⟨extended, isExtended, -, same, -⟩
  rcases repetitions repeatTyped with ⟨repeated, isRepeated, -, bits⟩
  exact ⟨joinTyped, ⟨joined, isJoined, upper⟩, extendTyped,
    ⟨extended, isExtended, same.trans (by decide)⟩, repeatTyped,
    repeated, isRepeated, (bits 7 (by decide)).trans (by decide)⟩

end Operator

end BitTerms
