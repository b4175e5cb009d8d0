import BitTerms.Context
import BitTerms.Proofs.Pattern.Signed

/-!
# Narrowing is exact

A literal of any width is narrowed to a signed word in three ways: by shifts within a word where the
width is less than that of a word, by taking the word as it is where its top bit is clear, and from
the exact numeral otherwise. All three give the two's complement reading, wherever that is a word,
and the first two look at nothing but the low bits.
-/

namespace BitTerms

/-! ## Words -/

namespace Pattern

variable {width value : Nat}

/-- Zeros behind a pattern multiply what it is read as. -/
theorem signed_mul_two_pow (positive : 0 < width) (value distance : Nat) :
    signed (width + distance) (value * 2 ^ distance) =
      signed width value * (2 ^ distance : Nat) := by
  have sameSign : sign (width + distance) (value * 2 ^ distance) = sign width value := by
    have top : width + distance - 1 - distance = width - 1 := by omega
    rw [sign, ← Nat.shiftLeft_eq, Nat.testBit_shiftLeft, top, decide_eq_true (by omega),
      Bool.true_and]
    rfl
  rw [signed, signed, sameSign]
  split
  · rw [Int.sub_mul, ← Int.natCast_mul, ← Int.natCast_mul, Nat.pow_add]
  · exact Int.natCast_mul value _

theorem signed_of_lt_half (positive : 0 < width) (small : value < 2 ^ (width - 1)) :
    signed width value = value := by
  have double := two_pow_eq positive
  rw [signed_eq positive (by omega), if_neg (by omega)]

end Pattern

namespace Narrowed

open Pattern

variable {width value : Nat}

theorem toInt_toInt64 (word : UInt64) : word.toInt64.toInt = signed 64 word.toNat := by
  have bound := word.toNat_lt
  have same : word.toInt64.toInt = word.toBitVec.toInt := rfl
  rw [same, BitVec.toInt_eq_toNat_cond, signed_eq (by decide) bound, UInt64.toNat_toBitVec]
  split <;> split <;> omega

/-- A distance of less than the width of a word is not reduced before the shift. -/
theorem toNat_distance {distance : Nat} (below : distance < 64) :
    ((UInt64.ofNat distance).toInt64.toBitVec.smod 64).toNat = distance := by
  have each : ∀ distance : Fin 64,
      ((UInt64.ofNat distance).toInt64.toBitVec.smod 64).toNat = distance := by decide +kernel
  exact each ⟨distance, below⟩

theorem toInt_shiftRight (word : Int64) {distance : Nat} (below : distance < 64) :
    (word >>> (UInt64.ofNat distance).toInt64).toInt = word.toInt / (2 ^ distance : Nat) := by
  rw [← Int64.toInt_toBitVec, Int64.toBitVec_shiftRight, BitVec.toInt_sshiftRight',
    toNat_distance below, Int.shiftRight_eq_div_pow, Int64.toInt_toBitVec]

theorem toNat_shiftLeft (width : Nat) (pattern : UInt64) (positive : 0 < width)
    (narrow : width < 64) :
    (pattern <<< UInt64.ofNat (64 - width)).toNat =
      truncate width pattern.toNat * 2 ^ (64 - width) := by
  have distance : (UInt64.ofNat (64 - width)).toNat % 64 = 64 - width := by
    rw [UInt64.toNat_ofNat']
    omega
  have parts : 2 ^ width * 2 ^ (64 - width) = 2 ^ 64 := by
    rw [← Nat.pow_add, Nat.add_sub_of_le (Nat.le_of_lt narrow)]
  rw [UInt64.toNat_shiftLeft, distance, Nat.shiftLeft_eq, ← parts, Nat.mul_mod_mul_right, truncate]

/-- The shifts to the top of a word and back give the reading of the low bits, whatever stands above
them. -/
theorem toInt_signExtend (positive : 0 < width) (narrow : width < 64) (pattern : UInt64) :
    (signExtend width pattern).toInt = signed width (truncate width pattern.toNat) := by
  have whole : width + (64 - width) = 64 := Nat.add_sub_of_le (Nat.le_of_lt narrow)
  have shifted := signed_mul_two_pow positive (truncate width pattern.toNat) (64 - width)
  rw [whole] at shifted
  have power := Nat.two_pow_pos (64 - width)
  rw [signExtend, toInt_shiftRight _ (by omega), toInt_toInt64,
    toNat_shiftLeft width pattern positive narrow, shifted, Int.mul_ediv_cancel _ (by omega)]

/-! ## What settles a reading -/

theorem settled?_some (width : Nat) (pattern : UInt64) :
    settled? width (some pattern) =
      if width < 64 then some (signExtend width pattern)
      else if pattern < 0x8000000000000000 then some pattern.toInt64 else none := rfl

theorem settles_iff (width : Nat) (pattern : UInt64) :
    (settled? width (some pattern)).isSome ↔ width < 64 ∨ pattern.toNat < 2 ^ 63 := by
  have top : pattern < 0x8000000000000000 ↔ pattern.toNat < 2 ^ 63 := UInt64.lt_iff_toNat_lt
  rw [settled?_some, ← top]
  by_cases narrow : width < 64
  · simp [narrow]
  · by_cases small : pattern < 0x8000000000000000 <;> simp [narrow, small]

/-- The word of a pattern, if it fits one. -/
def word? (pattern : Nat) : Option UInt64 :=
  if pattern < 2 ^ 64 then some (UInt64.ofNat pattern) else none

theorem toNat_of_word? {pattern : Nat} {word : UInt64} (isWord : word? pattern = some word) :
    word.toNat = pattern := by
  unfold word? at isWord
  split at isWord
  case isTrue fits =>
      cases isWord
      rw [UInt64.toNat_ofNat', Nat.mod_eq_of_lt fits]
  case isFalse => cases isWord

/-- Where the word of a pattern settles its reading, it is the two's complement reading. -/
theorem toInt_of_settled? (positive : 0 < width) (fits : value < 2 ^ width) {word : UInt64}
    (isWord : word? value = some word) {number : Int64}
    (settled : settled? width (some word) = some number) : number.toInt = signed width value := by
  have same := toNat_of_word? isWord
  rw [settled?_some] at settled
  split at settled
  case isTrue narrow =>
      cases settled
      rw [toInt_signExtend positive narrow, same, truncate_of_lt fits]
  case isFalse wide =>
      split at settled
      case isTrue clear =>
          cases settled
          have small : value < 2 ^ 63 := same ▸ UInt64.lt_iff_toNat_lt.mp clear
          have within : 2 ^ 63 ≤ 2 ^ (width - 1) := Nat.pow_le_pow_right (by decide) (by omega)
          rw [toInt_toInt64, same, signed_of_lt_half (by decide) small,
            signed_of_lt_half positive (by omega)]
      case isFalse => cases settled

theorem ofInt_eq (number : Int) :
    ofInt number =
      if -2 ^ 63 ≤ number ∧ number < 2 ^ 63 then .value (Int64.ofInt number) else .outOfRange := by
  have above : number ≤ Int64.maxValue.toInt ↔ number < 2 ^ 63 := by
    rw [Int64.toInt_maxValue]
    omega
  simp only [ofInt, Int64.toInt_minValue, above]

theorem ofInt_eq_value_iff {number : Int} {word : Int64} :
    ofInt number = .value word ↔ word.toInt = number := by
  rw [ofInt_eq]
  constructor
  · intro same
    split at same
    case isTrue inRange =>
        cases same
        exact Int64.toInt_ofInt_of_le inRange.1 inRange.2
    case isFalse => cases same
  · rintro rfl
    rw [if_pos ⟨word.le_toInt, word.toInt_lt⟩, Int64.ofInt_toInt]

/-- The exact numeral is not asked for where the word of the pattern settles the reading. -/
theorem ofSigned_of_settled {pattern : Option UInt64} {number : Int64}
    (settled : settled? width pattern = some number) (exact : Unit → Option Nat) :
    ofSigned width pattern exact = .value number := by
  rw [ofSigned, settled]

theorem ofSigned_word? (positive : 0 < width) (fits : value < 2 ^ width) :
    ofSigned width (word? value) (fun _ => some value) = ofInt (signed width value) := by
  cases settled : settled? width (word? value) with
  | none =>
      rw [ofSigned, settled]
  | some number =>
      rw [ofSigned_of_settled settled]
      cases isWord : word? value with
      | none =>
          rw [isWord] at settled
          cases settled
      | some word =>
          rw [isWord] at settled
          exact (ofInt_eq_value_iff.mpr (toInt_of_settled? positive fits isWord settled)).symm

theorem settled_iff (width : Nat) (pattern : Option UInt64) :
    (settled? width pattern).isSome ↔
      ∃ word, pattern = some word ∧ (width < 64 ∨ word.toNat < 2 ^ 63) := by
  cases pattern with
  | none => simp [settled?]
  | some word => simp [settles_iff]

/-- The exact numeral is asked for exactly if the answer hangs on it. -/
theorem settled_iff_forall {pattern : Option UInt64}
    (exact : ofSigned width pattern (fun _ => some value) = ofInt (signed width value)) :
    (settled? width pattern).isSome ↔
      ∀ other, ofSigned width pattern other = ofInt (signed width value) := by
  constructor
  · intro isSettled other
    rcases Option.isSome_iff_exists.mp isSettled with ⟨number, settled⟩
    rw [← exact, ofSigned_of_settled settled, ofSigned_of_settled settled]
  · intro alike
    cases settled : settled? width pattern with
    | some number => rfl
    | none =>
        have unread := alike fun _ => none
        simp only [ofSigned, settled, ofInt_eq] at unread
        split at unread <;> cases unread

/-! ## Literals -/

theorem isLiteral_ofNat (number : Nat) : (ofNat number).isLiteral = true := by
  unfold ofNat
  split <;> rfl

theorem isLiteral_ofInt (number : Int) : (ofInt number).isLiteral = true := by
  unfold ofInt
  split <;> rfl

theorem isLiteral_ofSigned (width : Nat) (pattern : Option UInt64) (numeral : Nat) :
    (ofSigned width pattern fun _ => some numeral).isLiteral = true := by
  unfold ofSigned
  split
  · rfl
  · exact isLiteral_ofInt _

theorem signedWord_bits (width bits pattern : Nat) :
    Literal.signedWord width (some (.bits bits pattern)) =
      ofSigned width (word? pattern) fun _ => some pattern := by
  have size : UInt64.size = 2 ^ 64 := rfl
  simp only [Literal.signedWord, Literal.word, ofNat, word?, size]
  by_cases fits : pattern < 2 ^ 64
  · simp only [if_pos fits]
    rfl
  · simp only [if_neg fits]
    rfl

/-- The two's complement reading of a pattern is narrowed to the signed word of that number, and to
nothing else where there is none. The exact numeral is asked for only where the word of the pattern
does not settle this. So in every context a literal is read as a signed word exactly if its reading
is one. The shifts within a word read the low bits of any word. -/
theorem narrowing_exact {width value : Nat} (positive : 0 < width) (fits : value < 2 ^ width) :
    let reading := signed width value
    let narrowed : Narrowed Int64 :=
      if -2 ^ 63 ≤ reading ∧ reading < 2 ^ 63 then .value (Int64.ofInt reading) else .outOfRange
    let pattern := if value < 2 ^ 64 then some (UInt64.ofNat value) else none
    (Reading.signed.Fits width reading ∧ reading ≡ value [ZMOD (2 ^ width : Nat)]) ∧
    ofSigned width pattern (fun _ => some value) = narrowed ∧
    ((settled? width pattern).isSome ↔
      ∃ word, pattern = some word ∧ (width < 64 ∨ word.toNat < 2 ^ 63)) ∧
    ((settled? width pattern).isSome ↔ ∀ exact, ofSigned width pattern exact = narrowed) ∧
    (∀ {σ : Type} [Engine σ] (context : Context σ) (expr : Expr),
      context.literal? expr = some (.bits width value) →
        Literal.signed? width (context.literal? expr) = some reading ∧
        Literal.signedWord width (context.literal? expr) = narrowed ∧
        ∀ number, Literal.signedWord width (context.literal? expr) = .value number ↔
          number.toInt = reading) ∧
    (width < 64 → ∀ word : UInt64,
      (signExtend width word).toInt = signed width (word.toNat % 2 ^ width)) := by
  intro reading narrowed pattern
  have asInt : narrowed = ofInt reading := (ofInt_eq reading).symm
  have exact : ofSigned width pattern (fun _ => some value) = ofInt reading :=
    ofSigned_word? positive fits
  rw [asInt]
  refine ⟨⟨fits_signed positive fits, modEq_signed width value⟩, exact, settled_iff width pattern,
    settled_iff_forall exact, fun context expr literal => ?_,
    fun narrow word => toInt_signExtend positive narrow word⟩
  have asWord : Literal.signedWord width (context.literal? expr) = ofInt reading := by
    rw [literal, signedWord_bits]
    exact exact
  refine ⟨by rw [literal]; rfl, asWord, fun number => ?_⟩
  rw [asWord, ofInt_eq_value_iff]

/-- Minus one in 65 bits: its pattern is larger than any word. -/
theorem narrowing_exact_of_wide_minus_one :
    let width : Width := ⟨65, by decide, by decide⟩
    let label : TermLabel := ⟨.bits (2 ^ 65 - 1), .bits width⟩
    let terms := (({} : Dag TermLabel).intern ⟨label, []⟩).2
    let context : Context TermTable := ⟨0, { terms }, {}⟩
    let expr : Expr := ⟨0, .bits width, 0⟩
    context.literal? expr = some (.bits 65 (2 ^ 65 - 1)) ∧
      ofSigned 65 none (fun _ => some (2 ^ 65 - 1)) = .value (-1) ∧
      Literal.signedWord 65 (context.literal? expr) = .value (-1) := by
  intro width label terms context expr
  have literal : context.literal? expr = some (.bits 65 (2 ^ 65 - 1)) := by
    simp [Context.literal?, Engine.literal?, TermTable.literal?, context, expr, terms, label, width,
      Dag.intern, Dag.label?, TermLabel.literal?, SmtSort.width?]
  rcases narrowing_exact (show 0 < 65 by decide) (show 2 ^ 65 - 1 < 2 ^ 65 by decide) with
    ⟨-, narrowed, -, -, literals, -⟩
  refine ⟨literal, narrowed, ((literals context expr literal).2.2 (-1)).mpr ?_⟩
  decide +kernel

end Narrowed

end BitTerms
