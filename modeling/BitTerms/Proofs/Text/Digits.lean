import BitTerms.Text.Digits

/-!
# Digits are read as they were written

Reading the digits of a number, with or without zeros in front, gives the number back. Only digits
are read; the plus sign and the underscores that the lenient reading allows are none of them, so
it agrees with the plain one on what the plain one accepts.
-/

namespace BitTerms.Text

variable {base number : Nat} {text : List Char}

theorem digitValue?_digitChar : ∀ digit < 16, digitValue? (Nat.digitChar digit) = some digit := by
  decide

theorem digitOf?_digitChar (small : base ≤ 16) {digit : Nat} (inBase : digit < base) :
    digitOf? base (Nat.digitChar digit) = some digit := by
  rw [digitOf?, digitValue?_digitChar digit (Nat.lt_of_lt_of_le inBase small)]
  simpa [Option.filter] using inBase

/-! ## Reading -/

theorem readDigits_append (first second : List Char) :
    readDigits base number (first ++ second) =
      (readDigits base number first).bind fun value => readDigits base value second := by
  induction first generalizing number with
  | nil => rfl
  | cons character rest induction =>
      simp only [List.cons_append, readDigits]
      cases digitOf? base character with
      | none => rfl
      | some digit => exact induction

theorem readDigits_zeros (several : 1 < base) (small : base ≤ 16) (count : Nat) :
    readDigits base 0 (List.replicate count '0') = some 0 := by
  induction count with
  | zero => rfl
  | succ count induction =>
      have zero : digitOf? base '0' = some 0 :=
        digitOf?_digitChar small (Nat.lt_trans Nat.zero_lt_one several)
      rw [List.replicate_succ, readDigits, zero]
      simpa using induction

theorem readDigits_toDigits (several : 1 < base) (small : base ≤ 16) (number : Nat) :
    readDigits base 0 (Nat.toDigits base number) = some number := by
  induction number using Nat.strongRecOn with
  | ind number induction =>
      have last (before digit : Nat) (inBase : digit < base) :
          readDigits base before [Nat.digitChar digit] = some (before * base + digit) := by
        simp [readDigits, digitOf?_digitChar small inBase]
      rw [Nat.toDigits_eq_if several]
      split
      case isTrue single => simpa using last 0 number single
      case isFalse more =>
          have smaller : number / base < number := Nat.div_lt_self (by omega) several
          rw [readDigits_append, induction _ smaller, Option.bind_some,
            last _ _ (Nat.mod_lt number (by omega)), Nat.mul_comm, Nat.div_add_mod]

theorem readDigits_paddedDigits (several : 1 < base) (small : base ≤ 16) (count number : Nat) :
    readDigits base 0 (paddedDigits base count number) = some number := by
  rw [paddedDigits, readDigits_append, readDigits_zeros several small, Option.bind_some,
    readDigits_toDigits several small]

theorem length_paddedDigits (several : 1 < base) {count : Nat} (some : 0 < count)
    (fits : number < base ^ count) : (paddedDigits base count number).length = count := by
  have atMost := (Nat.length_toDigits_le_iff several some).mpr fits
  simp only [paddedDigits, List.length_append, List.length_replicate]
  omega

/-! ## Lenient reading -/

theorem exists_digitOf?_of_readDigits {value : Nat}
    (read : readDigits base number text = some value) :
    ∀ character ∈ text, ∃ digit, digitOf? base character = some digit := by
  induction text generalizing number with
  | nil => simp
  | cons first rest induction =>
      rcases Option.bind_eq_some_iff.mp read with ⟨digit, found, readRest⟩
      intro character member
      rcases List.mem_cons.mp member with rfl | member
      · exact ⟨digit, found⟩
      · exact induction readRest character member

theorem digitOf?_underscore (base : Nat) : digitOf? base '_' = none := by
  have : digitValue? '_' = none := by decide
  simp [digitOf?, this]

theorem digitOf?_plus (base : Nat) : digitOf? base '+' = none := by
  have : digitValue? '+' = none := by decide
  simp [digitOf?, this]

theorem lenientDigits?_iff {value : Nat} :
    lenientDigits? base text = some value ↔
      withoutPlus text ≠ [] ∧ (withoutPlus text).head? ≠ some '_' ∧
        readDigits base 0 ((withoutPlus text).filter (· ≠ '_')) = some value := by
  unfold lenientDigits?
  cases withoutPlus text with
  | nil => simp
  | cons first rest =>
      by_cases underscore : first = '_'
      · simp [underscore]
      · simp [underscore]

/-- What is read strictly is read leniently as the same number. -/
theorem lenientDigits?_of_readDigits {value : Nat} (present : text ≠ [])
    (read : readDigits base 0 text = some value) : lenientDigits? base text = some value := by
  have digits := exists_digitOf?_of_readDigits read
  have noUnderscore : '_' ∉ text := by
    intro member
    rcases digits '_' member with ⟨digit, found⟩
    simp [digitOf?_underscore] at found
  have noPlus : withoutPlus text = text := by
    unfold withoutPlus
    split
    · rfl
    · rcases digits '+' List.mem_cons_self with ⟨digit, found⟩
      simp [digitOf?_plus] at found
    · rfl
  have unfiltered : text.filter (· ≠ '_') = text := by
    rw [List.filter_eq_self]
    intro character member
    have : character ≠ '_' := fun same => noUnderscore (same ▸ member)
    simpa using this
  rw [lenientDigits?_iff, noPlus, unfiltered]
  exact ⟨present, fun first => noUnderscore (List.mem_of_head? first), read⟩

/-- What follows a number is less than one more at the front. -/
theorem readDigits_lt {value : Nat} (read : readDigits base number text = some value) :
    value < (number + 1) * base ^ text.length := by
  induction text generalizing number with
  | nil =>
      rcases Option.some.inj read with rfl
      simp
  | cons first rest induction =>
      rcases Option.bind_eq_some_iff.mp read with ⟨digit, found, readRest⟩
      have inBase : digit < base := by
        simpa using (Option.filter_eq_some_iff.mp found).2
      calc value
        _ < (number * base + digit + 1) * base ^ rest.length := induction readRest
        _ ≤ (number + 1) * base * base ^ rest.length := by
            refine Nat.mul_le_mul_right _ ?_
            rw [Nat.add_mul, Nat.one_mul]
            omega
        _ = (number + 1) * base ^ (first :: rest).length := by
            rw [List.length_cons, Nat.pow_succ', Nat.mul_assoc]

theorem length_withoutPlus_le (text : List Char) : (withoutPlus text).length ≤ text.length := by
  unfold withoutPlus
  split <;> simp

theorem lenientDigits?_lt {value : Nat} (positive : 0 < base)
    (read : lenientDigits? base text = some value) : value < base ^ text.length := by
  have shorter := length_withoutPlus_le text
  have fewer := List.length_filter_le (· ≠ '_') (withoutPlus text)
  calc value
    _ < (0 + 1) * base ^ ((withoutPlus text).filter (· ≠ '_')).length :=
        readDigits_lt (lenientDigits?_iff.mp read).2.2
    _ ≤ base ^ text.length := by
        rw [Nat.zero_add, Nat.one_mul]
        exact Nat.pow_le_pow_right positive (by omega)

theorem decimal?_toString (number : Nat) : decimal? (toString number).toList = some number := by
  have read : readDigits 10 0 (Nat.toDigits 10 number) = some number :=
    readDigits_toDigits (by decide) (by decide) number
  have digits : (toString number).toList = Nat.toDigits 10 number := by
    simp [Nat.toList_repr]
  rw [digits]
  cases written : Nat.toDigits 10 number with
  | nil => exact absurd written Nat.toDigits_ne_nil
  | cons first rest =>
      rw [written] at read
      exact read

end BitTerms.Text
