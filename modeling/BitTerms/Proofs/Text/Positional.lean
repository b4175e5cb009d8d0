import BitTerms.Proofs.Pointwise
import BitTerms.Proofs.Text.Digits
import Mathlib.Data.Nat.Digits.Defs
import Mathlib.Tactic.Ring

/-!
# What is read as a number

`Text.Spells` says which number a text of digits spells, by its place values. The plain reading
accepts exactly these texts, as that number. `Text.SpellsLeniently` says the same of the lenient
reading, with the plus sign and the underscores that it passes over.
-/

namespace BitTerms.Text

/-! ## Digits -/

/-- The digits with what they stand for. -/
def digitTable : List (Char × Nat) :=
  "0123456789abcdef".toList.zipIdx ++ "ABCDEF".toList.zipIdx 10

/-- The character is a digit in the base and stands for the number. -/
def IsDigit (base : Nat) (character : Char) (digit : Nat) : Prop :=
  (character, digit) ∈ digitTable ∧ digit < base

theorem toNat_lt_of_digitValue? {character : Char} {digit : Nat}
    (found : digitValue? character = some digit) : character.toNat < 103 := by
  have bounded {last : Char} (small : last.toNat < 103) (atMost : character ≤ last) :
      character.toNat < 103 := Nat.lt_of_le_of_lt atMost small
  unfold digitValue? at found
  split at found
  case isTrue decimal => exact bounded (by decide) decimal.2
  case isFalse =>
      split at found
      case isTrue lower => exact bounded (by decide) lower.2
      case isFalse =>
          split at found
          case isTrue upper => exact bounded (by decide) upper.2
          case isFalse => cases found

theorem mem_digitTable_iff {character : Char} {digit : Nat} :
    (character, digit) ∈ digitTable ↔ digitValue? character = some digit := by
  constructor
  · have listed : ∀ entry ∈ digitTable, digitValue? entry.1 = some entry.2 := by decide +kernel
    exact listed (character, digit)
  · intro found
    have known : ∀ code < 103, ∀ digit ∈ digitValue? (Char.ofNat code),
        (Char.ofNat code, digit) ∈ digitTable := by decide +kernel
    have here := known character.toNat (toNat_lt_of_digitValue? found)
    rw [Char.ofNat_toNat] at here
    exact here digit found

theorem isDigit_iff {base : Nat} {character : Char} {digit : Nat} :
    IsDigit base character digit ↔ digitOf? base character = some digit := by
  rw [IsDigit, mem_digitTable_iff, digitOf?, Option.filter_eq_some_iff, decide_eq_true_eq]

/-! ## Numbers -/

/-- The text spells the number: each of its characters is a digit, and the number is the sum of
the digits, each times the power of the base that belongs to its place. -/
def Spells (base : Nat) (text : List Char) (number : Nat) : Prop :=
  ∃ digits, List.Forall₂ (IsDigit base) text digits ∧ number = Nat.ofDigits base digits.reverse

theorem Spells.isDigit {base number : Nat} {text : List Char} (spells : Spells base text number) :
    ∀ character ∈ text, ∃ digit, IsDigit base character digit := by
  rcases spells with ⟨digits, each, -⟩
  intro character member
  rcases exists_of_mem_left each member with ⟨digit, -, isDigit⟩
  exact ⟨digit, isDigit⟩

/-- The number that is read on from another one has the digits of both. -/
theorem readDigits_eq_some_iff {base before number : Nat} {text : List Char} :
    readDigits base before text = some number ↔
      ∃ digits, List.Forall₂ (IsDigit base) text digits ∧
        number = before * base ^ text.length + Nat.ofDigits base digits.reverse := by
  induction text generalizing before with
  | nil => simp [readDigits, eq_comm]
  | cons first rest induction =>
      have joined {digit : Nat} {digits : List Nat} (length : rest.length = digits.length) :
          before * base ^ (first :: rest).length + Nat.ofDigits base (digit :: digits).reverse =
            (before * base + digit) * base ^ rest.length + Nat.ofDigits base digits.reverse := by
        rw [List.reverse_cons, Nat.ofDigits_append, Nat.ofDigits_singleton, List.length_reverse,
          ← length, List.length_cons]
        ring
      rw [readDigits]
      constructor
      · intro read
        rcases Option.bind_eq_some_iff.mp read with ⟨digit, found, readRest⟩
        rcases induction.mp readRest with ⟨digits, each, value⟩
        exact ⟨digit :: digits, .cons (isDigit_iff.mpr found) each,
          value.trans (joined each.length_eq).symm⟩
      · rintro ⟨digits, each, value⟩
        cases each with
        | cons here others =>
            rw [isDigit_iff.mp here]
            exact induction.mpr ⟨_, others, value.trans (joined others.length_eq)⟩

theorem readDigits_zero_eq_some_iff {base number : Nat} {text : List Char} :
    readDigits base 0 text = some number ↔ Spells base text number := by
  simp [readDigits_eq_some_iff, Spells]

theorem decimal?_eq_some_iff {text : List Char} {number : Nat} :
    decimal? text = some number ↔ text ≠ [] ∧ Spells 10 text number := by
  rw [← readDigits_zero_eq_some_iff]
  cases text <;> simp [decimal?]

/-! ## Lenient reading -/

theorem Spells.plus_not_mem {base number : Nat} {text : List Char}
    (spells : Spells base text number) : '+' ∉ text := by
  intro member
  rcases spells.isDigit '+' member with ⟨digit, isDigit⟩
  simp [isDigit_iff, digitOf?_plus] at isDigit

theorem Spells.underscore_not_mem {base number : Nat} {text : List Char}
    (spells : Spells base text number) : '_' ∉ text := by
  intro member
  rcases spells.isDigit '_' member with ⟨digit, isDigit⟩
  simp [isDigit_iff, digitOf?_underscore] at isDigit

/-- The text is another one, or that one behind a plus sign. -/
def Signed (text digits : List Char) : Prop := text = digits ∨ text = '+' :: digits

theorem signed_withoutPlus (text : List Char) : Signed text (withoutPlus text) := by
  unfold withoutPlus
  split
  · exact .inl rfl
  · exact .inr rfl
  · exact .inl rfl

theorem withoutPlus_of_signed {text digits : List Char} (signed : Signed text digits)
    (noPlus : '+' ∉ digits) : withoutPlus text = digits := by
  unfold withoutPlus
  cases signed with
  | inl same =>
      subst same
      split <;> simp_all
  | inr same =>
      subst same
      split <;> simp_all

theorem decimalWord?_eq_some_iff {limit number : Nat} {text : List Char} :
    decimalWord? limit text = some number ↔
      number < limit ∧ ∃ digits, Signed text digits ∧ digits ≠ [] ∧ Spells 10 digits number := by
  rw [decimalWord?, Option.filter_eq_some_iff, decide_eq_true_eq, decimal?_eq_some_iff]
  constructor
  · intro ⟨⟨present, spells⟩, small⟩
    exact ⟨small, withoutPlus text, signed_withoutPlus text, present, spells⟩
  · intro ⟨small, digits, signed, present, spells⟩
    rw [withoutPlus_of_signed signed spells.plus_not_mem]
    exact ⟨⟨present, spells⟩, small⟩

/-- Behind the plus sign that may be there a digit comes first, and the digits spell the number,
with underscores anywhere between and behind them. -/
def SpellsLeniently (base : Nat) (text : List Char) (number : Nat) : Prop :=
  ∃ digits, Signed text digits ∧ digits ≠ [] ∧ digits.head? ≠ some '_' ∧
    Spells base (digits.filter (· ≠ '_')) number

theorem lenientDigits?_eq_some_iff {base number : Nat} {text : List Char} :
    lenientDigits? base text = some number ↔ SpellsLeniently base text number := by
  rw [lenientDigits?_iff, readDigits_zero_eq_some_iff]
  constructor
  · intro ⟨present, noUnderscore, spells⟩
    exact ⟨withoutPlus text, signed_withoutPlus text, present, noUnderscore, spells⟩
  · intro ⟨digits, signed, present, noUnderscore, spells⟩
    have noPlus : '+' ∉ digits := by
      intro member
      exact spells.plus_not_mem (List.mem_filter.mpr ⟨member, by decide⟩)
    rw [withoutPlus_of_signed signed noPlus]
    exact ⟨present, noUnderscore, spells⟩

/-- What is spelled plainly is spelled leniently. -/
theorem Spells.leniently {base number : Nat} {text : List Char} (present : text ≠ [])
    (spells : Spells base text number) : SpellsLeniently base text number :=
  lenientDigits?_eq_some_iff.mp
    (lenientDigits?_of_readDigits present (readDigits_zero_eq_some_iff.mpr spells))

/-- A lenient spelling without plus sign and underscores is a plain one. -/
theorem SpellsLeniently.plain {base number : Nat} {text : List Char}
    (spells : SpellsLeniently base text number) (noPlus : '+' ∉ text) (noUnderscore : '_' ∉ text) :
    text ≠ [] ∧ Spells base text number := by
  rcases spells with ⟨digits, signed, present, -, spelled⟩
  cases signed with
  | inl same =>
      subst same
      have unfiltered : text.filter (· ≠ '_') = text := by
        rw [List.filter_eq_self]
        intro character member
        have different : character ≠ '_' := fun same => noUnderscore (same ▸ member)
        simpa using different
      rw [unfiltered] at spelled
      exact ⟨present, spelled⟩
  | inr same =>
      subst same
      exact absurd List.mem_cons_self noPlus

end BitTerms.Text
