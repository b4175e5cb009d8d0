import BitTerms.Proofs.Text.Digits
import BitTerms.SExpr
import BitTerms.Symbol

/-!
# Literals are recognised

The symbols that literals are written as are read as the values they were written for, and the
symbol of a variable is not mistaken for a literal unless the variable is named like a truth value.
A literal in a shared table is recognised from its outline just as from the whole s-expression.
-/

namespace BitTerms

/-! ## Numerals -/

namespace Numeral

theorem spelled_paddedDigits {base count pattern : Nat} (bitsPerDigit : Nat) (several : 1 < base)
    (small : base ≤ 16) (positive : 0 < count) (fits : pattern < base ^ count)
    (inRange : count * bitsPerDigit < wordLimit) :
    bits?.spelled base bitsPerDigit (Text.paddedDigits base count pattern) =
      some (count * bitsPerDigit, pattern) := by
  have length := Text.length_paddedDigits several positive fits
  have present : Text.paddedDigits base count pattern ≠ [] := by
    intro empty
    rw [empty] at length
    simp at length
    omega
  have read := Text.lenientDigits?_of_readDigits present
    (Text.readDigits_paddedDigits several small count pattern)
  have accepted : guard (count * bitsPerDigit < wordLimit) = some () := if_pos inRange
  unfold bits?.spelled
  rw [length, read]
  dsimp only
  rw [accepted]
  rfl

theorem bits?_bitsText {width pattern : Nat} (positive : 0 < width) (inRange : width < wordLimit)
    (fits : pattern < 2 ^ width) :
    bits? (bitsText width pattern).toList = some (width, pattern) := by
  unfold bitsText
  split
  case isTrue whole =>
      have same : width / 4 * 4 = width := Nat.div_mul_cancel (Nat.dvd_of_mod_eq_zero whole)
      have fitsDigits : pattern < 16 ^ (width / 4) := by
        rwa [show 16 = 2 ^ 4 from rfl, ← Nat.pow_mul, Nat.mul_comm, same]
      have read := spelled_paddedDigits 4 (by decide) (by decide)
        (by omega) fitsDigits (by omega)
      simpa [bits?, same] using read
  case isFalse =>
      have read := spelled_paddedDigits 1 (by decide) (by decide) positive fits
        (by omega)
      simpa [bits?] using read

theorem spelled_lt {base bitsPerDigit width pattern : Nat} {digits : List Char}
    (whole : base = 2 ^ bitsPerDigit)
    (read : bits?.spelled base bitsPerDigit digits = some (width, pattern)) :
    pattern < 2 ^ width := by
  rcases Option.bind_eq_some_iff.mp read with ⟨-, -, rest⟩
  rcases Option.bind_eq_some_iff.mp rest with ⟨value, found, same⟩
  cases same
  have fits := Text.lenientDigits?_lt (whole ▸ Nat.two_pow_pos bitsPerDigit) found
  rwa [whole, ← Nat.pow_mul, Nat.mul_comm] at fits

/-- A text with one of two marks is read as bits, one or four for each digit. -/
theorem bits?_iff {text : List Char} {found : Nat × Nat} :
    bits? text = some found ↔
      (∃ digits, text = '#' :: 'b' :: digits ∧ bits?.spelled 2 1 digits = some found) ∨
        ∃ digits, text = '#' :: 'x' :: digits ∧ bits?.spelled 16 4 digits = some found := by
  constructor
  · intro read
    unfold bits? at read
    split at read
    · exact .inl ⟨_, rfl, read⟩
    · exact .inr ⟨_, rfl, read⟩
    · cases read
  · rintro (⟨digits, rfl, read⟩ | ⟨digits, rfl, read⟩)
    · exact read
    · exact read

theorem bits?_lt {text : List Char} {width pattern : Nat}
    (read : bits? text = some (width, pattern)) : pattern < 2 ^ width := by
  rcases bits?_iff.mp read with ⟨digits, -, spelled⟩ | ⟨digits, -, spelled⟩
  · exact spelled_lt rfl spelled
  · exact spelled_lt rfl spelled

/-- No decimal text is marked as a bit pattern. -/
theorem bits?_of_decimal? {text : List Char} {number : Nat}
    (read : Text.decimal? text = some number) : bits? text = none := by
  have unmarked (rest : List Char) : text ≠ '#' :: rest := by
    rintro rfl
    rcases Text.exists_digitOf?_of_readDigits read '#' List.mem_cons_self with ⟨digit, found⟩
    have : Text.digitValue? '#' = none := by decide
    simp [Text.digitOf?, this] at found
  cases marked : bits? text with
  | none => rfl
  | some found =>
      rcases bits?_iff.mp marked with ⟨digits, same, -⟩ | ⟨digits, same, -⟩
      · exact absurd same (unmarked _)
      · exact absurd same (unmarked _)

end Numeral

/-! ## Symbols -/

namespace Symbol

theorem text_of_simple {name : String} (simple : isSimple name = true) : text name = name :=
  if_pos simple

theorem toList_text_of_not_simple {name : String} (notSimple : isSimple name = false) :
    (text name).toList = '|' :: (name.toList ++ ['|']) := by
  simp [text, notSimple]

theorem exists_start_of_simple {name : String} (simple : isSimple name = true) :
    ∃ first rest, name.toList = first :: rest ∧ isStart first = true ∧
      ∀ character ∈ rest, isPart character = true := by
  unfold isSimple at simple
  cases chars : name.toList with
  | nil =>
      rw [chars] at simple
      cases simple
  | cons first rest =>
      simp only [chars, Bool.and_eq_true, List.all_eq_true] at simple
      exact ⟨first, rest, rfl, simple⟩

end Symbol

namespace Text

theorem digitOf?_of_isStart {character : Char} (start : Symbol.isStart character = true) :
    digitOf? 10 character = none := by
  have noDigit : ∀ code < 58, 48 ≤ code → Symbol.isStart (Char.ofNat code) = false := by decide
  have outside : ¬ ('0' ≤ character ∧ character ≤ '9') := by
    rintro ⟨atLeast, atMost⟩
    have contradiction := noDigit character.toNat (Nat.lt_succ_of_le atMost) atLeast
    rw [Char.ofNat_toNat, start] at contradiction
    cases contradiction
  unfold digitOf? digitValue?
  rw [if_neg outside]
  split
  · simp
  · split <;> simp

end Text

namespace SExpr

theorem symbolLiteral?_bitsText {width pattern : Nat} (positive : 0 < width)
    (inRange : width < wordLimit) (fits : pattern < 2 ^ width) :
    symbolLiteral? (Numeral.bitsText width pattern) = some (.bits width pattern) := by
  simp [symbolLiteral?, Numeral.bits?_bitsText positive inRange fits]

theorem symbolLiteral?_toString (number : Nat) :
    symbolLiteral? (toString number) = some (.int number) := by
  have read := Text.decimal?_toString number
  simp only [symbolLiteral?, Numeral.bits?_of_decimal? read, read]

theorem symbolLiteral?_boolText (truth : Bool) :
    symbolLiteral? (Numeral.boolText truth) = some (.bool truth) := by
  cases truth <;> decide +kernel

/-- A text that starts neither with a mark nor with a digit spells no number. -/
theorem symbolLiteral?_of_first {text : String} {first : Char} {rest : List Char}
    (chars : text.toList = first :: rest) (unmarked : first ≠ '#')
    (noDigit : Text.digitOf? 10 first = none) (notTrue : text ≠ "true")
    (notFalse : text ≠ "false") : symbolLiteral? text = none := by
  have noBits : Numeral.bits? (first :: rest) = none := by
    unfold Numeral.bits?
    split <;> simp_all
  have noNumber : Text.decimal? (first :: rest) = none := by
    simp [Text.decimal?, Text.readDigits, noDigit]
  simp only [symbolLiteral?, chars, noBits, noNumber, if_neg notTrue, if_neg notFalse]

/-- The symbol of a variable is no literal. -/
theorem symbolLiteral?_text {name : String} (notTrue : name ≠ "true") (notFalse : name ≠ "false") :
    symbolLiteral? (Symbol.text name) = none := by
  cases simple : Symbol.isSimple name with
  | true =>
      rcases Symbol.exists_start_of_simple simple with ⟨first, rest, chars, start, -⟩
      have unmarked : first ≠ '#' := by
        rintro rfl
        revert start
        decide
      rw [Symbol.text_of_simple simple]
      exact symbolLiteral?_of_first chars unmarked (Text.digitOf?_of_isStart start) notTrue notFalse
  | false =>
      have chars := Symbol.toList_text_of_not_simple simple
      have unlike (word : String) (start : word.toList.head? ≠ some '|') :
          Symbol.text name ≠ word := by
        rintro rfl
        simp [chars] at start
      exact symbolLiteral?_of_first chars (by decide) (by decide)
        (unlike "true" (by decide +kernel)) (unlike "false" (by decide +kernel))

/-! ## What is a literal -/

/-- The s-expression stands for this literal. It is a symbol of one of three kinds, or a list that
starts with the mark of an indexed bit pattern or of a negative number. -/
inductive Denotes : SExpr → Value → Prop
  | bits {text : String} {width pattern : Nat}
      (read : Numeral.bits? text.toList = some (width, pattern)) :
      Denotes (.symbol text) (.bits width pattern)
  | number {text : String} {number : Nat} (read : Text.decimal? text.toList = some number) :
      Denotes (.symbol text) (.int number)
  | truth (truth : Bool) : Denotes (.symbol (Numeral.boolText truth)) (.bool truth)
  | indexed {marked size : String} {width pattern : Nat}
      (read : Numeral.indexedBits? marked.toList = some pattern)
      (readSize : Text.decimalWord? wordLimit size.toList = some width) :
      Denotes (.list [.symbol "_", .symbol marked, .symbol size]) (.bits width pattern)
  | negative {magnitude : String} {number : Nat}
      (read : Text.decimal? magnitude.toList = some number) :
      Denotes (.list [.symbol "-", .symbol magnitude]) (.int (-(number : Int)))

variable {expr : SExpr} {found : Value}

theorem denotes_of_symbolLiteral? {text : String} (spelled : symbolLiteral? text = some found) :
    Denotes (.symbol text) found := by
  unfold symbolLiteral? at spelled
  cases read : Numeral.bits? text.toList with
  | some pattern =>
      rw [read] at spelled
      cases spelled
      exact .bits read
  | none =>
      rw [read] at spelled
      cases decimal : Text.decimal? text.toList with
      | some number =>
          rw [decimal] at spelled
          cases spelled
          exact .number decimal
      | none =>
          rw [decimal] at spelled
          by_cases isTrue : text = "true"
          · cases (if_pos isTrue).symm.trans spelled
            exact isTrue ▸ .truth true
          · by_cases isFalse : text = "false"
            · cases (if_pos isFalse).symm.trans ((if_neg isTrue).symm.trans spelled)
              exact isFalse ▸ .truth false
            · cases (if_neg isFalse).symm.trans ((if_neg isTrue).symm.trans spelled)

theorem denotes_of_literal? (spelled : expr.literal? = some found) : Denotes expr found := by
  unfold literal? at spelled
  split at spelled
  case h_1 text => exact denotes_of_symbolLiteral? spelled
  case h_2 mark marked size =>
      by_cases isMark : mark = "_"
      · rw [if_pos isMark] at spelled
        rcases Option.bind_eq_some_iff.mp spelled with ⟨pattern, read, rest⟩
        rcases Option.bind_eq_some_iff.mp rest with ⟨width, readSize, same⟩
        cases same
        exact isMark ▸ .indexed read readSize
      · cases (if_neg isMark).symm.trans spelled
  case h_3 mark magnitude =>
      by_cases isMark : mark = "-"
      · rw [if_pos isMark] at spelled
        rcases Option.bind_eq_some_iff.mp spelled with ⟨number, read, same⟩
        cases same
        exact isMark ▸ .negative read
      · cases (if_neg isMark).symm.trans spelled
  case h_4 => cases spelled

theorem literal?_eq_some_iff : expr.literal? = some found ↔ Denotes expr found := by
  refine ⟨denotes_of_literal?, fun denotes => ?_⟩
  cases denotes with
  | bits read => simp only [literal?, symbolLiteral?, read]
  | number read => simp only [literal?, symbolLiteral?, Numeral.bits?_of_decimal? read, read]
  | truth truth => exact symbolLiteral?_boolText truth
  | indexed read readSize => simp [literal?, read, readSize]
  | negative read => simp [literal?, read]

/-- Only the marks of numerals make a list a literal. -/
theorem literal?_of_head {head : SExpr} (notIndexed : head ≠ .symbol "_")
    (notNegative : head ≠ .symbol "-") (operands : List SExpr) :
    literal? (.list (head :: operands)) = none := by
  cases spelled : literal? (.list (head :: operands)) with
  | none => rfl
  | some found =>
      cases literal?_eq_some_iff.mp spelled with
      | indexed => exact absurd rfl notIndexed
      | negative => exact absurd rfl notNegative

end SExpr

end BitTerms
