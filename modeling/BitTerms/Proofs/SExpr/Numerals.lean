import BitTerms.Proofs.SExpr.Literals
import BitTerms.Proofs.SExpr.Sharing
import BitTerms.Proofs.Text.Positional
import BitTerms.Solver

/-!
# Which s-expressions are numerals

`SExpr.IsBits` and `SExpr.IsInt` are the numerals of SMT-LIB for bit-vectors and integers. All of
them are recognised as what they spell, and so are some s-expressions that are no numerals, those of
`SExpr.IsLooseBits`. Nothing else is.
-/

namespace BitTerms

open Text (Spells SpellsLeniently Signed)

namespace SExpr

/-! ## Numerals -/

/-- The s-expression is the bit-vector numeral of this width and value. -/
inductive IsBits : SExpr → Nat → Nat → Prop
  | binary {text : String} {digits : List Char} {width value : Nat}
      (written : text.toList = '#' :: 'b' :: digits) (present : digits ≠ [])
      (count : width = digits.length) (spells : Spells 2 digits value) :
      IsBits (.symbol text) width value
  | hexadecimal {text : String} {digits : List Char} {width value : Nat}
      (written : text.toList = '#' :: 'x' :: digits) (present : digits ≠ [])
      (count : width = digits.length * 4) (spells : Spells 16 digits value) :
      IsBits (.symbol text) width value
  | indexed {pattern size : String} {digits : List Char} {width value : Nat}
      (written : pattern.toList = 'b' :: 'v' :: digits) (present : digits ≠ [])
      (spells : Spells 10 digits value) (presentSize : size.toList ≠ [])
      (spellsSize : Spells 10 size.toList width) (positive : 1 ≤ width) (fits : value < 2 ^ width) :
      IsBits (.list [.symbol "_", .symbol pattern, .symbol size]) width value

/-- The s-expression is the integer numeral of this value. -/
inductive IsInt : SExpr → Int → Prop
  | natural {text : String} {value : Nat} (present : text.toList ≠ [])
      (spells : Spells 10 text.toList value) : IsInt (.symbol text) value
  | negative {text : String} {value : Nat} (present : text.toList ≠ [])
      (spells : Spells 10 text.toList value) :
      IsInt (.list [.symbol "-", .symbol text]) (-(value : Int))

/-- The s-expression is no numeral, but is taken for the bit-vector numeral of this width and value:
there is a plus sign or an underscore among its digits, or the width that it names is zero or too
small for the value. -/
inductive IsLooseBits : SExpr → Nat → Nat → Prop
  | binary {text : String} {digits : List Char} {width value : Nat}
      (written : text.toList = '#' :: 'b' :: digits) (count : width = digits.length)
      (spells : SpellsLeniently 2 digits value) (stray : '+' ∈ digits ∨ '_' ∈ digits) :
      IsLooseBits (.symbol text) width value
  | hexadecimal {text : String} {digits : List Char} {width value : Nat}
      (written : text.toList = '#' :: 'x' :: digits) (count : width = digits.length * 4)
      (spells : SpellsLeniently 16 digits value) (stray : '+' ∈ digits ∨ '_' ∈ digits) :
      IsLooseBits (.symbol text) width value
  | indexed {pattern size : String} {digits sizeDigits : List Char} {width value : Nat}
      (written : pattern.toList = 'b' :: 'v' :: digits) (present : digits ≠ [])
      (spells : Spells 10 digits value) (signed : Signed size.toList sizeDigits)
      (presentSize : sizeDigits ≠ []) (spellsSize : Spells 10 sizeDigits width)
      (stray : '+' ∈ size.toList ∨ width = 0 ∨ 2 ^ width ≤ value) :
      IsLooseBits (.list [.symbol "_", .symbol pattern, .symbol size]) width value

variable {text : String} {width value : Nat} {number : Int} {expr : SExpr}

theorem IsLooseBits.not_isBits (loose : IsLooseBits expr width value) :
    ¬ IsBits expr width value := by
  have strict {base : Nat} {digits : List Char} (spells : Spells base digits value)
      (stray : '+' ∈ digits ∨ '_' ∈ digits) : False :=
    stray.elim spells.plus_not_mem spells.underscore_not_mem
  intro isBits
  cases loose with
  | binary written _ _ stray =>
      cases isBits with
      | binary writtenToo _ _ spells =>
          cases written.symm.trans writtenToo
          exact strict spells stray
      | hexadecimal writtenToo => cases written.symm.trans writtenToo
  | hexadecimal written _ _ stray =>
      cases isBits with
      | binary writtenToo => cases written.symm.trans writtenToo
      | hexadecimal writtenToo _ _ spells =>
          cases written.symm.trans writtenToo
          exact strict spells stray
  | indexed written present spells signed presentSize spellsSize stray =>
      cases isBits with
      | indexed _ _ _ _ spellsSizeToo positive fits =>
          cases stray with
          | inl plus => exact spellsSizeToo.plus_not_mem plus
          | inr misfit => omega

theorem paddedDigits_spell {base count : Nat} (several : 1 < base) (small : base ≤ 16)
    (positive : 0 < count) (fits : value < base ^ count) :
    Text.paddedDigits base count value ≠ [] ∧
      count = (Text.paddedDigits base count value).length ∧
        Spells base (Text.paddedDigits base count value) value := by
  have length := Text.length_paddedDigits several positive fits
  have read := Text.readDigits_paddedDigits several small count value
  refine ⟨?_, length.symm, Text.readDigits_zero_eq_some_iff.mp read⟩
  intro none
  rw [none, List.length_nil] at length
  omega

/-- A bit pattern is written as its numeral. -/
theorem isBits_bitsText (positive : 0 < width) (fits : value < 2 ^ width) :
    IsBits (.symbol (Numeral.bitsText width value)) width value := by
  unfold Numeral.bitsText
  split
  case isTrue whole =>
      have same : width / 4 * 4 = width := Nat.div_mul_cancel (Nat.dvd_of_mod_eq_zero whole)
      have fitsDigits : value < 16 ^ (width / 4) := by
        rwa [show 16 = 2 ^ 4 from rfl, ← Nat.pow_mul, Nat.mul_comm, same]
      rcases paddedDigits_spell (by decide) (by decide) (by omega) fitsDigits with
        ⟨present, count, spells⟩
      exact .hexadecimal (by simp) present (by omega) spells
  case isFalse =>
      rcases paddedDigits_spell (by decide) (by decide) positive fits with ⟨present, count, spells⟩
      exact .binary (by simp) present count spells

/-! ## Digits and marks -/

theorem spelled_eq_some_iff {base bitsPerDigit : Nat} {digits : List Char} :
    Numeral.bits?.spelled base bitsPerDigit digits = some (width, value) ↔
      width < wordLimit ∧ width = digits.length * bitsPerDigit ∧
        SpellsLeniently base digits value := by
  rw [← Text.lenientDigits?_eq_some_iff]
  unfold Numeral.bits?.spelled
  by_cases small : digits.length * bitsPerDigit < wordLimit
  · have accepted : guard (digits.length * bitsPerDigit < wordLimit) = some () := if_pos small
    dsimp only
    rw [accepted]
    cases Text.lenientDigits? base digits with
    | none => simp
    | some read =>
        change some (digits.length * bitsPerDigit, read) = some (width, value) ↔ _
        simp only [Option.some.injEq, Prod.mk.injEq]
        constructor
        · rintro ⟨rfl, rfl⟩
          exact ⟨small, rfl, rfl⟩
        · rintro ⟨-, rfl, rfl⟩
          exact ⟨rfl, rfl⟩
  · have refused : guard (digits.length * bitsPerDigit < wordLimit) = (none : Option Unit) :=
      if_neg small
    dsimp only
    rw [refused]
    constructor
    · intro read
      cases read
    · intro ⟨inRange, same, _⟩
      exact absurd (same ▸ inRange) small

theorem bits?_eq_some_iff {chars : List Char} :
    Numeral.bits? chars = some (width, value) ↔
      width < wordLimit ∧ ∃ digits,
        (chars = '#' :: 'b' :: digits ∧ width = digits.length ∧ SpellsLeniently 2 digits value) ∨
        (chars = '#' :: 'x' :: digits ∧ width = digits.length * 4 ∧
          SpellsLeniently 16 digits value) := by
  rw [Numeral.bits?_iff]
  simp only [spelled_eq_some_iff, Nat.mul_one]
  constructor
  · rintro (⟨digits, written, small, spelled⟩ | ⟨digits, written, small, spelled⟩)
    · exact ⟨small, digits, .inl ⟨written, spelled⟩⟩
    · exact ⟨small, digits, .inr ⟨written, spelled⟩⟩
  · rintro ⟨small, digits, ⟨written, spelled⟩ | ⟨written, spelled⟩⟩
    · exact .inl ⟨digits, written, small, spelled⟩
    · exact .inr ⟨digits, written, small, spelled⟩

theorem indexedBits?_eq_some_iff {chars : List Char} :
    Numeral.indexedBits? chars = some value ↔
      ∃ digits, chars = 'b' :: 'v' :: digits ∧ digits ≠ [] ∧ Spells 10 digits value := by
  constructor
  · intro read
    unfold Numeral.indexedBits? at read
    split at read
    · exact ⟨_, rfl, Text.decimal?_eq_some_iff.mp read⟩
    · cases read
  · rintro ⟨digits, rfl, spelled⟩
    exact Text.decimal?_eq_some_iff.mpr spelled

/-! ## What is taken for a numeral -/

theorem bits_or_loose_of_binary {digits : List Char} (written : text.toList = '#' :: 'b' :: digits)
    (count : width = digits.length) (spells : SpellsLeniently 2 digits value) :
    IsBits (.symbol text) width value ∨ IsLooseBits (.symbol text) width value := by
  by_cases stray : '+' ∈ digits ∨ '_' ∈ digits
  · exact .inr (.binary written count spells stray)
  · have plain := spells.plain (stray ∘ .inl) (stray ∘ .inr)
    exact .inl (.binary written plain.1 count plain.2)

theorem bits_or_loose_of_hexadecimal {digits : List Char}
    (written : text.toList = '#' :: 'x' :: digits) (count : width = digits.length * 4)
    (spells : SpellsLeniently 16 digits value) :
    IsBits (.symbol text) width value ∨ IsLooseBits (.symbol text) width value := by
  by_cases stray : '+' ∈ digits ∨ '_' ∈ digits
  · exact .inr (.hexadecimal written count spells stray)
  · have plain := spells.plain (stray ∘ .inl) (stray ∘ .inr)
    exact .inl (.hexadecimal written plain.1 count plain.2)

theorem bits_or_loose_of_indexed {pattern size : String} {digits sizeDigits : List Char}
    (written : pattern.toList = 'b' :: 'v' :: digits) (present : digits ≠ [])
    (spells : Spells 10 digits value) (signed : Signed size.toList sizeDigits)
    (presentSize : sizeDigits ≠ []) (spellsSize : Spells 10 sizeDigits width) :
    IsBits (.list [.symbol "_", .symbol pattern, .symbol size]) width value ∨
      IsLooseBits (.list [.symbol "_", .symbol pattern, .symbol size]) width value := by
  by_cases stray : '+' ∈ size.toList ∨ width = 0 ∨ 2 ^ width ≤ value
  · exact .inr (.indexed written present spells signed presentSize spellsSize stray)
  · simp only [not_or] at stray
    cases signed with
    | inl same =>
        rw [← same] at presentSize spellsSize
        exact .inl (.indexed written present spells presentSize spellsSize (by omega) (by omega))
    | inr same => exact absurd (same ▸ List.mem_cons_self) stray.1

theorem bits_or_loose_of_literal? (read : literal? expr = some (.bits width value)) :
    width < wordLimit ∧ (IsBits expr width value ∨ IsLooseBits expr width value) := by
  cases literal?_eq_some_iff.mp read with
  | bits read =>
      rcases bits?_eq_some_iff.mp read with ⟨small, digits, binary | hexadecimal⟩
      · rcases binary with ⟨written, count, spells⟩
        exact ⟨small, bits_or_loose_of_binary written count spells⟩
      · rcases hexadecimal with ⟨written, count, spells⟩
        exact ⟨small, bits_or_loose_of_hexadecimal written count spells⟩
  | indexed read readSize =>
      rcases indexedBits?_eq_some_iff.mp read with ⟨digits, written, present, spells⟩
      rcases Text.decimalWord?_eq_some_iff.mp readSize with
        ⟨small, sizeDigits, signed, presentSize, spellsSize⟩
      exact ⟨small,
        bits_or_loose_of_indexed written present spells signed presentSize spellsSize⟩

theorem literal?_of_indexed {pattern size : String} {digits sizeDigits : List Char}
    (small : width < wordLimit) (written : pattern.toList = 'b' :: 'v' :: digits)
    (present : digits ≠ []) (spells : Spells 10 digits value)
    (signed : Signed size.toList sizeDigits) (presentSize : sizeDigits ≠ [])
    (spellsSize : Spells 10 sizeDigits width) :
    literal? (.list [.symbol "_", .symbol pattern, .symbol size]) = some (.bits width value) :=
  literal?_eq_some_iff.mpr (.indexed
    (indexedBits?_eq_some_iff.mpr ⟨digits, written, present, spells⟩)
    (Text.decimalWord?_eq_some_iff.mpr ⟨small, sizeDigits, signed, presentSize, spellsSize⟩))

theorem literal?_of_isBits (small : width < wordLimit) (isBits : IsBits expr width value) :
    literal? expr = some (.bits width value) := by
  cases isBits with
  | binary written present count spells =>
      exact literal?_eq_some_iff.mpr (.bits (bits?_eq_some_iff.mpr
        ⟨small, _, .inl ⟨written, count, spells.leniently present⟩⟩))
  | hexadecimal written present count spells =>
      exact literal?_eq_some_iff.mpr (.bits (bits?_eq_some_iff.mpr
        ⟨small, _, .inr ⟨written, count, spells.leniently present⟩⟩))
  | indexed written present spells presentSize spellsSize =>
      exact literal?_of_indexed small written present spells (.inl rfl) presentSize spellsSize

theorem literal?_of_isLooseBits (small : width < wordLimit) (loose : IsLooseBits expr width value) :
    literal? expr = some (.bits width value) := by
  cases loose with
  | binary written count spells =>
      exact literal?_eq_some_iff.mpr (.bits (bits?_eq_some_iff.mpr
        ⟨small, _, .inl ⟨written, count, spells⟩⟩))
  | hexadecimal written count spells =>
      exact literal?_eq_some_iff.mpr (.bits (bits?_eq_some_iff.mpr
        ⟨small, _, .inr ⟨written, count, spells⟩⟩))
  | indexed written present spells signed presentSize spellsSize =>
      exact literal?_of_indexed small written present spells signed presentSize spellsSize

theorem literal?_eq_bits_iff :
    literal? expr = some (.bits width value) ↔
      width < wordLimit ∧ (IsBits expr width value ∨ IsLooseBits expr width value) := by
  constructor
  · exact bits_or_loose_of_literal?
  · intro ⟨small, either⟩
    cases either with
    | inl isBits => exact literal?_of_isBits small isBits
    | inr loose => exact literal?_of_isLooseBits small loose

theorem literal?_eq_int_iff : literal? expr = some (.int number) ↔ IsInt expr number := by
  rw [literal?_eq_some_iff]
  constructor
  · intro denotes
    cases denotes with
    | number read =>
        rcases Text.decimal?_eq_some_iff.mp read with ⟨present, spells⟩
        exact .natural present spells
    | negative read =>
        rcases Text.decimal?_eq_some_iff.mp read with ⟨present, spells⟩
        exact .negative present spells
  · intro isInt
    cases isInt with
    | natural present spells => exact .number (Text.decimal?_eq_some_iff.mpr ⟨present, spells⟩)
    | negative present spells => exact .negative (Text.decimal?_eq_some_iff.mpr ⟨present, spells⟩)

theorem literal?_eq_bool_iff {truth : Bool} :
    literal? expr = some (.bool truth) ↔ expr = .symbol (Numeral.boolText truth) := by
  rw [literal?_eq_some_iff]
  constructor
  · intro denotes
    cases denotes with
    | truth => rfl
  · rintro rfl
    exact .truth truth

theorem IsBits.lt (isBits : IsBits expr width value) (small : width < wordLimit) :
    value < 2 ^ width := by
  have denotes := literal?_eq_some_iff.mp (literal?_of_isBits small isBits)
  cases isBits with
  | indexed _ _ _ _ _ _ fits => exact fits
  | binary | hexadecimal =>
      cases denotes with
      | bits read => exact Numeral.bits?_lt read

/-! ## Exactness -/

/-- What is found is the bit-vector numeral or the integer numeral that the s-expression is, and
neither kind of numeral is found for any other s-expression. -/
structure FindsNumeral (expr : SExpr) (found : Option Value) : Prop where
  bits : ∀ width value, found = some (.bits width value) ↔
    width < wordLimit ∧ IsBits expr width value
  int : ∀ number, found = some (.int number) ↔ IsInt expr number

/-- Numerals are recognised exactly, up to the s-expressions that are loosely written: they are no
numerals and are taken for bit-vectors. A session finds the same for the terms it shares. -/
theorem findsNumeral_iff_not_loose (expr : SExpr) :
    (FindsNumeral expr expr.literal? ↔
      ¬ ∃ width value, width < wordLimit ∧ IsLooseBits expr width value) ∧
    ∀ (solver : Solver) (term : Nat), solver.terms.WellFormed → term < solver.terms.size →
      ofShared solver.terms term = expr → solver.literal? term = expr.literal? := by
  refine ⟨⟨?_, ?_⟩, ?_⟩
  · intro finds ⟨width, value, small, loose⟩
    have taken := literal?_of_isLooseBits small loose
    exact loose.not_isBits ((finds.bits width value).mp taken).2
  · intro strict
    refine ⟨fun width value => ?_, fun number => literal?_eq_int_iff⟩
    rw [literal?_eq_bits_iff]
    constructor
    · intro ⟨small, either⟩
      exact ⟨small, either.resolve_right fun loose => strict ⟨width, value, small, loose⟩⟩
    · intro ⟨small, isBits⟩
      exact ⟨small, .inl isBits⟩
  · intro solver term valid inside same
    rw [Solver.literal?, literal?_outline valid inside, same]

theorem findsNumeral_five :
    let five := SExpr.list [.symbol "_", .symbol "bv5", .symbol "8"]
    let shared := five.share {}
    FindsNumeral five five.literal? ∧
      Solver.literal? { terms := shared.2 } shared.1 = some (.bits 8 5) := by
  intro five shared
  have found : five.literal? = some (.bits 8 5) := by decide +kernel
  have strict : ¬ ∃ width value, width < wordLimit ∧ IsLooseBits five width value := by
    intro ⟨width, value, small, loose⟩
    cases found.symm.trans (literal?_of_isLooseBits small loose)
    simp only [five] at loose
    cases loose with
    | indexed _ _ _ _ _ _ stray => exact absurd stray (by decide)
  have added := shared_share five Dag.wellFormed_empty
  refine ⟨(findsNumeral_iff_not_loose five).1.mpr strict, ?_⟩
  rw [(findsNumeral_iff_not_loose five).2 { terms := shared.2 } shared.1 added.valid added.inside
    added.ofShared_eq, found]

/-- A plus sign is taken for a digit. -/
theorem not_findsNumeral_of_plus :
    (SExpr.symbol "#b+1").literal? = some (.bits 2 1) ∧
      ¬ FindsNumeral (.symbol "#b+1") (SExpr.symbol "#b+1").literal? := by
  have taken : (SExpr.symbol "#b+1").literal? = some (.bits 2 1) := by decide +kernel
  refine ⟨taken, ?_⟩
  intro finds
  have isBits := ((finds.bits 2 1).mp taken).2
  cases isBits with
  | binary written _ _ spells =>
      have digits : _ = ['+', '1'] := (List.cons.inj (List.cons.inj written).2).2.symm
      exact absurd (digits ▸ List.mem_cons_self) spells.plus_not_mem
  | hexadecimal written => exact absurd written (by simp)

end SExpr

end BitTerms
