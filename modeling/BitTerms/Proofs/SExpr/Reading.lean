import BitTerms.Proofs.SExpr.Literals
import BitTerms.Proofs.SExpr.Sharing
import BitTerms.Proofs.Text.Positional
import BitTerms.SExpr.Reader

/-!
# Written s-expressions are read back

The reader cuts the text of an s-expression into the tokens that the s-expression is made of and
puts these together again, provided that every symbol in it is a word: a symbol that goes on to
the next blank or parenthesis. The names, the numerals and the operators that terms are written
with are words.
-/

namespace BitTerms.SExpr

/-! ## Words -/

/-- The tokens of what is left of a line. -/
def scan : Mode → List Char → List Token
  | mode, [] => finish mode
  | mode, character :: rest =>
    let (tokens, next) := step character mode
    tokens ++ scan next rest

theorem scan_eq_foldl (chars : List Char) (read : List Token) (mode : Mode) :
    (chars.foldl advance (read, mode)).1.reverse ++ finish (chars.foldl advance (read, mode)).2 =
      read.reverse ++ scan mode chars := by
  induction chars generalizing read mode with
  | nil => rfl
  | cons character rest induction =>
      rw [List.foldl_cons, advance, induction, scan]
      simp

theorem tokens_eq (line : String) : tokens line = scan .blank line.toList :=
  scan_eq_foldl line.toList [] .blank

/-- What may stand behind a word. -/
inductive EndsWord : List Char → Prop
  | nothing : EndsWord []
  | blank (rest : List Char) : EndsWord (' ' :: rest)
  | closing (rest : List Char) : EndsWord (')' :: rest)

/-- The characters make up a single symbol, by themselves or between bars. -/
inductive IsWord : List Char → Prop
  | plain {first : Char} {rest : List Char} (starts : start first = ([], .symbol [first] false))
      (parts : ∀ character ∈ rest, isSymbolPart character = true) : IsWord (first :: rest)
  | barred {inside : List Char} (noBar : '|' ∉ inside) : IsWord ('|' :: (inside ++ ['|']))

/-- No character of the table is an ASCII one. -/
theorem covers_of_small {character : Char} (small : character.toNat < 0xaa) :
    Text.alphanumericRanges.covers character = false := by
  have bounds : ∀ range ∈ Text.alphanumericRanges.toList, 0xaa ≤ range.1 := by decide +kernel
  rw [Text.CodePoints.covers, ← Array.any_toList, List.any_eq_false]
  intro range member
  have atLeast := bounds range member
  simp only [Bool.and_eq_true, decide_eq_true_eq]
  omega

theorem isSymbolPart_of_small {character : Char} (small : character.toNat < 0xaa) :
    isSymbolPart character = Symbol.isPart character := by
  unfold isSymbolPart Text.isAlphanumeric
  rw [covers_of_small small, Bool.or_false]
  rfl

theorem step_of_part {character : Char} (part : isSymbolPart character = true)
    (read : List Char) :
    step character (.symbol read false) = ([], .symbol (character :: read) false) := by
  have noBar : character ≠ '|' := by
    intro same
    rw [same] at part
    rw [isSymbolPart_of_small (by decide)] at part
    revert part
    decide
  simp [step, noBar, part]

theorem scan_parts {parts : List Char}
    (all : ∀ character ∈ parts, isSymbolPart character = true) (read rest : List Char) :
    scan (.symbol read false) (parts ++ rest) =
      scan (.symbol (parts.reverse ++ read) false) rest := by
  induction parts generalizing read with
  | nil => rfl
  | cons first others induction =>
      have ⟨part, parts⟩ := List.forall_mem_cons.mp all
      rw [List.cons_append, scan, step_of_part part]
      simpa using induction parts (first :: read)

theorem scan_barred {inside : List Char} (noBar : '|' ∉ inside) (read rest : List Char) :
    scan (.symbol read true) (inside ++ '|' :: rest) =
      scan (.symbol ('|' :: (inside.reverse ++ read)) false) rest := by
  induction inside generalizing read with
  | nil => rfl
  | cons first others induction =>
      simp only [List.mem_cons, not_or] at noBar
      have step : step first (.symbol read true) = ([], .symbol (first :: read) true) := by
        simp [SExpr.step, Ne.symm noBar.1]
      rw [List.cons_append, scan, step]
      simpa using induction noBar.2 (first :: read)

theorem scan_behind_symbol {character : Char} (noBar : character ≠ '|')
    (noPart : isSymbolPart character = false) (read rest : List Char) :
    scan (.symbol read false) (character :: rest) =
      symbolToken read :: scan .blank (character :: rest) := by
  have behind : step character (.symbol read false) =
      (symbolToken read :: (start character).1, (start character).2) := by
    simp [step, noBar, noPart]
  rw [scan, behind, scan]
  rfl

theorem scan_symbol_end {rest : List Char} (ends : EndsWord rest) (read : List Char) :
    scan (.symbol read false) rest = symbolToken read :: scan .blank rest := by
  cases ends with
  | nothing => rfl
  | blank rest =>
      exact scan_behind_symbol (by decide) (isSymbolPart_of_small (by decide)) read rest
  | closing rest =>
      exact scan_behind_symbol (by decide) (isSymbolPart_of_small (by decide)) read rest

theorem scan_word {word : String} (isWord : IsWord word.toList) {rest : List Char}
    (ends : EndsWord rest) :
    scan .blank (word.toList ++ rest) = .symbol word :: scan .blank rest := by
  have whole : symbolToken word.toList.reverse = .symbol word := by simp [symbolToken]
  rw [← whole]
  generalize word.toList = chars at isWord
  cases isWord with
  | plain starts parts =>
      rw [List.cons_append, scan, step, starts]
      simpa using (scan_parts parts _ rest).trans (scan_symbol_end ends _)
  | barred noBar =>
      have starts : start '|' = ([], .symbol ['|'] true) := rfl
      rw [List.cons_append, scan, step, starts]
      simpa using (scan_barred noBar ['|'] rest).trans (scan_symbol_end ends _)

/-! ## Lists -/

/-- All symbols of the s-expression are words, and there are no strings in it. -/
inductive IsWritten : SExpr → Prop
  | symbol {text : String} (isWord : IsWord text.toList) : IsWritten (.symbol text)
  | list {items : List SExpr} (written : ∀ item ∈ items, item.IsWritten) : IsWritten (.list items)

mutual

/-- The tokens that an s-expression is made of. -/
def tokenList : SExpr → List Token
  | .symbol text => [.symbol text]
  | .string raw => [.string raw]
  | .list items => .opening :: (tokenLists items ++ [.closing])

def tokenLists : List SExpr → List Token
  | [] => []
  | first :: rest => first.tokenList ++ tokenLists rest

end

/-- Items that are read one by one are read as a list, if blanks are between them. -/
theorem scan_items {items : List SExpr}
    (each : ∀ item ∈ items, ∀ rest, EndsWord rest →
      scan .blank (item.text.toList ++ rest) = item.tokenList ++ scan .blank rest)
    (rest : List Char) :
    scan .blank ((" ".intercalate (items.map text)).toList ++ ')' :: rest) =
      tokenLists items ++ .closing :: scan .blank rest := by
  induction items with
  | nil => rfl
  | cons first others induction =>
      have ⟨here, behind⟩ := List.forall_mem_cons.mp each
      cases others with
      | nil =>
          have closed : scan .blank (')' :: rest) = .closing :: scan .blank rest := rfl
          simp [here _ (.closing rest), tokenLists, closed]
      | cons second others =>
          have blank (chars : List Char) : scan .blank (' ' :: chars) = scan .blank chars := rfl
          have chars :
              (" ".intercalate ((first :: second :: others).map text)).toList ++ ')' :: rest =
              first.text.toList ++
                ' ' :: ((" ".intercalate ((second :: others).map text)).toList ++ ')' :: rest) := by
            rw [List.map_cons, List.map_cons, String.intercalate_cons_cons]
            simp
          rw [chars, here _ (.blank _), blank, induction behind]
          simp [tokenLists]

theorem IsWritten.scan_text {expr : SExpr} (written : expr.IsWritten) {rest : List Char}
    (ends : EndsWord rest) :
    scan .blank (expr.text.toList ++ rest) = expr.tokenList ++ scan .blank rest := by
  induction written generalizing rest with
  | symbol isWord => exact scan_word isWord ends
  | @list items written induction =>
      have opened (chars : List Char) :
          scan .blank ('(' :: chars) = .opening :: scan .blank chars := rfl
      rw [text, texts_eq, tokenList]
      simpa [opened] using scan_items (fun item member rest => induction item member) rest

/-! ## Reading -/

/-- Goes on with the tokens, unless the expression is complete. -/
def resume (rest : List Token) : Progress → Progress
  | .complete whole => .complete whole
  | .unfinished lists => assemble lists rest

theorem assemble_cons (lists : OpenLists) (token : Token) (rest : List Token) :
    assemble lists (token :: rest) = resume rest (accept token lists) := by
  rw [assemble]
  cases accept token lists <;> rfl

mutual

/-- The tokens of an s-expression are put together to the s-expression. -/
theorem assemble_tokenList (expr : SExpr) (lists : OpenLists) (rest : List Token) :
    assemble lists (expr.tokenList ++ rest) = resume rest (place expr lists) := by
  cases expr with
  | symbol text => exact assemble_cons lists (.symbol text) rest
  | string raw => exact assemble_cons lists (.string raw) rest
  | list items =>
      rw [tokenList, List.cons_append, assemble_cons, accept, resume, List.append_assoc,
        assemble_tokenLists items [] lists, List.append_nil, List.singleton_append, assemble_cons,
        accept, List.reverse_reverse]

theorem assemble_tokenLists (items read : List SExpr) (lists : OpenLists) (rest : List Token) :
    assemble (read :: lists) (tokenLists items ++ rest) =
      assemble ((items.reverse ++ read) :: lists) rest := by
  cases items with
  | nil => rfl
  | cons first others =>
      rw [tokenLists, List.append_assoc, assemble_tokenList first, place, resume,
        assemble_tokenLists others, List.reverse_cons, List.append_assoc, List.singleton_append]

end

/-- The text of an s-expression is read as this s-expression. -/
theorem IsWritten.read_text {expr : SExpr} (written : expr.IsWritten) :
    read [expr.text] = (some expr, []) := by
  have none : scan .blank [] = [] := rfl
  have scanned := written.scan_text .nothing
  rw [none, List.append_nil, List.append_nil, ← tokens_eq] at scanned
  have assembled := assemble_tokenList expr [] []
  rw [List.append_nil, place, resume] at assembled
  rw [read, readFrom, scanned, assembled]

/-! ## Symbols of terms -/

theorem start_of_other {character : Char} (other : character ∉ ['(', ')', ';', '"', '|'])
    (notBlank : Text.isBlank character = false) :
    start character = ([], .symbol [character] false) := by
  simp only [List.mem_cons, List.not_mem_nil, not_or] at other
  unfold start
  split <;> simp_all

theorem toNat_lt_of_isPart {character : Char} (part : Symbol.isPart character = true) :
    character.toNat < 127 := by
  have bounded {last : Char} (small : last.toNat < 127) (atMost : character.val ≤ last.val) :
      character.toNat < 127 := Nat.lt_of_le_of_lt atMost small
  have marks : Symbol.marks.all (·.toNat < 127) = true := by decide +kernel
  rcases Bool.or_eq_true_iff.mp part with alphanumeric | mark
  · rcases Bool.or_eq_true_iff.mp alphanumeric with letter | digit
    · rcases Bool.or_eq_true_iff.mp letter with upper | lower
      · exact bounded (by decide) (of_decide_eq_true upper).2
      · exact bounded (by decide) (of_decide_eq_true (Bool.and_eq_true_iff.mp lower).2)
    · exact bounded (by decide) (of_decide_eq_true (Bool.and_eq_true_iff.mp digit).2)
  · simpa using List.all_eq_true.mp marks character (by simpa using mark)

theorem isSymbolPart_of_isPart {character : Char} (part : Symbol.isPart character = true) :
    isSymbolPart character = true := by
  rwa [isSymbolPart_of_small (Nat.lt_trans (toNat_lt_of_isPart part) (by decide))]

theorem start_of_isPart {character : Char} (part : Symbol.isPart character = true) :
    start character = ([], .symbol [character] false) := by
  have known : ∀ code < 127, Symbol.isPart (Char.ofNat code) = true →
      Char.ofNat code ∉ ['(', ')', ';', '"', '|'] ∧ Text.isBlank (Char.ofNat code) = false := by
    decide +kernel
  have here := known character.toNat (toNat_lt_of_isPart part)
  rw [Char.ofNat_toNat] at here
  exact start_of_other (here part).1 (here part).2

theorem isWord_of_parts {chars : List Char} (present : chars ≠ [])
    (parts : ∀ character ∈ chars, Symbol.isPart character = true) : IsWord chars := by
  cases chars with
  | nil => exact absurd rfl present
  | cons first rest =>
      have ⟨here, behind⟩ := List.forall_mem_cons.mp parts
      exact .plain (start_of_isPart here) fun character member =>
        isSymbolPart_of_isPart (behind character member)

theorem isWord_of_mark {chars : List Char}
    (parts : ∀ character ∈ chars, Symbol.isPart character = true) : IsWord ('#' :: chars) :=
  .plain rfl fun character member => isSymbolPart_of_isPart (parts character member)

theorem isWord_of_simple {name : String} (simple : Symbol.isSimple name = true) :
    IsWord name.toList := by
  rcases Symbol.exists_start_of_simple simple with ⟨first, rest, chars, start, parts⟩
  have isPart : Symbol.isPart first = true :=
    Bool.or_eq_true_iff.mpr ((Bool.or_eq_true_iff.mp start).imp_left fun letter =>
      Bool.or_eq_true_iff.mpr (.inl letter))
  rw [chars]
  exact isWord_of_parts (by simp) (List.forall_mem_cons.mpr ⟨isPart, parts⟩)

theorem isWord_text {name : String} (spellable : Symbol.isSpellable name = true) :
    IsWord (Symbol.text name).toList := by
  cases simple : Symbol.isSimple name with
  | true =>
      rw [Symbol.text_of_simple simple]
      exact isWord_of_simple simple
  | false =>
      rw [Symbol.toList_text_of_not_simple simple]
      refine .barred fun bar => ?_
      have allowed := List.all_eq_true.mp spellable '|' bar
      simp at allowed

theorem isPart_of_spells {base number : Nat} {digits : List Char}
    (spells : Text.Spells base digits number) :
    ∀ character ∈ digits, Symbol.isPart character = true := by
  have listed : ∀ entry ∈ Text.digitTable, Symbol.isPart entry.1 = true := by decide +kernel
  intro character member
  rcases spells.isDigit character member with ⟨digit, isDigit, -⟩
  exact listed _ isDigit

theorem isWord_toString (number : Nat) : IsWord (toString number).toList := by
  rcases Text.decimal?_eq_some_iff.mp (Text.decimal?_toString number) with ⟨present, spells⟩
  exact isWord_of_parts present (isPart_of_spells spells)

theorem isWord_bitsText (width pattern : Nat) :
    IsWord (Numeral.bitsText width pattern).toList := by
  have parts {base : Nat} (count : Nat) (several : 1 < base) (small : base ≤ 16) :
      ∀ character ∈ Text.paddedDigits base count pattern, Symbol.isPart character = true :=
    isPart_of_spells (Text.readDigits_zero_eq_some_iff.mp
      (Text.readDigits_paddedDigits several small count pattern))
  unfold Numeral.bitsText
  split
  case isTrue =>
      simpa using isWord_of_mark
        (List.forall_mem_cons.mpr ⟨by decide, parts (width / 4) (by decide) (by decide)⟩)
  case isFalse =>
      simpa using isWord_of_mark
        (List.forall_mem_cons.mpr ⟨by decide, parts width (by decide) (by decide)⟩)

end BitTerms.SExpr
