import BitTerms.Proofs.Operator.Typing
import BitTerms.Proofs.Solver.Reports

/-!
# Signatures

The typing rules, read off a table: how many operands an operator has and of what kind, which of
them have one sort, what is asked of its indices, and what the result is, with a width that may be
any integer. `Operator.Accepts` puts this together, and `Operator.resultSort` gives a sort exactly
to the operands that are accepted, namely the sort of the table.
-/

namespace BitTerms

/-! ## Sorts of any width -/

/-- A sort whose width may be any integer. -/
inductive WideSort where
  | bool
  | int
  | bits (width : Int)

def SmtSort.widen : SmtSort → WideSort
  | .bool => .bool
  | .int => .int
  | .bits width => .bits width.bits

namespace SmtSort

variable {sort : SmtSort}

theorem widen_eq_bool_iff : sort.widen = .bool ↔ sort = .bool := by
  cases sort <;> simp [widen]

theorem widen_eq_int_iff : sort.widen = .int ↔ sort = .int := by
  cases sort <;> simp [widen]

theorem widen_eq_bits_iff {bits : Int} :
    sort.widen = .bits bits ↔ ∃ width, sort = .bits width ∧ (width.bits : Int) = bits := by
  cases sort <;> simp [widen]

theorem widen_injective {left right : SmtSort} (same : left.widen = right.widen) :
    left = right := by
  cases right with
  | bool => exact widen_eq_bool_iff.mp same
  | int => exact widen_eq_int_iff.mp same
  | bits width =>
      rcases widen_eq_bits_iff.mp same with ⟨other, equal, bits⟩
      rw [equal, Width.ext (Int.ofNat.inj bits)]

/-- A sort of any width is one of the sorts exactly if its width is in range. -/
theorem exists_widen_iff {wide : WideSort} :
    (∃ sort : SmtSort, sort.widen = wide) ↔
      ∀ bits, wide = .bits bits → 1 ≤ bits ∧ bits < wordLimit := by
  constructor
  · intro ⟨sort, same⟩ bits isBits
    rcases widen_eq_bits_iff.mp (same.trans isBits) with ⟨width, -, equal⟩
    have positive := width.pos
    have small := width.lt_wordLimit
    omega
  · intro inRange
    cases wide with
    | bool => exact ⟨.bool, rfl⟩
    | int => exact ⟨.int, rfl⟩
    | bits bits =>
        have bounds := inRange bits rfl
        have natural : (bits.toNat : Int) = bits := Int.toNat_of_nonneg (by omega)
        exact ⟨.bits ⟨bits.toNat, by omega, by omega⟩, congrArg WideSort.bits natural⟩

end SmtSort

/-! ## The table -/

/-- What an operator asks of the sort of one operand. -/
inductive Place where
  | bits
  | bool
  | any

def Place.Takes : Place → SmtSort → Prop
  | .bits, sort => ∃ width, sort = .bits width
  | .bool, sort => sort = .bool
  | .any, _ => True

namespace Operator

def places : Operator → List Place
  | .complement | .negate | .negationOverflows | .extract _ _ | .extend _ _ | .replicate _
  | .toInt _ => [.bits]
  | .bitwise _ | .ring _ | .divide _ | .shift _ | .rotate _ | .compare _ _ | .overflows _ _
  | .quotientOverflows | .concat => [.bits, .bits]
  | .equal => [.any, .any]
  | .ite => [.bool, .any, .any]
  | .not => [.bool]
  | .connective _ => [.bool, .bool]

/-- The number of operands, counted from the first, that may differ in sort from the others. The
operands behind them have one sort. -/
def unrelated : Operator → Nat
  | .concat => 2
  | .ite => 1
  | _ => 0

/-- What the indices have to be like for operands of these sorts. -/
def IndicesFit : Operator → List SmtSort → Prop
  | .extract high low, operands => low ≤ high ∧ ∀ width, .bits width ∈ operands → high < width.bits
  | .replicate count, _ => 1 ≤ count
  | _, _ => True

/-- The sort of the result, computed over the integers. -/
def result : Operator → List SmtSort → WideSort
  | .concat, [.bits left, .bits right] => .bits (left.bits + right.bits)
  | .extract high low, _ => .bits (high - low + 1)
  | .extend _ extra, [.bits width] => .bits (width.bits + extra)
  | .replicate count, [.bits width] => .bits (width.bits * count)
  | .compare _ _, _ | .overflows _ _, _ | .quotientOverflows, _ | .negationOverflows, _
  | .equal, _ | .not, _ | .connective _, _ => .bool
  | .toInt _, _ => .int
  | .ite, [_, branch, _] => branch.widen
  | _, operands => (operands.headD .bool).widen

/-- The operands are as the table asks, and the result is not too wide for a sort. -/
structure Accepts (operator : Operator) (operands : List SmtSort) : Prop where
  count : operands.length = operator.arity
  kinds : List.Forall₂ Place.Takes operator.places operands
  alike : ∀ left ∈ operands.drop operator.unrelated, ∀ right ∈ operands.drop operator.unrelated,
    left = right
  indices : operator.IndicesFit operands
  fits : ∀ bits, operator.result operands = .bits bits → bits < wordLimit

variable {operator : Operator} {operands : List SmtSort} {sort : SmtSort}

/-! ## Operands by their kinds -/

theorem exists_bits (kinds : List.Forall₂ Place.Takes [.bits] operands) :
    ∃ width, operands = [.bits width] := by
  rcases exists_one kinds.flip with ⟨_, same, width, rfl⟩
  exact ⟨width, same⟩

theorem exists_two_bits (kinds : List.Forall₂ Place.Takes [.bits, .bits] operands) :
    ∃ left right, operands = [.bits left, .bits right] := by
  rcases exists_two kinds.flip with ⟨_, _, same, ⟨left, rfl⟩, right, rfl⟩
  exact ⟨left, right, same⟩

theorem exists_common_bits (kinds : List.Forall₂ Place.Takes [.bits, .bits] operands)
    (alike : ∀ left ∈ operands.drop 0, ∀ right ∈ operands.drop 0, left = right) :
    ∃ width, operands = [.bits width, .bits width] := by
  rcases exists_two_bits kinds with ⟨left, right, rfl⟩
  have same : SmtSort.bits left = .bits right := alike _ (by simp) _ (by simp)
  exact ⟨right, by rw [same]⟩

/-! ## The table and the rules -/

theorem widen_of_types (typed : operator.Types operands sort) :
    sort.widen = operator.result operands := by
  cases typed with
  | concat left right width sum => simp [SmtSort.widen, result, sum]
  | extract high low width narrowed ordered inside count =>
      have exact : (narrowed.bits : Int) = high - low + 1 := by omega
      exact congrArg WideSort.bits exact
  | extend reading extra width widened sum => simp [SmtSort.widen, result, sum]
  | replicate count width repeated some product => simp [SmtSort.widen, result, product]
  | _ => rfl

theorem accepts_of_types (typed : operator.Types operands sort) : operator.Accepts operands := by
  have inRange := SmtSort.exists_widen_iff.mp ⟨sort, widen_of_types typed⟩
  have fits := fun bits isBits => (inRange bits isBits).2
  cases typed with
  | extract high low width narrowed ordered inside =>
      exact ⟨rfl, by simp [places, Place.Takes], by simp [unrelated],
        ⟨ordered, by simpa using inside⟩, fits⟩
  | replicate count width repeated some =>
      exact ⟨rfl, by simp [places, Place.Takes], by simp [unrelated], Nat.pos_of_ne_zero some, fits⟩
  | _ => exact ⟨rfl, by simp [places, Place.Takes], by simp [unrelated], trivial, fits⟩

theorem types_of_accepts (accepts : operator.Accepts operands)
    (same : sort.widen = operator.result operands) : operator.Types operands sort := by
  have kinds := accepts.kinds
  have alike := accepts.alike
  have indices := accepts.indices
  cases operator with
  | complement | negate =>
      rcases exists_bits kinds with ⟨width, rfl⟩
      have isBits : sort = .bits width := SmtSort.widen_injective same
      subst isBits
      constructor
  | bitwise | ring | divide | shift | rotate =>
      rcases exists_common_bits kinds alike with ⟨width, rfl⟩
      have isBits : sort = .bits width := SmtSort.widen_injective same
      subst isBits
      constructor
  | compare | overflows | quotientOverflows =>
      rcases exists_common_bits kinds alike with ⟨width, rfl⟩
      have isBool := SmtSort.widen_eq_bool_iff.mp same
      subst isBool
      constructor
  | negationOverflows =>
      rcases exists_bits kinds with ⟨width, rfl⟩
      have isBool := SmtSort.widen_eq_bool_iff.mp same
      subst isBool
      constructor
  | toInt reading =>
      rcases exists_bits kinds with ⟨width, rfl⟩
      have isInt := SmtSort.widen_eq_int_iff.mp same
      subst isInt
      constructor
  | concat =>
      rcases exists_two_bits kinds with ⟨left, right, rfl⟩
      rcases SmtSort.widen_eq_bits_iff.mp same with ⟨width, rfl, sum⟩
      exact .concat left right width (by omega)
  | extract high low =>
      rcases exists_bits kinds with ⟨width, rfl⟩
      rcases SmtSort.widen_eq_bits_iff.mp same with ⟨narrowed, rfl, count⟩
      have ordered : low ≤ high := indices.1
      exact .extract high low width narrowed ordered (indices.2 width (by simp)) (by omega)
  | extend reading extra =>
      rcases exists_bits kinds with ⟨width, rfl⟩
      rcases SmtSort.widen_eq_bits_iff.mp same with ⟨widened, rfl, sum⟩
      exact .extend reading extra width widened (by omega)
  | replicate count =>
      rcases exists_bits kinds with ⟨width, rfl⟩
      rcases SmtSort.widen_eq_bits_iff.mp same with ⟨repeated, rfl, product⟩
      have positive : 1 ≤ count := indices
      exact .replicate count width repeated (by omega) (by exact_mod_cast product)
  | equal =>
      rcases exists_two kinds.flip with ⟨left, right, rfl, -⟩
      have isBool := SmtSort.widen_eq_bool_iff.mp same
      have equal : left = right := alike _ (by simp [unrelated]) _ (by simp [unrelated])
      subst isBool equal
      constructor
  | ite =>
      rcases exists_three kinds.flip with ⟨condition, left, right, rfl, isBool, -⟩
      have isLeft : sort = left := SmtSort.widen_injective same
      have equal : left = right := alike _ (by simp [unrelated]) _ (by simp [unrelated])
      have conditionBool : condition = .bool := isBool
      subst isLeft equal conditionBool
      constructor
  | not =>
      rcases exists_one kinds.flip with ⟨operand, rfl, operandBool⟩
      have isBool := SmtSort.widen_eq_bool_iff.mp same
      have operandIs : operand = .bool := operandBool
      subst isBool operandIs
      constructor
  | connective =>
      rcases exists_two kinds.flip with ⟨left, right, rfl, leftBool, rightBool⟩
      have isBool := SmtSort.widen_eq_bool_iff.mp same
      have leftIs : left = .bool := leftBool
      have rightIs : right = .bool := rightBool
      subst isBool leftIs rightIs
      constructor

/-- No accepted application has a width that is not positive. -/
theorem Accepts.one_le (accepts : operator.Accepts operands) {bits : Int}
    (isBits : operator.result operands = .bits bits) : 1 ≤ bits := by
  have kinds := accepts.kinds
  have alike := accepts.alike
  have indices := accepts.indices
  cases operator with
  | compare | overflows | quotientOverflows | negationOverflows | toInt | equal | not
  | connective => cases isBits
  | complement | negate =>
      rcases exists_bits kinds with ⟨width, rfl⟩
      exact (SmtSort.exists_widen_iff.mp ⟨.bits width, rfl⟩ bits isBits).1
  | bitwise | ring | divide | shift | rotate =>
      rcases exists_common_bits kinds alike with ⟨width, rfl⟩
      exact (SmtSort.exists_widen_iff.mp ⟨.bits width, rfl⟩ bits isBits).1
  | ite =>
      rcases exists_three kinds.flip with ⟨condition, left, right, rfl, -⟩
      exact (SmtSort.exists_widen_iff.mp ⟨left, rfl⟩ bits isBits).1
  | concat =>
      rcases exists_two_bits kinds with ⟨left, right, rfl⟩
      have sum : (left.bits + right.bits : Int) = bits := WideSort.bits.inj isBits
      have positive := left.pos
      omega
  | extract high low =>
      have count : (high - low + 1 : Int) = bits := WideSort.bits.inj isBits
      have ordered : low ≤ high := indices.1
      omega
  | extend reading extra =>
      rcases exists_bits kinds with ⟨width, rfl⟩
      have sum : (width.bits + extra : Int) = bits := WideSort.bits.inj isBits
      have positive := width.pos
      omega
  | replicate count =>
      rcases exists_bits kinds with ⟨width, rfl⟩
      have product : (width.bits * count : Int) = bits := WideSort.bits.inj isBits
      have positive : 0 < width.bits * count := Nat.mul_pos width.pos indices
      rw [← product]
      exact_mod_cast positive

theorem Accepts.exists_sort (accepts : operator.Accepts operands) :
    ∃ sort : SmtSort, sort.widen = operator.result operands :=
  SmtSort.exists_widen_iff.mpr fun bits isBits => ⟨accepts.one_le isBits, accepts.fits bits isBits⟩

theorem resultSort_eq_ok_iff_accepts :
    operator.resultSort operands = .ok sort ↔
      operator.Accepts operands ∧ sort.widen = operator.result operands := by
  rw [resultSort_eq_ok_iff]
  constructor
  · intro typed
    exact ⟨accepts_of_types typed, widen_of_types typed⟩
  · intro ⟨accepts, same⟩
    exact types_of_accepts accepts same

/-- An extraction whose indices fit is not wider than its operand, so that its width needs no check
of its own. -/
theorem accepts_extract {high low : Nat} {width : Width} (ordered : low ≤ high)
    (inside : high < width.bits) : (extract high low).Accepts [.bits width] where
  count := rfl
  kinds := by simp [places, Place.Takes]
  alike := by simp [unrelated]
  indices := ⟨ordered, by simpa using inside⟩
  fits bits isBits := by
    have count : (high - low + 1 : Int) = bits := WideSort.bits.inj isBits
    have small := width.lt_wordLimit
    omega

/-- An application has a sort exactly if its operands are accepted. The sort is then the one that
is computed over the integers, with a width in the range of one machine word that is not zero.
Otherwise there is an error, which says why. An extraction is never refused for its width. -/
theorem resultSort_exact (operator : Operator) (operands : List SmtSort) :
    ((∃ sort, operator.resultSort operands = .ok sort) ↔ operator.Accepts operands) ∧
    (∀ sort, operator.resultSort operands = .ok sort →
      sort.widen = operator.result operands ∧
        ∀ width, sort = .bits width → 1 ≤ width.bits ∧ width.bits ≤ 0xffffffff) ∧
    (¬ operator.Accepts operands →
      ∃ error, operator.resultSort operands = .error error ∧ error.IsReported) ∧
    ∀ high low width, operator = .extract high low → operands = [.bits width] → low ≤ high →
      high < width.bits → operator.Accepts operands := by
  refine ⟨⟨?accepted, ?given⟩, fun sort came => ⟨?exact, ?inRange⟩, fun refused => ?refused,
    ?extraction⟩
  case accepted =>
    intro ⟨sort, came⟩
    exact (resultSort_eq_ok_iff_accepts.mp came).1
  case given =>
    intro accepts
    rcases accepts.exists_sort with ⟨sort, same⟩
    exact ⟨sort, resultSort_eq_ok_iff_accepts.mpr ⟨accepts, same⟩⟩
  case exact => exact (resultSort_eq_ok_iff_accepts.mp came).2
  case inRange =>
    intro width _
    have small := width.lt_wordLimit
    unfold wordLimit at small
    exact ⟨width.pos, by omega⟩
  case refused =>
    have refuses := operator.refuses_resultSort operands
    cases came : operator.resultSort operands with
    | ok sort => exact absurd (resultSort_eq_ok_iff_accepts.mp came).1 refused
    | error error =>
        rw [came] at refuses
        exact ⟨error, rfl, refuses.isReported⟩
  case extraction =>
    intro high low width isExtract isBits ordered inside
    subst isExtract isBits
    exact accepts_extract ordered inside

end Operator

end BitTerms
