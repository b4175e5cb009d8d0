import Mathlib.Algebra.Group.Nat.Defs
import Mathlib.Data.List.Basic
import BitTerms.Proofs.Operator.Typing
import BitTerms.Solver.Lowering

/-!
# How applications are lowered

Whatever comes of lowering an application is said here once. A draft is written at widths that were
found and at positions that were computed from them in machine words: `Operator.Lowered`. Where the
width of the operand fits the words (`Operator.FitsWords`), the positions are the exact ones,
however the program was built. Where it does not, a program that checks its arithmetic gives up.
-/

namespace BitTerms

/-! ## Machine words -/

namespace Word

variable {build : Build} {left right : Nat}

theorem ofInt_natCast {number : Nat} (inRange : number < wordLimit) :
    ofInt build number = .ok number := by
  unfold ofInt
  rw [if_pos ⟨Int.natCast_nonneg number, Int.ofNat_lt.mpr inRange⟩, Int.toNat_natCast]

theorem sub_of_le (le : right ≤ left) (inRange : left < wordLimit) :
    sub build left right = .ok (left - right) := by
  rw [sub, ← Int.natCast_sub le]
  exact ofInt_natCast (Nat.lt_of_le_of_lt (Nat.sub_le left right) inRange)

theorem mul_of_lt (inRange : left * right < wordLimit) :
    mul build left right = .ok (left * right) := by
  rw [mul, ← Int.natCast_mul]
  exact ofInt_natCast inRange

theorem eq_of_sub {word : Nat} (isWord : sub build left right = .ok word) (le : right ≤ left)
    (inRange : left < wordLimit) : word = left - right :=
  Except.ok.inj (isWord.symm.trans (sub_of_le le inRange))

theorem sub_checked_of_lt (less : left < right) :
    sub .checked left right = .error .wordOverflow :=
  if_neg (by omega)

theorem mul_checked_of_le (leaves : wordLimit ≤ left * right) :
    mul .checked left right = .error .wordOverflow := by
  rw [mul, ← Int.natCast_mul]
  exact if_neg (by omega)

/-- A program that does not check always goes on. -/
theorem ofInt_unchecked (number : Int) :
    ofInt .unchecked number = .ok (number % wordLimit).toNat := by
  unfold ofInt
  split
  case isTrue inside => rw [Int.emod_eq_of_lt inside.1 inside.2]
  case isFalse => rfl

theorem exists_sub_one {width : Nat} (inRange : width < wordLimit)
    (positive : build = .checked → 0 < width) : ∃ word, sub build width 1 = .ok word := by
  cases build with
  | checked => exact ⟨_, sub_of_le (positive rfl) inRange⟩
  | unchecked => exact ⟨_, ofInt_unchecked _⟩

end Word

/-! ## Widths that fit -/

namespace Operator

/-- The operator is written under its own name. -/
def IsNative : Operator → Prop
  | .rotate _ | .toInt _ | .overflows _ _ | .quotientOverflows | .negationOverflows => False
  | _ => True

/-- The indices of the expansion at this width are machine words, and none of them is negative. -/
def FitsWords : Operator → Nat → Prop
  | .overflows .mul .unsigned, width => 0 < width ∧ 2 * width < wordLimit
  | .overflows _ _, width | .quotientOverflows, width | .negationOverflows, width => 0 < width
  | _, _ => True

theorem FitsWords.positive {operation : RingOp} {reading : Reading} {width : Nat}
    (fits : (overflows operation reading).FitsWords width) : 0 < width := by
  cases operation with
  | add | sub => exact fits
  | mul =>
      cases reading with
      | unsigned => exact fits.1
      | signed => exact fits

end Operator

namespace Draft

variable {build : Build} {operation : RingOp} {reading : Reading} {width : Nat}

/-- The position of the top bit of a result that has bits to spare, as a number of any size. -/
def topIndex (operation : RingOp) (reading : Reading) (width : Nat) : Nat :=
  match operation, reading with
  | .mul, .unsigned => 2 * width - 1
  | _, _ => width

theorem topPosition_of_fits (build : Build)
    (fits : (Operator.overflows operation reading).FitsWords width) :
    topPosition build operation reading width = .ok (topIndex operation reading width) := by
  cases operation with
  | add | sub => rfl
  | mul =>
      cases reading with
      | signed => rfl
      | unsigned =>
          have positive := fits.positive
          have doubled : Word.mul build 2 width = .ok (2 * width) := Word.mul_of_lt fits.2
          simp only [topPosition, doubled]
          exact Word.sub_of_le (by omega) fits.2

theorem eq_topIndex {top : Nat} (isTop : topPosition build operation reading width = .ok top)
    (fits : (Operator.overflows operation reading).FitsWords width) :
    top = topIndex operation reading width :=
  Except.ok.inj (isTop.symm.trans (topPosition_of_fits build fits))

theorem topPosition_of_misfit (positive : 0 < width)
    (misfit : ¬ (Operator.overflows operation reading).FitsWords width) :
    topPosition .checked operation reading width = .error .wordOverflow := by
  cases operation with
  | add | sub => exact absurd positive misfit
  | mul =>
      cases reading with
      | signed => exact absurd positive misfit
      | unsigned =>
          have tooWide : wordLimit ≤ 2 * width := Nat.not_lt.mp fun fits => misfit ⟨positive, fits⟩
          simp only [topPosition, Word.mul_checked_of_le tooWide]
          rfl

theorem exists_topPosition
    (fits : build = .checked → (Operator.overflows operation reading).FitsWords width) :
    ∃ top, topPosition build operation reading width = .ok top := by
  cases build with
  | checked => exact ⟨_, topPosition_of_fits .checked (fits rfl)⟩
  | unchecked =>
      cases operation with
      | add | sub => exact ⟨width, rfl⟩
      | mul =>
          cases reading with
          | signed => exact ⟨width, rfl⟩
          | unsigned =>
              exact ⟨_, Except.bind_eq_ok_iff.mpr
                ⟨_, Word.ofInt_unchecked _, Word.ofInt_unchecked _⟩⟩

end Draft

/-! ## Lowering -/

namespace Operator

variable {build : Build} {operator : Operator} {operands : List Draft}
  {resultWidth operandWidth : Unit → Except Error Nat} {draft : Draft}

/-- What an application is lowered to, with what was found and computed for it. -/
inductive Lowered (build : Build) (resultWidth operandWidth : Unit → Except Error Nat) :
    Operator → List Draft → Draft → Prop
  | rotate {direction : Rotation} {value amount : Draft} {width : Nat}
      (found : resultWidth () = .ok width) :
      Lowered build resultWidth operandWidth (.rotate direction) [value, amount]
        (.rotate direction width value amount)
  | toInt {reading : Reading} {value : Draft} {width : Nat} (found : operandWidth () = .ok width) :
      Lowered build resultWidth operandWidth (.toInt reading) [value]
        (.toInt reading width value)
  | overflows {operation : RingOp} {reading : Reading} {left right : Draft} {width sign top : Nat}
      (found : operandWidth () = .ok width) (isSign : Word.sub build width 1 = .ok sign)
      (isTop : Draft.topPosition build operation reading width = .ok top) :
      Lowered build resultWidth operandWidth (.overflows operation reading) [left, right]
        (.overflows operation reading width sign top left right)
  | quotientOverflows {left right : Draft} {width sign : Nat}
      (found : operandWidth () = .ok width) (isSign : Word.sub build width 1 = .ok sign) :
      Lowered build resultWidth operandWidth .quotientOverflows [left, right]
        (.quotientOverflows width sign left right)
  | negationOverflows {value : Draft} {width sign : Nat}
      (found : operandWidth () = .ok width) (isSign : Word.sub build width 1 = .ok sign) :
      Lowered build resultWidth operandWidth .negationOverflows [value]
        (.isLeast width sign value)
  | native {operator : Operator} {operands : List Draft} (native : operator.IsNative)
      (count : operands.length = operator.arity) :
      Lowered build resultWidth operandWidth operator operands (.native operator operands)

theorem IsNative.lower_eq (native : operator.IsNative) (build : Build)
    (count : operands.length = operator.arity)
    (resultWidth operandWidth : Unit → Except Error Nat) :
    operator.lower build operands resultWidth operandWidth = .ok (.native operator operands) := by
  cases operator with
  | rotate | toInt | overflows | quotientOverflows | negationOverflows => exact native.elim
  | _ => simp only [lower, count, if_true]

theorem lower_of_miscount (miscount : operands.length ≠ operator.arity) :
    operator.lower build operands resultWidth operandWidth =
      .error (.operandCount operator operands.length) := by
  unfold lower
  split <;> first | exact absurd rfl miscount | exact if_neg miscount

/-- Drafts come from `Lowered` alone, and everything that it allows is written. -/
theorem lower_eq_ok_iff :
    operator.lower build operands resultWidth operandWidth = .ok draft ↔
      Lowered build resultWidth operandWidth operator operands draft := by
  constructor
  · intro lowered
    have count : operands.length = operator.arity := Classical.byContradiction fun miscount => by
      rw [lower_of_miscount miscount] at lowered
      cases lowered
    by_cases native : operator.IsNative
    · rw [native.lower_eq build count] at lowered
      cases lowered
      exact .native native count
    · cases operator with
      | rotate direction =>
          rcases List.length_eq_two.mp count with ⟨value, amount, rfl⟩
          rcases Except.bind_eq_ok_iff.mp lowered with ⟨width, found, ⟨⟩⟩
          exact .rotate found
      | toInt reading =>
          rcases List.length_eq_one_iff.mp count with ⟨value, rfl⟩
          rcases Except.bind_eq_ok_iff.mp lowered with ⟨width, found, ⟨⟩⟩
          exact .toInt found
      | overflows operation reading =>
          rcases List.length_eq_two.mp count with ⟨left, right, rfl⟩
          rcases Except.bind_eq_ok_iff.mp lowered with ⟨width, found, positioned⟩
          rcases Except.bind_eq_ok_iff.mp positioned with ⟨sign, isSign, topped⟩
          rcases Except.bind_eq_ok_iff.mp topped with ⟨top, isTop, ⟨⟩⟩
          exact .overflows found isSign isTop
      | quotientOverflows =>
          rcases List.length_eq_two.mp count with ⟨left, right, rfl⟩
          rcases Except.bind_eq_ok_iff.mp lowered with ⟨width, found, positioned⟩
          rcases Except.bind_eq_ok_iff.mp positioned with ⟨sign, isSign, ⟨⟩⟩
          exact .quotientOverflows found isSign
      | negationOverflows =>
          rcases List.length_eq_one_iff.mp count with ⟨value, rfl⟩
          rcases Except.bind_eq_ok_iff.mp lowered with ⟨width, found, positioned⟩
          rcases Except.bind_eq_ok_iff.mp positioned with ⟨sign, isSign, ⟨⟩⟩
          exact .negationOverflows found isSign
      | _ => exact absurd trivial native
  · intro lowered
    cases lowered with
    | rotate found | toInt found => exact Except.bind_eq_ok_iff.mpr ⟨_, found, rfl⟩
    | overflows found isSign isTop =>
        exact Except.bind_eq_ok_iff.mpr ⟨_, found, Except.bind_eq_ok_iff.mpr
          ⟨_, isSign, Except.bind_eq_ok_iff.mpr ⟨_, isTop, rfl⟩⟩⟩
    | quotientOverflows found isSign | negationOverflows found isSign =>
        exact Except.bind_eq_ok_iff.mpr ⟨_, found, Except.bind_eq_ok_iff.mpr ⟨_, isSign, rfl⟩⟩
    | native isNative count => exact isNative.lower_eq build count _ _

/-- The same draft is written wherever the same widths are found. -/
theorem Lowered.mono {resultWidth' operandWidth' : Unit → Except Error Nat}
    (lowered : Lowered build resultWidth operandWidth operator operands draft)
    (ofResult : ∀ width, resultWidth () = .ok width → resultWidth' () = .ok width)
    (ofOperand : ∀ width, operandWidth () = .ok width → operandWidth' () = .ok width) :
    Lowered build resultWidth' operandWidth' operator operands draft := by
  cases lowered with
  | rotate found => exact .rotate (ofResult _ found)
  | toInt found => exact .toInt (ofOperand _ found)
  | overflows found isSign isTop => exact .overflows (ofOperand _ found) isSign isTop
  | quotientOverflows found isSign => exact .quotientOverflows (ofOperand _ found) isSign
  | negationOverflows found isSign => exact .negationOverflows (ofOperand _ found) isSign
  | native isNative count => exact .native isNative count

/-! ## When an application is lowered -/

/-- The width of the first operand is asked for. -/
def AsksWidth : Operator → Prop
  | .toInt _ | .overflows _ _ | .quotientOverflows | .negationOverflows => True
  | _ => False

/-- Lowering comes to a draft if the widths that it asks for are found, and if the width of the
operand fits the words of a program that checks them. -/
theorem exists_lowered (count : operands.length = operator.arity)
    (ofResult : ∀ direction, operator = .rotate direction → ∃ width, resultWidth () = .ok width)
    (ofOperand : operator.AsksWidth → ∃ width, operandWidth () = .ok width ∧ width < wordLimit ∧
      (build = .checked → operator.FitsWords width)) :
    ∃ draft, Lowered build resultWidth operandWidth operator operands draft := by
  by_cases native : operator.IsNative
  · exact ⟨_, .native native count⟩
  · cases operator with
    | rotate direction =>
        rcases List.length_eq_two.mp count with ⟨value, amount, rfl⟩
        rcases ofResult direction rfl with ⟨width, found⟩
        exact ⟨_, .rotate found⟩
    | toInt reading =>
        rcases List.length_eq_one_iff.mp count with ⟨value, rfl⟩
        rcases ofOperand trivial with ⟨width, found, -⟩
        exact ⟨_, .toInt found⟩
    | overflows operation reading =>
        rcases List.length_eq_two.mp count with ⟨left, right, rfl⟩
        rcases ofOperand trivial with ⟨width, found, inRange, fits⟩
        rcases Word.exists_sub_one inRange fun checks => (fits checks).positive with
          ⟨sign, isSign⟩
        rcases Draft.exists_topPosition fits with ⟨top, isTop⟩
        exact ⟨_, .overflows found isSign isTop⟩
    | quotientOverflows =>
        rcases List.length_eq_two.mp count with ⟨left, right, rfl⟩
        rcases ofOperand trivial with ⟨width, found, inRange, fits⟩
        rcases Word.exists_sub_one inRange fits with ⟨sign, isSign⟩
        exact ⟨_, .quotientOverflows found isSign⟩
    | negationOverflows =>
        rcases List.length_eq_one_iff.mp count with ⟨value, rfl⟩
        rcases ofOperand trivial with ⟨width, found, inRange, fits⟩
        rcases Word.exists_sub_one inRange fits with ⟨sign, isSign⟩
        exact ⟨_, .negationOverflows found isSign⟩
    | _ => exact absurd trivial native

/-- A program that checks its words gives up at a width that does not fit them. -/
theorem lower_of_misfit (count : operands.length = operator.arity) {width : Nat}
    (found : operandWidth () = .ok width) (inRange : width < wordLimit)
    (misfit : ¬ operator.FitsWords width) :
    operator.lower .checked operands resultWidth operandWidth = .error .wordOverflow := by
  cases operator with
  | overflows operation reading =>
      rcases List.length_eq_two.mp count with ⟨left, right, rfl⟩
      by_cases positive : 0 < width
      · simp only [lower, found, bind, Except.bind, Word.sub_of_le positive inRange,
          Draft.topPosition_of_misfit positive misfit]
      · simp only [lower, found, bind, Except.bind,
          Word.sub_checked_of_lt (Nat.not_le.mp positive)]
  | quotientOverflows =>
      rcases List.length_eq_two.mp count with ⟨left, right, rfl⟩
      simp only [lower, found, bind, Except.bind, Word.sub_checked_of_lt (Nat.not_le.mp misfit)]
  | negationOverflows =>
      rcases List.length_eq_one_iff.mp count with ⟨value, rfl⟩
      simp only [lower, found, bind, Except.bind, Word.sub_checked_of_lt (Nat.not_le.mp misfit)]
  | _ => exact absurd trivial misfit

/-- The overflow of an unsigned product is not asked for at a width whose double exceeds a word. -/
def IsNarrow (operator : Operator) (sorts : List SmtSort) : Prop :=
  operator = .overflows .mul .unsigned → ∀ width, .bits width ∈ sorts → width.bits < 2 ^ 31

variable {sorts : List SmtSort} {sort : SmtSort}

theorem fitsWords_iff_isNarrow {operation : RingOp} {reading : Reading} {width : Width} :
    (overflows operation reading).FitsWords width.bits ↔
      (overflows operation reading).IsNarrow [.bits width, .bits width] := by
  have positive := width.pos
  cases operation with
  | add | sub => exact iff_of_true positive nofun
  | mul =>
      cases reading with
      | signed => exact iff_of_true positive nofun
      | unsigned =>
          have limit : wordLimit = 2 * 2 ^ 31 := rfl
          simp only [FitsWords, IsNarrow, positive, true_and, true_implies, List.mem_cons,
            List.not_mem_nil, or_false, or_self, SmtSort.bits.injEq, forall_eq, limit]
          omega

theorem Types.length_eq (rule : operator.Types sorts sort) : sorts.length = operator.arity := by
  cases rule <;> rfl

/-- The operand whose width is asked for is a bit-vector. -/
theorem AsksWidth.exists_first (asks : operator.AsksWidth) (rule : operator.Types sorts sort) :
    ∃ width, sorts.head? = some (.bits width) := by
  cases rule with
  | toInt reading width | overflows operation reading width => exact ⟨width, rfl⟩
  | quotientOverflows width | negationOverflows width => exact ⟨width, rfl⟩
  | _ => exact asks.elim

/-- The width of the first operand fits the words, unless the overflow of a product is too wide. -/
theorem Types.fitsWords_iff (rule : operator.Types sorts sort) {width : Width}
    (first : sorts.head? = some (.bits width)) :
    operator.FitsWords width.bits ↔ operator.IsNarrow sorts := by
  cases rule with
  | overflows operation reading =>
      cases first
      exact fitsWords_iff_isNarrow
  | quotientOverflows | negationOverflows => exact iff_of_true width.pos nofun
  | _ => exact iff_of_true trivial nofun

theorem Types.isNarrow_of_not_asksWidth (rule : operator.Types sorts sort)
    (asksNot : ¬ operator.AsksWidth) : operator.IsNarrow sorts := by
  rintro rfl
  exact absurd trivial asksNot

/-- The width that a sort says, if there is one. -/
def saidWidth : Option SmtSort → Except Error Nat
  | some (.bits width) => .ok width.bits
  | _ => .error .zeroWidth

theorem saidWidth_eq_ok_iff {sort? : Option SmtSort} {bits : Nat} :
    saidWidth sort? = .ok bits ↔ ∃ width, sort? = some (.bits width) ∧ width.bits = bits := by
  unfold saidWidth
  split <;> simp_all

/-- A typed application is lowered, and the widths that this takes are those of the sorts. -/
theorem Types.exists_lowered (rule : operator.Types sorts sort)
    (count : operands.length = sorts.length)
    (narrow : build = .checked → operator.IsNarrow sorts) :
    ∃ draft, ∀ resultWidth operandWidth : Unit → Except Error Nat,
      (∀ width, sort = .bits width → resultWidth () = .ok width.bits) →
      (∀ width, sorts.head? = some (.bits width) → operandWidth () = .ok width.bits) →
        operator.lower build operands resultWidth operandWidth = .ok draft := by
  obtain ⟨draft, lowered⟩ : ∃ draft, Lowered build (fun _ => saidWidth (some sort))
      (fun _ => saidWidth sorts.head?) operator operands draft := by
    refine Operator.exists_lowered (count.trans rule.length_eq) ?_ fun asks => ?_
    · rintro direction rfl
      cases rule with
      | rotate _ width => exact ⟨width.bits, rfl⟩
    · rcases asks.exists_first rule with ⟨width, first⟩
      rw [first]
      exact ⟨width.bits, rfl, width.lt_wordLimit, fun checks =>
        (rule.fitsWords_iff first).mpr (narrow checks)⟩
  refine ⟨draft, fun resultWidth operandWidth ofResult ofOperand => ?_⟩
  refine lower_eq_ok_iff.mpr (lowered.mono (fun bits said => ?_) fun bits said => ?_)
  · rcases saidWidth_eq_ok_iff.mp said with ⟨width, isSome, rfl⟩
    exact ofResult width (Option.some.inj isSome)
  · rcases saidWidth_eq_ok_iff.mp said with ⟨width, first, rfl⟩
    exact ofOperand width first

/-- And it is not where its words are checked and the overflow of a product is too wide. -/
theorem Types.lower_of_wide (rule : operator.Types sorts sort)
    (count : operands.length = sorts.length) (wide : ¬ operator.IsNarrow sorts)
    (ofOperand : ∀ width, sorts.head? = some (.bits width) → operandWidth () = .ok width.bits) :
    operator.lower .checked operands resultWidth operandWidth = .error .wordOverflow := by
  have asks : operator.AsksWidth := Classical.byContradiction fun asksNot =>
    wide (rule.isNarrow_of_not_asksWidth asksNot)
  rcases asks.exists_first rule with ⟨width, first⟩
  exact lower_of_misfit (count.trans rule.length_eq) (ofOperand width first) width.lt_wordLimit
    fun fits => wide ((rule.fitsWords_iff first).mp fits)

end Operator

end BitTerms
