import BitTerms.Proofs.Shape

/-!
# Widths of s-expressions

The width that an s-expression has as a bit-vector, given the widths of the variables: that of the
numeral, or what the operator in front makes of the widths behind it. So the text of a term
determines its width. A variable that is declared later does not change the widths that are known
already.
-/

namespace BitTerms

/-! ## Operators -/

namespace Operator

/-- The width of an application, from the widths of its operands as far as they are known. -/
def width? : Operator → List (Option Nat) → Option Nat
  | .complement, [width] | .negate, [width] => width
  | .bitwise _, [width, _] | .ring _, [width, _] | .divide _, [width, _]
  | .shift _, [width, _] => width
  | .concat, [left, right] => do return (← left) + (← right)
  | .extract high low, [_] => some (high + 1 - low)
  | .extend _ extra, [width] => width.map (· + extra)
  | .replicate count, [width] => width.map (· * count)
  | .ite, [_, width, _] => width
  | _, _ => none

variable {operator : Operator} {sorts : List SmtSort} {sort : SmtSort} {width : Width}

/-- Nothing else is known of the widths than what the sorts say. -/
abbrev WidthsOf (widths : List (Option Nat)) (sorts : List SmtSort) : Prop :=
  List.Forall₂ (fun found sort => ∀ width, sort = .bits width → found = some width.bits)
    widths sorts

theorem Types.width?_eq (rule : operator.Types sorts (.bits width)) (native : operator.IsNative)
    {widths : List (Option Nat)} (known : WidthsOf widths sorts) :
    operator.width? widths = some width.bits := by
  cases rule with
  | complement | negate =>
      rcases exists_one known with ⟨found, rfl, here⟩
      exact here width rfl
  | bitwise | ring | divide | shift =>
      rcases exists_two known with ⟨found, other, rfl, here, -⟩
      exact here width rfl
  | rotate => exact native.elim
  | concat left right _ sum =>
      rcases exists_two known with ⟨found, other, rfl, here, there⟩
      simp [width?, here left rfl, there right rfl, sum]
  | extract high low operand _ ordered inside count =>
      rcases exists_one known with ⟨found, rfl, -⟩
      simp only [width?, count]
      congr 1
      omega
  | extend reading extra operand _ sum =>
      rcases exists_one known with ⟨found, rfl, here⟩
      simp [width?, here operand rfl, sum]
  | replicate count operand _ several product =>
      rcases exists_one known with ⟨found, rfl, here⟩
      simp [width?, here operand rfl, product]
  | ite =>
      rcases exists_three known with ⟨condition, found, other, rfl, -, here, -⟩
      exact here width rfl

/-- Whatever is known before is known after, and is the same. -/
abbrev Kept (before after : List (Option Nat)) : Prop :=
  List.Forall₂ (fun old new => ∀ width, old = some width → new = some width) before after

theorem length_of_width? {widths : List (Option Nat)} {bits : Nat}
    (known : operator.width? widths = some bits) : widths.length = operator.arity := by
  unfold width? at known
  split at known
  all_goals first | rfl | cases known

theorem width?_mono {before after : List (Option Nat)} (kept : Kept before after) {bits : Nat}
    (known : operator.width? before = some bits) : operator.width? after = some bits := by
  have count := length_of_width? known
  cases operator with
  | complement | negate =>
      rcases List.length_eq_one_iff.mp count with ⟨width, rfl⟩
      rcases kept with _ | ⟨here, ⟨⟩⟩
      exact here bits known
  | bitwise | ring | divide | shift =>
      rcases List.length_eq_two.mp count with ⟨width, other, rfl⟩
      rcases kept with _ | ⟨here, _ | ⟨-, ⟨⟩⟩⟩
      exact here bits known
  | concat =>
      rcases List.length_eq_two.mp count with ⟨left?, right?, rfl⟩
      rcases kept with _ | ⟨here, _ | ⟨there, ⟨⟩⟩⟩
      rcases Option.bind_eq_some_iff.mp known with ⟨left, isLeft, rest⟩
      rcases Option.bind_eq_some_iff.mp rest with ⟨right, isRight, sum⟩
      simpa [width?, here left isLeft, there right isRight] using sum
  | extract high low =>
      rcases List.length_eq_one_iff.mp count with ⟨width, rfl⟩
      rcases kept with _ | ⟨-, ⟨⟩⟩
      exact known
  | extend | replicate =>
      rcases List.length_eq_one_iff.mp count with ⟨width, rfl⟩
      rcases kept with _ | ⟨here, ⟨⟩⟩
      rcases Option.map_eq_some_iff.mp known with ⟨operand, isOperand, result⟩
      simpa [width?, here operand isOperand] using result
  | ite =>
      rcases List.length_eq_three.mp count with ⟨condition, width, other, rfl⟩
      rcases kept with _ | ⟨-, _ | ⟨here, _ | ⟨-, ⟨⟩⟩⟩⟩
      exact here bits known
  | _ => simp [width?] at known

end Operator

/-! ## S-expressions -/

namespace SExpr

mutual

/-- The width of an s-expression that stands for a bit-vector. -/
def width? (declared : String → Option Nat) : SExpr → Option Nat
  | .symbol text =>
    match symbolLiteral? text with
    | some (.bits width _) => some width
    | _ => declared (Symbol.unquoted text)
  | .string _ => none
  | .list [] => none
  | .list (head :: operands) =>
    match head.function? with
    | some (.native operator) => operator.width? (widths? declared operands)
    | _ => none

def widths? (declared : String → Option Nat) : List SExpr → List (Option Nat)
  | [] => []
  | first :: rest => first.width? declared :: widths? declared rest

end

variable {declared before after : String → Option Nat} {text : String} {expr : SExpr}

theorem widths?_eq (exprs : List SExpr) :
    widths? declared exprs = exprs.map (width? declared) := by
  induction exprs with
  | nil => rfl
  | cons first rest induction => rw [widths?, induction, List.map_cons]

theorem width?_of_symbolLiteral? {width pattern : Nat}
    (spelled : symbolLiteral? text = some (.bits width pattern)) :
    width? declared (.symbol text) = some width := by
  simp only [width?, spelled]

/-- A variable that is named like a truth value has the width it was declared with, too. -/
theorem width?_text (declared : String → Option Nat) (name : String) :
    width? declared (.symbol (Symbol.text name)) = declared name := by
  rw [width?, Symbol.unquoted_text]
  by_cases isTruth : ∃ truth, name = Numeral.boolText truth
  · rcases isTruth with ⟨truth, rfl⟩
    cases truth <;> rfl
  · rw [symbolLiteral?_text (fun same => isTruth ⟨true, same⟩) fun same => isTruth ⟨false, same⟩]

/-- The width that a literal spells is its only one. -/
theorem eq_width_of_literal? {width other pattern : Nat}
    (spelled : expr.literal? = some (.bits other pattern))
    (known : expr.width? declared = some width) : other = width := by
  cases literal?_eq_some_iff.mp spelled with
  | bits read =>
      rw [width?_of_symbolLiteral? spelled] at known
      exact Option.some.inj known
  | indexed => cases known

theorem width?_list (operator : Operator) {head : SExpr}
    (named : head.function? = some (.native operator)) (operands : List SExpr) :
    width? declared (.list (head :: operands)) =
      operator.width? (operands.map (width? declared)) := by
  simp only [width?, named, widths?_eq]

mutual

theorem width?_mono (grows : ∀ name width, before name = some width → after name = some width)
    (expr : SExpr) (width : Nat) (known : expr.width? before = some width) :
    expr.width? after = some width := by
  cases expr with
  | symbol text =>
      cases spelled : symbolLiteral? text with
      | none =>
          simp only [width?, spelled] at known ⊢
          exact grows _ _ known
      | some literal =>
          simp only [width?, spelled] at known ⊢
          cases literal with
          | bits => exact known
          | bool | int => exact grows _ _ known
  | string raw => cases known
  | list items =>
      cases items with
      | nil => cases known
      | cons head operands =>
          cases named : head.function? with
          | none =>
              simp only [width?, named] at known
              cases known
          | some function =>
              simp only [width?, named] at known ⊢
              cases function with
              | native operator => exact Operator.width?_mono (widths?_mono grows operands) known
              | _ => cases known

theorem widths?_mono (grows : ∀ name width, before name = some width → after name = some width)
    (exprs : List SExpr) :
    List.Forall₂ (fun old new => ∀ width, old = some width → new = some width)
      (widths? before exprs) (widths? after exprs) := by
  cases exprs with
  | nil => exact .nil
  | cons first rest => exact .cons (width?_mono grows first) (widths?_mono grows rest)

end

/-- The s-expression is a list that applies something. -/
def IsCall (expr : SExpr) : Prop :=
  ∃ head operands, expr = .list (head :: operands) ∧ head ≠ .symbol "_" ∧ head ≠ .symbol "-"

theorem IsCall.literal? (isCall : expr.IsCall) : expr.literal? = none := by
  rcases isCall with ⟨head, operands, rfl, notIndexed, notNegative⟩
  exact literal?_of_head notIndexed notNegative operands

end SExpr

end BitTerms
