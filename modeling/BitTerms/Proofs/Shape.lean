import BitTerms.Proofs.SExpr.Numerals
import BitTerms.Proofs.SExpr.Reading
import BitTerms.Proofs.Solver.Transcription

/-!
# What texts of terms say

A shape is what the text of a term says about it: names, literals, and operators with their
operands, but not the sorts of the variables. The text is defined by recursion. Read as an
s-expression, it gives the shape back, if no variable in it is named like a truth value.
-/

namespace BitTerms

/-! ## Shapes and their texts -/

inductive Shape where
  | variable (name : String)
  | literal (value : Value)
  | apply (operator : Operator) (operands : List Shape)
deriving Inhabited

namespace Value

def text : Value → String
  | .bits width pattern => Numeral.bitsText width pattern
  | .bool value => Numeral.boolText value
  | .int value => Numeral.intText value

def expr : Value → SExpr
  | .bits width pattern => .symbol (Numeral.bitsText width pattern)
  | .bool value => .symbol (Numeral.boolText value)
  | .int value =>
    if value < 0 then
      .list [.symbol "-", .symbol (toString value.natAbs)]
    else
      .symbol (toString value.natAbs)

end Value

namespace Shape

mutual

/-- The text of a shape: an operator stands in front of its operands, with single spaces between
them and parentheses around them. -/
def text : Shape → String
  | .variable name => Symbol.text name
  | .literal value => value.text
  | .apply operator operands =>
    "(" ++ " ".intercalate (operator.text :: texts operands) ++ ")"

def texts : List Shape → List String
  | [] => []
  | first :: rest => first.text :: texts rest

end

mutual

def expr : Shape → SExpr
  | .variable name => .symbol (Symbol.text name)
  | .literal value => value.expr
  | .apply operator operands => .list (operator.expr :: exprs operands)

def exprs : List Shape → List SExpr
  | [] => []
  | first :: rest => first.expr :: exprs rest

end

theorem texts_eq (shapes : List Shape) : texts shapes = shapes.map text := by
  induction shapes with
  | nil => rfl
  | cons first rest induction => rw [texts, induction, List.map_cons]

theorem exprs_eq (shapes : List Shape) : exprs shapes = shapes.map expr := by
  induction shapes with
  | nil => rfl
  | cons first rest induction => rw [exprs, induction, List.map_cons]

/-- Its text says of the shape what it is. -/
inductive Legible : Shape → Prop
  | variable {name : String} (spellable : Symbol.isSpellable name = true)
      (notTrue : name ≠ "true") (notFalse : name ≠ "false") : Legible (.variable name)
  | literal {value : Value} {sort : SmtSort} (hasSort : value.HasSort sort) :
      Legible (.literal value)
  | apply {operator : Operator} {operands : List Shape}
      (each : ∀ operand ∈ operands, operand.Legible) : Legible (.apply operator operands)

end Shape

/-! ## Literals -/

namespace Value

variable {value : Value} {sort : SmtSort}

theorem text_expr (value : Value) : value.expr.text = value.text := by
  cases value with
  | bits | bool => rfl
  | int value =>
      simp only [expr, text, Numeral.intText]
      split
      · refine String.toList_inj.mp ?_
        simp [SExpr.text, SExpr.texts_eq]
      · rfl

theorem isWritten_expr (value : Value) : value.expr.IsWritten := by
  cases value with
  | bits width pattern => exact .symbol (SExpr.isWord_bitsText width pattern)
  | bool value =>
      have simple : Symbol.isSimple (Numeral.boolText value) = true := by
        cases value <;> decide +kernel
      exact .symbol (SExpr.isWord_of_simple simple)
  | int value =>
      have magnitude : (SExpr.symbol (toString value.natAbs)).IsWritten :=
        .symbol (SExpr.isWord_toString value.natAbs)
      have minus : (SExpr.symbol "-").IsWritten :=
        .symbol (SExpr.isWord_of_simple (by decide +kernel))
      rw [expr]
      split
      · exact .list (List.forall_mem_cons.mpr ⟨minus, List.forall_mem_singleton.mpr magnitude⟩)
      · exact magnitude

theorem literal?_expr (hasSort : value.HasSort sort) : value.expr.literal? = some value := by
  cases value with
  | bits width pattern =>
      cases sort with
      | bits sortWidth =>
          rcases hasSort with ⟨rfl, fits⟩
          exact SExpr.symbolLiteral?_bitsText sortWidth.pos sortWidth.lt_wordLimit fits
      | bool | int => exact hasSort.elim
  | bool value => exact SExpr.symbolLiteral?_boolText value
  | int value =>
      rw [expr]
      split
      case isTrue negative =>
          have denotes := SExpr.Denotes.negative (Text.decimal?_toString value.natAbs)
          rw [Int.ofNat_natAbs_of_nonpos (by omega), Int.neg_neg] at denotes
          exact SExpr.literal?_eq_some_iff.mpr denotes
      case isFalse natural =>
          rw [SExpr.literal?, SExpr.symbolLiteral?_toString, Int.natAbs_of_nonneg (by omega)]

end Value

/-! ## Operators -/

namespace Operator

/-- The operators that have these indices. -/
def withIndices (indices : List Nat) : List Operator :=
  Function.natives indices ++
    match indices with
    | [] =>
      [.quotientOverflows, .negationOverflows] ++
        [.left, .right].map .rotate ++
        [.unsigned, .signed].map .toInt ++
        [.add, .sub, .mul].map (.overflows · .unsigned) ++
        [.add, .sub, .mul].map (.overflows · .signed)
    | _ => []

def named? (name : String) (indices : List Nat) : Option Operator :=
  (withIndices indices).find? (·.name = name)

/-- Different operators have different names or different indices. -/
theorem named?_name (operator : Operator) :
    named? operator.name operator.indices = some operator := by
  cases operator with
  | bitwise operation | ring operation | divide operation | shift operation
  | connective operation => cases operation <;> rfl
  | rotate direction => cases direction <;> rfl
  | compare relation reading => cases relation <;> cases reading <;> rfl
  | overflows operation reading => cases operation <;> cases reading <;> rfl
  | extend reading | toInt reading => cases reading <;> rfl
  | quotientOverflows | negationOverflows | complement | negate | concat | extract | replicate
  | equal | ite | not => rfl

/-- The operator that stands in front of its operands. -/
def ofExpr? : SExpr → Option Operator
  | .symbol name => named? name []
  | .list (.symbol "_" :: .symbol name :: indices) => do named? name (← indices.mapM SExpr.index?)
  | _ => none

theorem ofExpr?_expr (operator : Operator) : ofExpr? operator.expr = some operator := by
  have named := operator.named?_name
  unfold expr
  generalize operator.indices = indices at named ⊢
  cases indices with
  | nil => exact named
  | cons first rest =>
      simp only [ofExpr?, Draft.mapM_index?]
      exact named

theorem isSimple_name (operator : Operator) : Symbol.isSimple operator.name = true := by
  cases operator with
  | bitwise operation | ring operation | divide operation | shift operation
  | connective operation => cases operation <;> decide +kernel
  | rotate direction => cases direction <;> decide +kernel
  | compare relation reading => cases relation <;> cases reading <;> decide +kernel
  | overflows operation reading => cases operation <;> cases reading <;> decide +kernel
  | toInt reading => cases reading <;> decide +kernel
  | extend reading => cases reading <;> simp only [name] <;> decide +kernel
  | extract | replicate =>
      simp only [name]
      decide +kernel
  | quotientOverflows | negationOverflows | complement | negate | concat | equal | ite | not =>
      decide +kernel

theorem isWritten_expr (operator : Operator) : operator.expr.IsWritten := by
  have name : (SExpr.symbol operator.name).IsWritten :=
    .symbol (SExpr.isWord_of_simple operator.isSimple_name)
  have mark : (SExpr.symbol "_").IsWritten :=
    .symbol (SExpr.isWord_of_simple (by decide +kernel))
  unfold expr
  cases operator.indices with
  | nil => exact name
  | cons first rest =>
      refine .list fun item member => ?_
      simp only [List.mem_cons, List.mem_map] at member
      rcases member with rfl | rfl | ⟨index, -, rfl⟩
      · exact mark
      · exact name
      · exact .symbol (SExpr.isWord_toString index)

/-- No operator is written like the mark of a numeral. -/
theorem expr_unmarked (operator : Operator) :
    operator.expr ≠ .symbol "_" ∧ operator.expr ≠ .symbol "-" := by
  have unmarked (mark : String) (unnamed : ofExpr? (.symbol mark) = none) :
      operator.expr ≠ .symbol mark := by
    intro same
    have named := operator.ofExpr?_expr
    rw [same, unnamed] at named
    cases named
  exact ⟨unmarked "_" rfl, unmarked "-" rfl⟩

theorem literal?_list (operator : Operator) (operands : List SExpr) :
    (SExpr.list (operator.expr :: operands)).literal? = none :=
  SExpr.literal?_of_head operator.expr_unmarked.1 operator.expr_unmarked.2 operands

end Operator

/-! ## Reading texts -/

namespace Shape

mutual

def ofExpr? : SExpr → Option Shape
  | .symbol text =>
    match SExpr.symbolLiteral? text with
    | some value => some (.literal value)
    | none => some (.variable (Symbol.unquoted text))
  | .string _ => none
  | .list [] => none
  | .list (head :: operands) =>
    match (SExpr.list (head :: operands)).literal? with
    | some value => some (.literal value)
    | none => do return .apply (← Operator.ofExpr? head) (← ofExprs? operands)

def ofExprs? : List SExpr → Option (List Shape)
  | [] => some []
  | first :: rest => do return (← ofExpr? first) :: (← ofExprs? rest)

end

/-- What the text says, read as an s-expression. -/
def read? (text : String) : Option Shape := (SExpr.read [text]).1.bind ofExpr?

theorem ofExprs?_eq (exprs : List SExpr) : ofExprs? exprs = exprs.mapM ofExpr? := by
  induction exprs with
  | nil => rfl
  | cons first rest induction => rw [ofExprs?, List.mapM_cons, induction]

theorem ofExpr?_of_literal? {expr : SExpr} {value : Value} (spelled : expr.literal? = some value) :
    ofExpr? expr = some (.literal value) := by
  cases expr with
  | symbol text =>
      rw [SExpr.literal?] at spelled
      rw [ofExpr?, spelled]
  | string raw => cases spelled
  | list items =>
      cases items with
      | nil => cases spelled
      | cons head operands => rw [ofExpr?, spelled]

variable {shape : Shape}

theorem Legible.text_expr (legible : shape.Legible) : shape.expr.text = shape.text := by
  induction legible with
  | «variable» => rfl
  | literal => exact Value.text_expr _
  | @apply operator operands each induction =>
      have operandTexts : (operands.map expr).map SExpr.text = operands.map text := by
        rw [List.map_map]
        exact List.map_congr_left induction
      rw [expr, text, exprs_eq, texts_eq, SExpr.text, SExpr.texts_eq, List.map_cons,
        operator.text_expr, operandTexts]

theorem Legible.isWritten_expr (legible : shape.Legible) : shape.expr.IsWritten := by
  induction legible with
  | «variable» spellable => exact .symbol (SExpr.isWord_text spellable)
  | literal => exact Value.isWritten_expr _
  | @apply operator operands each induction =>
      rw [expr, exprs_eq]
      refine .list (List.forall_mem_cons.mpr ⟨operator.isWritten_expr, ?_⟩)
      simpa using induction

theorem Legible.ofExpr?_expr (legible : shape.Legible) : ofExpr? shape.expr = some shape := by
  induction legible with
  | «variable» spellable notTrue notFalse =>
      rw [expr, ofExpr?, SExpr.symbolLiteral?_text notTrue notFalse, Symbol.unquoted_text]
  | literal hasSort => exact ofExpr?_of_literal? (Value.literal?_expr hasSort)
  | @apply operator operands each induction =>
      have operandShapes : (operands.map expr).mapM ofExpr? = some operands := by
        rw [mapM_eq_some_iff, List.forall₂_map_left_iff, List.forall₂_same]
        exact induction
      simp only [expr, exprs_eq, ofExpr?, operator.literal?_list, operator.ofExpr?_expr,
        ofExprs?_eq, operandShapes]
      rfl

/-- The text of a shape is read as this shape. -/
theorem Legible.read?_text (legible : shape.Legible) : read? shape.text = some shape := by
  rw [read?, ← legible.text_expr, legible.isWritten_expr.read_text]
  exact legible.ofExpr?_expr

end Shape

end BitTerms
