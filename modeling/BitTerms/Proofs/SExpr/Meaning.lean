import BitTerms.Proofs.Operator.Soundness
import BitTerms.Proofs.Pointwise
import BitTerms.Proofs.SExpr.Literals

/-!
# What s-expressions mean

The value of an s-expression under an assignment, as the theories of bit-vectors, integers and
truth values read it: a literal spells its value, any other symbol names a variable, and a list
applies the function named by its head. The functions are the operators that SMT-LIB has under
their own names, `bv2nat`, which reads a pattern unsigned, and `-`, which subtracts integers.
-/

namespace BitTerms

/-! ## Functions -/

/-- What the head of a list stands for. -/
inductive Function where
  | native (operator : Operator)
  /-- The difference of two integers. -/
  | difference
deriving DecidableEq

namespace Function

/-- The operators that SMT-LIB has under their own names, by their indices. -/
def natives : List Nat → List Operator
  | [] =>
    [.complement, .negate, .concat, .equal, .ite, .not] ++
      [.and, .or, .xor, .nand, .nor, .xnor].map .bitwise ++
      [.add, .sub, .mul].map .ring ++
      [.unsignedQuotient, .unsignedRemainder, .signedQuotient, .signedRemainder,
        .signedModulus].map .divide ++
      [.left, .logicalRight, .arithmeticRight].map .shift ++
      [.less, .lessEqual, .greaterEqual, .greater].map (.compare · .unsigned) ++
      [.less, .lessEqual, .greaterEqual, .greater].map (.compare · .signed) ++
      [.and, .or, .xor, .implies].map .connective
  | [index] => [.extend .unsigned index, .extend .signed index, .replicate index]
  | [high, low] => [.extract high low]
  | _ => []

def named (name : String) (indices : List Nat) : Option Function :=
  match name, indices with
  | "bv2nat", [] => some (.native (.toInt .unsigned))
  | "-", [] => some .difference
  | _, _ => ((natives indices).find? (·.name = name)).map .native

def value? : Function → List Value → Option Value
  | .native operator, operands => (operator.evaluate operands).toOption
  | .difference, [.int left, .int right] => some (.int (left - right))
  | .difference, _ => none

theorem named_ring (operation : RingOp) :
    named (Operator.ring operation).name [] = some (.native (.ring operation)) := by
  cases operation <;> rfl

theorem named_extend (reading : Reading) (extra : Nat) :
    named (Operator.extend reading extra).name [extra] =
      some (.native (.extend reading extra)) := by
  cases reading <;> rfl

end Function

/-! ## Values -/

/-- The name of the variable that a symbol stands for: what is between the bars, if there are
any. -/
def Symbol.unquoted (text : String) : String :=
  match text.toList with
  | '|' :: rest => String.ofList rest.dropLast
  | _ => text

theorem Symbol.unquoted_text (name : String) : unquoted (text name) = name := by
  cases simple : isSimple name with
  | true =>
      rcases exists_start_of_simple simple with ⟨first, rest, chars, start, -⟩
      have noBar : first ≠ '|' := by
        rintro rfl
        revert start
        decide
      rw [text_of_simple simple]
      simp [unquoted, chars, noBar]
  | false =>
      have chars := toList_text_of_not_simple simple
      unfold unquoted
      rw [chars]
      simp [String.ofList_toList]

namespace SExpr

def index? : SExpr → Option Nat
  | .symbol text => Text.decimal? text.toList
  | .string _ | .list _ => none

def function? : SExpr → Option Function
  | .symbol name => Function.named name []
  | .list (.symbol "_" :: .symbol name :: indices) => do Function.named name (← indices.mapM index?)
  | _ => none

mutual

/-- The value of an s-expression, if all functions in it have one. -/
def value? (assignment : Assignment) : SExpr → Option Value
  | .symbol text => some ((symbolLiteral? text).getD (assignment (Symbol.unquoted text)))
  | .string _ => none
  | .list [] => none
  | .list (head :: operands) => do
    let function ← head.function?
    function.value? (← values? assignment operands)

def values? (assignment : Assignment) : List SExpr → Option (List Value)
  | [] => some []
  | first :: rest => do return (← value? assignment first) :: (← values? assignment rest)

end

variable {assignment : Assignment}

theorem values?_eq (exprs : List SExpr) :
    values? assignment exprs = exprs.mapM (value? assignment) := by
  induction exprs with
  | nil => rfl
  | cons first rest induction => rw [values?, List.mapM_cons, induction]

theorem values?_eq_some_iff {exprs : List SExpr} {values : List Value} :
    values? assignment exprs = some values ↔
      List.Forall₂ (fun expr value => value? assignment expr = some value) exprs values := by
  rw [values?_eq, mapM_eq_some_iff]

theorem value?_of_symbolLiteral? {text : String} {value : Value}
    (literal : symbolLiteral? text = some value) :
    value? assignment (.symbol text) = some value := by
  simp [value?, literal]

theorem value?_text {name : String} (notTrue : name ≠ "true") (notFalse : name ≠ "false") :
    value? assignment (.symbol (Symbol.text name)) = some (assignment name) := by
  simp [value?, symbolLiteral?_text notTrue notFalse, Symbol.unquoted_text]

theorem value?_list {head : SExpr} {function : Function} {operands : List SExpr}
    {values : List Value} {value : Value} (named : head.function? = some function)
    (found : List.Forall₂ (fun operand value => value? assignment operand = some value)
      operands values) (applied : function.value? values = some value) :
    value? assignment (.list (head :: operands)) = some value := by
  simp only [value?, named, values?_eq_some_iff.mpr found]
  exact applied

/-- A literal that has a value has the value that it spells. -/
theorem eq_of_literal? {expr : SExpr} {literal value : Value}
    (spelled : expr.literal? = some literal) (found : value? assignment expr = some value) :
    value = literal := by
  cases literal?_eq_some_iff.mp spelled with
  | bits | number | truth =>
      rw [value?_of_symbolLiteral? spelled] at found
      exact (Option.some.inj found).symm
  | indexed =>
      have unnamed : function? (.symbol "_") = none := rfl
      simp [value?, unnamed] at found
  | negative =>
      have named : function? (.symbol "-") = some .difference := rfl
      simp [value?, values?, named, Function.value?] at found

end SExpr

end BitTerms
