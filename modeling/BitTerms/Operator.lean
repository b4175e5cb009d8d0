import BitTerms.Reading

/-!
# Operators

Every operator an expression can apply, with its SMT-LIB name, the number of operands it takes
and the integer indices that are part of its name. Families that share a typing rule and a
meaning are one constructor each.
-/

namespace BitTerms

/-! ## Families -/

inductive Bitwise where
  | and | or | xor | nand | nor | xnor
deriving DecidableEq, Hashable

inductive RingOp where
  | add | sub | mul
deriving DecidableEq, Hashable

/-- Quotients and remainders. The remainder of the signed division takes the sign of the
dividend, the modulus that of the divisor. -/
inductive Division where
  | unsignedQuotient | unsignedRemainder
  | signedQuotient | signedRemainder | signedModulus
deriving DecidableEq, Hashable

inductive Shift where
  | left | logicalRight | arithmeticRight
deriving DecidableEq, Hashable

inductive Rotation where
  | left | right
deriving DecidableEq, Hashable

inductive Comparison where
  | less | lessEqual | greaterEqual | greater
deriving DecidableEq, Hashable

inductive Connective where
  | and | or | xor | implies
deriving DecidableEq, Hashable

/-! ## Operators -/

/-- An operator with its indices. -/
inductive Operator where
  | complement
  | negate
  | bitwise (operation : Bitwise)
  | ring (operation : RingOp)
  | divide (operation : Division)
  | shift (operation : Shift)
  | rotate (direction : Rotation)
  | compare (relation : Comparison) (reading : Reading)
  | overflows (operation : RingOp) (reading : Reading)
  | quotientOverflows
  | negationOverflows
  | concat
  | extract (high low : Nat)
  | extend (reading : Reading) (extra : Nat)
  | replicate (count : Nat)
  | toInt (reading : Reading)
  | equal
  | ite
  | not
  | connective (operation : Connective)
deriving DecidableEq, Hashable

namespace Operator

def name : Operator → String
  | .complement => "bvnot"
  | .negate => "bvneg"
  | .bitwise .and => "bvand"
  | .bitwise .or => "bvor"
  | .bitwise .xor => "bvxor"
  | .bitwise .nand => "bvnand"
  | .bitwise .nor => "bvnor"
  | .bitwise .xnor => "bvxnor"
  | .ring .add => "bvadd"
  | .ring .sub => "bvsub"
  | .ring .mul => "bvmul"
  | .divide .unsignedQuotient => "bvudiv"
  | .divide .unsignedRemainder => "bvurem"
  | .divide .signedQuotient => "bvsdiv"
  | .divide .signedRemainder => "bvsrem"
  | .divide .signedModulus => "bvsmod"
  | .shift .left => "bvshl"
  | .shift .logicalRight => "bvlshr"
  | .shift .arithmeticRight => "bvashr"
  | .rotate .left => "ext_rotate_left"
  | .rotate .right => "ext_rotate_right"
  | .compare .less .unsigned => "bvult"
  | .compare .less .signed => "bvslt"
  | .compare .lessEqual .unsigned => "bvule"
  | .compare .lessEqual .signed => "bvsle"
  | .compare .greaterEqual .unsigned => "bvuge"
  | .compare .greaterEqual .signed => "bvsge"
  | .compare .greater .unsigned => "bvugt"
  | .compare .greater .signed => "bvsgt"
  | .overflows .add .unsigned => "bvuaddo"
  | .overflows .add .signed => "bvsaddo"
  | .overflows .sub .unsigned => "bvusubo"
  | .overflows .sub .signed => "bvssubo"
  | .overflows .mul .unsigned => "bvumulo"
  | .overflows .mul .signed => "bvsmulo"
  | .quotientOverflows => "bvsdivo"
  | .negationOverflows => "bvnego"
  | .concat => "concat"
  | .extract _ _ => "extract"
  | .extend .signed _ => "sign_extend"
  | .extend .unsigned _ => "zero_extend"
  | .replicate _ => "repeat"
  | .toInt .unsigned => "ubv_to_int"
  | .toInt .signed => "sbv_to_int"
  | .equal => "="
  | .ite => "ite"
  | .not => "not"
  | .connective .and => "and"
  | .connective .or => "or"
  | .connective .xor => "xor"
  | .connective .implies => "=>"

def indices : Operator → List Nat
  | .extract high low => [high, low]
  | .extend _ extra => [extra]
  | .replicate count => [count]
  | _ => []

/-- The operator as SMT-LIB writes it in front of its operands. -/
def text (operator : Operator) : String :=
  match operator.indices with
  | [] => operator.name
  | indices =>
    "(_ " ++ operator.name ++ String.join (indices.map fun index => " " ++ toString index) ++ ")"

def arity : Operator → Nat
  | .complement | .negate | .negationOverflows | .extract _ _ | .extend _ _ | .replicate _
  | .toInt _ | .not => 1
  | .ite => 3
  | _ => 2

example : text (.extract 7 0) = "(_ extract 7 0)" := by decide +kernel

example : text (.overflows .mul .signed) = "bvsmulo" := rfl

end Operator

end BitTerms
