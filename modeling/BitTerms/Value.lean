import BitTerms.SmtSort

/-!
# Values

A value is what a ground expression stands for and what a literal spells: a bit pattern with its
width, a truth value or an integer. The width and the pattern are plain numbers, because a literal
read from text can have any of them; `Value.HasSort` says when a value belongs to a sort.
-/

namespace BitTerms

inductive Value where
  | bits (width pattern : Nat)
  | bool (value : Bool)
  | int (value : Int)
deriving DecidableEq, Inhabited

namespace Value

/-- A value belongs to a sort if it is of the sort's kind and, for a bit-vector, has its width
and a pattern of at most that many bits. -/
def HasSort : Value → SmtSort → Prop
  | .bits width pattern, .bits sortWidth => width = sortWidth.bits ∧ pattern < 2 ^ width
  | .bool _, .bool => True
  | .int _, .int => True
  | _, _ => False

instance : (value : Value) → (sort : SmtSort) → Decidable (value.HasSort sort)
  | .bits width pattern, .bits sortWidth =>
    inferInstanceAs (Decidable (width = sortWidth.bits ∧ pattern < 2 ^ width))
  | .bool _, .bool => .isTrue trivial
  | .int _, .int => .isTrue trivial
  | .bits _ _, .bool | .bits _ _, .int => .isFalse id
  | .bool _, .int | .bool _, .bits _ => .isFalse id
  | .int _, .bool | .int _, .bits _ => .isFalse id

def kind : Value → SortKind
  | .bits _ _ => .bits
  | .bool _ => .bool
  | .int _ => .int

def pattern? : Value → Option Nat
  | .bits _ pattern => some pattern
  | _ => none

def bool? : Value → Option Bool
  | .bool value => some value
  | _ => none

def int? : Value → Option Int
  | .int value => some value
  | _ => none

/-- Bit-vector and integer literals are the numerals. -/
def isNumeral : Value → Bool
  | .bits _ _ | .int _ => true
  | .bool _ => false

def describe : Value → String
  | .bits width pattern =>
    "Bv \x7b width: " ++ toString width ++ ", value: " ++ toString pattern ++ " \x7d"
  | .bool true => "Bool(true)"
  | .bool false => "Bool(false)"
  | .int value => "Int(" ++ toString value ++ ")"

end Value

end BitTerms
