import BitTerms.Narrowed
import BitTerms.Word

/-!
# Reading literals

What an expression says about its value: nothing, unless it is a literal. The functions take what
the engine found, and the width of the expression, which is what decides about the sign.
-/

namespace BitTerms.Literal

def isNumeral (literal : Option Value) : Bool := literal.any Value.isNumeral

def unsigned? (literal : Option Value) : Option Nat := literal.bind Value.pattern?

/-- The two's complement reading. -/
def signed? (width : Nat) (literal : Option Value) : Option Int :=
  (unsigned? literal).map (Pattern.signed width)

def word : Option Value → Narrowed UInt64
  | some (.bits _ pattern) => .ofNat pattern
  | some (.int _) => .outOfRange
  | some (.bool _) | none => .notLiteral

def signedWord (width : Nat) (literal : Option Value) : Narrowed Int64 :=
  match word literal with
  | .notLiteral => .notLiteral
  | .value pattern => .ofSigned width (some pattern) fun _ => unsigned? literal
  | .outOfRange => .ofSigned width none fun _ => unsigned? literal

def intWord (literal : Option Value) : Narrowed Int64 :=
  match literal.bind Value.int? with
  | some value => .ofInt value
  | none => .notLiteral

/-! ## Asserted readings -/

end BitTerms.Literal
