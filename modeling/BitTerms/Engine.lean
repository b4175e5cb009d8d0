import BitTerms.Error

/-!
# Engines

What the expression layer needs from whatever holds its terms: to declare variables, to build
literals and applications, and to say which terms are literals and how a term is written. A term
is a position in a table of the engine's own.
-/

namespace BitTerms

/-- A step that may fail. The state it leaves counts in either case: what was done before a
failure stays done. -/
abbrev Action (σ : Type) := EStateM Error σ

def Action.ofExcept {σ α : Type} : Except Error α → Action σ α
  | .ok result => pure result
  | .error error => throw error

instance {σ : Type} : MonadLift (Except Error) (Action σ) := ⟨Action.ofExcept⟩

class Engine (σ : Type) where
  /-- The variable of this name and sort, introduced at its first use. -/
  declare (name : String) (sort : SmtSort) : Action σ Nat
  bitsLiteral (width : Width) (pattern : Nat) : Action σ Nat
  boolLiteral (value : Bool) : Action σ Nat
  /-- An application. The operands have been checked, and `result` is the sort that the typing
  rules give it. -/
  apply (operator : Operator) (operands : List Nat) (result : SmtSort) : Action σ Nat
  /-- A term of the same meaning that is not larger. -/
  simplify (term : Nat) : Action σ Nat
  /-- What a literal stands for; nothing for every other term. -/
  literal? (state : σ) (term : Nat) : Option Value
  text (state : σ) (term : Nat) : String

def checkNumeral (width : Width) (pattern : Nat) : Except Error Unit :=
  if Pattern.bitLength pattern ≤ width.bits then .ok () else .error (.numeralTooWide pattern width)

theorem checkNumeral_of_fits {width : Width} {pattern : Nat} (fits : pattern < 2 ^ width.bits) :
    checkNumeral width pattern = .ok () :=
  if_pos (Pattern.bitLength_le_iff.mpr fits)

end BitTerms
