import BitTerms.Error

/-!
# Machine words

What a program does where a number leaves the machine word that is to hold it, and where something
does not hold that it asserts. Both depend on how the program was built.
-/

namespace BitTerms

inductive Build where
  /-- A step is given up where a number leaves its word or an assertion fails. -/
  | checked
  /-- A word keeps what it can hold of a number, and nothing is asserted. -/
  | unchecked
deriving DecidableEq, Inhabited

def Build.assert (build : Build) (holds : Bool) : Except Error Unit :=
  if build = .checked ∧ !holds then .error .failedAssertion else .ok ()

namespace Word

/-- The word for a number. -/
def ofInt (build : Build) (number : Int) : Except Error Nat :=
  if 0 ≤ number ∧ number < wordLimit then
    .ok number.toNat
  else
    match build with
    | .checked => .error .wordOverflow
    | .unchecked => .ok (number % wordLimit).toNat

def sub (build : Build) (left right : Nat) : Except Error Nat := ofInt build (left - right)

def mul (build : Build) (left right : Nat) : Except Error Nat := ofInt build (left * right)

end Word

end BitTerms
