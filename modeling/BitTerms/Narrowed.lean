import BitTerms.Reading

/-!
# Narrowing to machine words

A literal of any width, read as a 64-bit number. Most literals are settled by their low 64 bits
alone; `Narrowed.ofSigned` consults the exact numeral only for the others.
-/

namespace BitTerms

/-- A literal read as a number of limited range. -/
inductive Narrowed (α : Type) where
  | notLiteral
  | value (number : α)
  /-- The literal's value is outside the range. -/
  | outOfRange
deriving DecidableEq

namespace Narrowed

def isLiteral {α : Type} : Narrowed α → Bool
  | .notLiteral => false
  | _ => true

def value? {α : Type} : Narrowed α → Option α
  | .value number => some number
  | _ => none

def fits {α : Type} (narrowed : Narrowed α) : Bool := narrowed.value?.isSome

/-- The number, whether there was a literal, and whether its value is in the range. A stand-in
takes the place of a number that is not there. -/
def parts {α : Type} (narrowed : Narrowed α) (standIn : α) : α × Bool × Bool :=
  (narrowed.value?.getD standIn, narrowed.isLiteral, narrowed.fits)

/-- The low `width` bits of a word in two's complement: they are shifted to the top of the word
and back, and the way back copies the sign. -/
def signExtend (width : Nat) (pattern : UInt64) : Int64 :=
  let distance := UInt64.ofNat (64 - width)
  (pattern <<< distance).toInt64 >>> distance.toInt64

/-- The two's complement reading of a pattern, where the low 64 bits are enough to know it: the
width is less than 64, or the pattern is below the sign bit of a word. -/
def settled? (width : Nat) (pattern : Option UInt64) : Option Int64 := do
  let pattern ← pattern
  if width < 64 then
    return signExtend width pattern
  else if pattern < 0x8000000000000000 then
    return pattern.toInt64
  else
    none

def ofInt (number : Int) : Narrowed Int64 :=
  if Int64.minValue.toInt ≤ number ∧ number ≤ Int64.maxValue.toInt then
    .value (Int64.ofInt number)
  else
    .outOfRange

def ofNat (number : Nat) : Narrowed UInt64 :=
  if number < UInt64.size then .value (UInt64.ofNat number) else .outOfRange

/-- The two's complement reading of a literal as a signed word. The pattern is the literal's
unsigned reading, if that fits a word; the exact numeral is consulted where the pattern leaves
the reading open. -/
def ofSigned (width : Nat) (pattern : Option UInt64) (exact : Unit → Option Nat) :
    Narrowed Int64 :=
  match settled? width pattern with
  | some number => .value number
  | none =>
    match exact () with
    | none => .notLiteral
    | some numeral => ofInt (Pattern.signed width numeral)

example : signExtend 4 0b1000 = -8 := by decide

end Narrowed

end BitTerms
