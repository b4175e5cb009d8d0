import BitTerms.Numbers

/-!
# Reading bit patterns as numbers

A bit-vector value is a bit pattern, given by the natural number it spells. The same pattern is
read as a number in two ways: unsigned, as that natural number, or in two's complement, where the
top bit counts negatively. Widths here are plain numbers, so that the arithmetic can be reasoned
about without the bounds a sort puts on them.
-/

namespace BitTerms

namespace Pattern

def ones (width : Nat) : Nat := 2 ^ width - 1

def truncate (width value : Nat) : Nat := value % 2 ^ width

/-- The number of binary digits that a number is written with. -/
def bitLength (value : Nat) : Nat := if value = 0 then 0 else value.log2 + 1

theorem bitLength_le_iff {width value : Nat} : bitLength value ≤ width ↔ value < 2 ^ width := by
  unfold bitLength
  split
  case isTrue zero => exact iff_of_true (Nat.zero_le width) (zero ▸ Nat.two_pow_pos width)
  case isFalse nonzero => rw [Nat.succ_le_iff, Nat.log2_lt nonzero]

theorem lt_bitLength_iff {width value : Nat} : width < bitLength value ↔ 2 ^ width ≤ value := by
  rw [← Nat.not_le, bitLength_le_iff, Nat.not_lt]

/-- The pattern that stands for an integer in two's complement: the integer reduced modulo
`2 ^ width`. Division is towards zero, so the remainder is made positive on the way. -/
def ofInt (width : Nat) (value : Int) : Nat :=
  let modulus : Int := (2 ^ width : Nat)
  ((value.tmod modulus + modulus).tmod modulus).natAbs

theorem ofInt_eq_emod (width : Nat) (value : Int) :
    ofInt width value = (value % (2 ^ width : Nat)).toNat := by
  have positive := Nat.two_pow_pos width
  simp only [ofInt]
  generalize 2 ^ width = modulus at positive
  have above : 0 ≤ value.tmod modulus + modulus := by
    have bound := Int.lt_tmod_of_pos value (b := modulus) (by omega)
    omega
  have congruent : (value.tmod modulus + modulus) % modulus = value % modulus := by
    rw [Int.add_emod_right, Int.tmod_eq_emod]
    split <;> simp
  rw [Int.tmod_eq_emod_of_nonneg above, congruent]
  have natural := Int.emod_nonneg value (b := modulus) (by omega)
  omega

/-- The top bit of a pattern, which is the sign in two's complement. -/
def sign (width value : Nat) : Bool := value.testBit (width - 1)

def signed (width value : Nat) : Int :=
  if sign width value then (value : Int) - (2 ^ width : Nat) else value

end Pattern

/-- The two ways to read a bit pattern as a number. -/
inductive Reading where
  | unsigned
  | signed
deriving DecidableEq, Hashable

namespace Reading

def read (width value : Nat) : Reading → Int
  | .unsigned => value
  | .signed => Pattern.signed width value

/-- The smallest number that `width` bits can stand for. -/
def least (width : Nat) : Reading → Int
  | .unsigned => 0
  | .signed => -(2 ^ (width - 1) : Nat)

/-- The first number above all those that `width` bits can stand for. -/
def bound (width : Nat) : Reading → Int
  | .unsigned => (2 ^ width : Nat)
  | .signed => (2 ^ (width - 1) : Nat)

def Fits (width : Nat) (reading : Reading) (value : Int) : Prop :=
  reading.least width ≤ value ∧ value < reading.bound width

instance (width : Nat) (reading : Reading) (value : Int) :
    Decidable (reading.Fits width value) :=
  inferInstanceAs (Decidable (_ ∧ _))

end Reading

end BitTerms
