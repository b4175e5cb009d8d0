import BitTerms.Numbers

/-!
# Sorts

The three kinds of sort an expression can have: truth values, integers, and bit-vectors of a
fixed width. A width is positive and fits one 32-bit word, and both facts are part of its type.
-/

namespace BitTerms

/-- Widths and operator indices are below this bound: each is one 32-bit word. -/
def wordLimit : Nat := 0x100000000

/-! ## Widths -/

structure Width where
  bits : Nat
  pos : 0 < bits
  lt_wordLimit : bits < wordLimit

namespace Width

theorem ext {left right : Width} (equal : left.bits = right.bits) : left = right := by
  cases left; cases right; cases equal; rfl

instance : DecidableEq Width := fun left right =>
  if equal : left.bits = right.bits then
    .isTrue (ext equal)
  else
    .isFalse fun same => equal (congrArg bits same)

instance : Hashable Width := ⟨fun width => hash width.bits⟩

instance : Inhabited Width := ⟨⟨1, by decide, by decide⟩⟩

def ofNat? (bits : Nat) : Option Width :=
  if inRange : 0 < bits ∧ bits < wordLimit then
    some ⟨bits, inRange.1, inRange.2⟩
  else
    none

theorem ofNat?_bits (width : Width) : ofNat? width.bits = some width := by
  simp [ofNat?, width.pos, width.lt_wordLimit]

end Width

/-! ## Sorts -/

inductive SmtSort where
  | bool
  | int
  | bits (width : Width)
deriving DecidableEq, Hashable, Inhabited

inductive SortKind where
  | bool
  | int
  | bits
deriving DecidableEq

namespace SmtSort

def kind : SmtSort → SortKind
  | .bool => .bool
  | .int => .int
  | .bits _ => .bits

def width? : SmtSort → Option Width
  | .bits width => some width
  | _ => none

def text : SmtSort → String
  | .bool => "Bool"
  | .int => "Int"
  | .bits width => "(_ BitVec " ++ toString width.bits ++ ")"

end SmtSort

def SortKind.text : SortKind → String
  | .bool => "Bool"
  | .int => "Int"
  | .bits => "bit-vector"

end BitTerms
