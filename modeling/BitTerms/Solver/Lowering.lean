import BitTerms.SExpr
import BitTerms.Word

/-!
# Lowering

The s-expression that stands for an application at a solver. Most operators have an SMT-LIB name
of their own. Rotations by a bit-vector amount, conversions to integers and the overflow
predicates are written with other operators, at the width of the operands.
-/

namespace BitTerms

/-- An s-expression over terms that are there already. -/
inductive Draft where
  | term (position : Nat)
  | symbol (text : String)
  | list (items : List Draft)

namespace Draft

mutual

def share : Draft → Dag SExpr.Label → Nat × Dag SExpr.Label
  | .term position, terms => (position, terms)
  | .symbol text, terms => terms.intern ⟨.symbol text, []⟩
  | .list items, terms =>
    let (positions, terms) := shareAll items terms
    terms.intern ⟨.list, positions⟩

def shareAll : List Draft → Dag SExpr.Label → List Nat × Dag SExpr.Label
  | [], terms => ([], terms)
  | first :: rest, terms =>
    let (position, terms) := share first terms
    let (positions, terms) := shareAll rest terms
    (position :: positions, terms)

end

/-! ## Spelling -/

def call (name : String) (operands : List Draft) : Draft := .list (.symbol name :: operands)

def callIndexed (name : String) (indices : List Nat) (operands : List Draft) : Draft :=
  .list (.list (.symbol "_" :: .symbol name :: indices.map (.symbol <| toString ·)) :: operands)

def bits (width pattern : Nat) : Draft := .symbol (Numeral.bitsText width pattern)

def number (value : Nat) : Draft := .symbol (toString value)

def equal (left right : Draft) : Draft := call "=" [left, right]

def not (operand : Draft) : Draft := call "not" [operand]

def extract (high low : Nat) (operand : Draft) : Draft :=
  callIndexed "extract" [high, low] [operand]

def bit (index : Nat) (operand : Draft) : Draft := extract index index operand

def extend (reading : Reading) (extra : Nat) (operand : Draft) : Draft :=
  callIndexed (Operator.name (.extend reading extra)) [extra] [operand]

/-- A ring operation on two operands that were widened first. -/
def widened (operation : RingOp) (reading : Reading) (extra : Nat) (left right : Draft) : Draft :=
  call (Operator.name (.ring operation)) [extend reading extra left, extend reading extra right]

/-! ## Operators without a name of their own -/

/-- A rotation: the bits shifted by the distance, joined with those shifted back by what is
missing to the width. -/
def rotate (direction : Rotation) (width : Nat) (value amount : Draft) : Draft :=
  let whole := bits width width
  let distance := call "bvurem" [amount, whole]
  let missing := call "bvsub" [whole, distance]
  match direction with
  | .left => call "bvor" [call "bvshl" [value, distance], call "bvlshr" [value, missing]]
  | .right => call "bvor" [call "bvlshr" [value, distance], call "bvshl" [value, missing]]

/-- The number that a bit-vector stands for. A signed one is less by `2 ^ width` where the sign
is set. -/
def toInt (reading : Reading) (width : Nat) (value : Draft) : Draft :=
  let natural := call "bv2nat" [value]
  match reading with
  | .unsigned => natural
  | .signed =>
    call "ite"
      [call "bvslt" [value, bits width 0], call "-" [natural, number (2 ^ width)], natural]

/-- The position of the top bit of a result that has bits to spare: one bit more than the operands,
or for an unsigned product twice as many. No other predicate computes it. -/
def topPosition (build : Build) (operation : RingOp) (reading : Reading) (width : Nat) :
    Except Error Nat :=
  match operation, reading with
  | .mul, .unsigned => do Word.sub build (← Word.mul build 2 width) 1
  | _, _ => return width

/-- The two top bits of a result with one extra bit differ. -/
def topBitsDiffer (top sign : Nat) (result : Draft) : Draft :=
  not (equal (bit top result) (bit sign result))

/-- Whether a ring operation leaves the range, seen on the result at a width where it cannot. The
positions are those of the operands' sign and of the result's top bit. -/
def overflows (operation : RingOp) (reading : Reading) (width sign top : Nat)
    (left right : Draft) : Draft :=
  match operation, reading with
  | .add, .unsigned => equal (bit top (widened .add .unsigned 1 left right)) (.symbol "#b1")
  | .add, .signed => topBitsDiffer top sign (widened .add .signed 1 left right)
  | .sub, .unsigned => call "bvult" [left, right]
  | .sub, .signed => topBitsDiffer top sign (widened .sub .signed 1 left right)
  | .mul, .unsigned =>
    let product := widened .mul .unsigned width left right
    not (equal (extract top width product) (bits width 0))
  | .mul, .signed =>
    let product := widened .mul .signed width left right
    not (equal product (extend .signed width (extract sign 0 product)))

def isLeast (width sign : Nat) (operand : Draft) : Draft := equal operand (bits width (2 ^ sign))

def quotientOverflows (width sign : Nat) (left right : Draft) : Draft :=
  call "and" [isLeast width sign left, equal right (bits width (2 ^ width - 1))]

def native (operator : Operator) (operands : List Draft) : Draft :=
  match operator.indices with
  | [] => call operator.name operands
  | indices => callIndexed operator.name indices operands

end Draft

/-- The s-expression for an application. The widths of the result and of the first operand are
asked for only where the operator is written with others. Every overflow predicate computes the
position of the sign, even if it is not written with it. -/
def Operator.lower (build : Build) (operator : Operator) (operands : List Draft)
    (resultWidth operandWidth : Unit → Except Error Nat) : Except Error Draft :=
  match operator, operands with
  | .rotate direction, [value, amount] => do
    return Draft.rotate direction (← resultWidth ()) value amount
  | .toInt reading, [value] => do
    return Draft.toInt reading (← operandWidth ()) value
  | .overflows operation reading, [left, right] => do
    let width ← operandWidth ()
    let sign ← Word.sub build width 1
    let top ← Draft.topPosition build operation reading width
    return Draft.overflows operation reading width sign top left right
  | .quotientOverflows, [left, right] => do
    let width ← operandWidth ()
    return Draft.quotientOverflows width (← Word.sub build width 1) left right
  | .negationOverflows, [value] => do
    let width ← operandWidth ()
    return Draft.isLeast width (← Word.sub build width 1) value
  | _, _ =>
    if operands.length = operator.arity then
      .ok (Draft.native operator operands)
    else
      .error (.operandCount operator operands.length)

end BitTerms
