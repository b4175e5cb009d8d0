import BitTerms.Dag.Text
import BitTerms.Numeral
import BitTerms.Text.Quoted
import BitTerms.Value

/-!
# S-expressions

The terms a solver is talked to in: symbols, strings and lists. `SExpr.literal?` recognises the
literals among them. A solver session keeps its s-expressions shared, as a `Dag` over
`SExpr.Label`; `SExpr.outline` is the view of a shared s-expression that is deep enough to
recognise a literal.
-/

namespace BitTerms

inductive SExpr where
  | symbol (text : String)
  /-- What stands between double quotes, as it is written. -/
  | string (raw : String)
  | list (items : List SExpr)
deriving Inhabited

namespace SExpr

/-! ## Literals -/

/-- What a symbol stands for as a literal: a bit pattern, a number that is not negative or a truth
value. -/
def symbolLiteral? (text : String) : Option Value :=
  match Numeral.bits? text.toList with
  | some (width, pattern) => some (.bits width pattern)
  | none =>
    match Text.decimal? text.toList with
    | some number => some (.int number)
    | none =>
      if text = "true" then
        some (.bool true)
      else if text = "false" then
        some (.bool false)
      else
        none

/-- What an s-expression stands for as a literal. Beside the symbols these are the bit patterns
`(_ bvN w)` and the negative numbers `(- n)`. -/
def literal? : SExpr → Option Value
  | .symbol text => symbolLiteral? text
  | .list [.symbol mark, .symbol pattern, .symbol width] =>
    if mark = "_" then do
      let pattern ← Numeral.indexedBits? pattern.toList
      let width ← Text.decimalWord? wordLimit width.toList
      return .bits width pattern
    else
      none
  | .list [.symbol mark, .symbol magnitude] =>
    if mark = "-" then do
      let magnitude ← Text.decimal? magnitude.toList
      return .int (-(magnitude : Int))
    else
      none
  | _ => none

/-! ## Shared s-expressions -/

/-- The root of an s-expression. -/
inductive Label where
  | symbol (text : String)
  | string (raw : String)
  | list
deriving DecidableEq, Hashable

namespace Label

def build : Label → List SExpr → SExpr
  | .symbol text, _ => .symbol text
  | .string raw, _ => .string raw
  | .list, items => .list items

def spelling : Label → Spelling
  | .symbol text => .word text
  | .string raw => .word (Text.quoted raw)
  | .list => .group none

end Label

def ofShared (shared : Dag Label) (position : Nat) : SExpr :=
  shared.fold Label.build position

/-- The s-expression at a position with its lists beyond the second level emptied. -/
def outline (shared : Dag Label) (position : Nat) : SExpr :=
  let shallow (child : Nat) : SExpr :=
    match shared.label? child with
    | some label => label.build []
    | none => default
  match shared.label? position with
  | some label => label.build ((shared.children position).map shallow)
  | none => default

mutual

def text : SExpr → String
  | .symbol text => text
  | .string raw => Text.quoted raw
  | .list items => "(" ++ " ".intercalate (texts items) ++ ")"

def texts : List SExpr → List String
  | [] => []
  | first :: rest => first.text :: texts rest

end

mutual

/-- The position of an s-expression in a table, where it is added with all its parts. -/
def share : SExpr → Dag Label → Nat × Dag Label
  | .symbol text, shared => shared.intern ⟨.symbol text, []⟩
  | .string raw, shared => shared.intern ⟨.string raw, []⟩
  | .list items, shared =>
    let (positions, shared) := shareAll items shared
    shared.intern ⟨.list, positions⟩

def shareAll : List SExpr → Dag Label → List Nat × Dag Label
  | [], shared => ([], shared)
  | first :: rest, shared =>
    let (position, shared) := share first shared
    let (positions, shared) := shareAll rest shared
    (position :: positions, shared)

end

end SExpr

end BitTerms
