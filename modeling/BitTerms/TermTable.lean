import BitTerms.Dag.BottomUp
import BitTerms.Dag.Text
import BitTerms.Engine
import BitTerms.Numeral
import BitTerms.Operator.Evaluation
import BitTerms.Operator.Typing
import BitTerms.Symbol

/-!
# Term tables

The engine that keeps its terms in memory. Equal terms are one term. It evaluates applications to
literals, either as they are built or when asked to simplify a term, and it decides nothing about
terms with variables.
-/

namespace BitTerms

/-! ## Terms -/

/-- What a term is at its root. -/
inductive Head where
  | variable (name : String)
  | bits (pattern : Nat)
  | bool (value : Bool)
  | int (value : Int)
  | apply (operator : Operator)
deriving DecidableEq, Hashable

structure TermLabel where
  head : Head
  sort : SmtSort
deriving DecidableEq, Hashable

namespace TermLabel

def literal? (label : TermLabel) : Option Value :=
  match label.head with
  | .bits pattern => label.sort.width?.map fun width => .bits width.bits pattern
  | .bool value => some (.bool value)
  | .int value => some (.int value)
  | .variable _ | .apply _ => none

def spelling (label : TermLabel) : Spelling :=
  match label.head with
  | .variable name => .word (Symbol.text name)
  | .bits pattern =>
    .word (Numeral.bitsText ((label.sort.width?.map Width.bits).getD 1) pattern)
  | .bool value => .word (Numeral.boolText value)
  | .int value => .word (Numeral.intText value)
  | .apply operator => .group operator.text

def ofValue : Value → Except Error TermLabel
  | .bits width pattern => do return ⟨.bits pattern, .bits (← Width.ofNat width)⟩
  | .bool value => return ⟨.bool value, .bool⟩
  | .int value => return ⟨.int value, .int⟩

end TermLabel

structure TermTable where
  /-- Whether applications are evaluated as they are built. -/
  folding : Bool := false
  terms : Dag TermLabel := {}
  sorts : Std.HashMap String SmtSort := {}

instance : Inhabited TermTable := ⟨{}⟩

namespace TermTable

/-! ## Looking at terms -/

def literal? (table : TermTable) (term : Nat) : Option Value :=
  (table.terms.label? term).bind TermLabel.literal?

def text (table : TermTable) (term : Nat) : String :=
  table.terms.text TermLabel.spelling term

def sort? (table : TermTable) (term : Nat) : Option SmtSort :=
  (table.terms.label? term).map TermLabel.sort

/-! ## Building terms -/

/-- The node is there already, or there is a position left that fits into a machine word. -/
def hasRoom (terms : Dag TermLabel) (node : Dag.Node TermLabel) : Bool :=
  terms.size < wordLimit || terms.contains node

def intern (label : TermLabel) (operands : List Nat := []) : Action TermTable Nat :=
  fun ⟨folding, terms, sorts⟩ =>
    if hasRoom terms ⟨label, operands⟩ then
      let (term, terms) := terms.intern ⟨label, operands⟩
      .ok term ⟨folding, terms, sorts⟩
    else
      .error .tableFull ⟨folding, terms, sorts⟩

/-- Gives the variable its sort, unless it has another one already. -/
def record (name : String) (sort : SmtSort) : Action TermTable Unit := do
  match (← get).sorts[name]? with
  | some existing =>
    if existing = sort then
      return ()
    else
      throw (.redeclared name existing sort)
  | none =>
    modify fun table => { table with sorts := table.sorts.insert name sort }

def declare (name : String) (sort : SmtSort) : Action TermTable Nat := do
  if !Symbol.isSpellable name then
    throw (.unspellable name)
  record name sort
  intern ⟨.variable name, sort⟩

def bitsLiteral (width : Width) (pattern : Nat) : Action TermTable Nat := do
  checkNumeral width pattern
  intern ⟨.bits pattern, .bits width⟩

def boolLiteral (value : Bool) : Action TermTable Nat :=
  intern ⟨.bool value, .bool⟩

/-- The branch that a choice comes to, if its condition is known. -/
def chosen? (table : TermTable) (operator : Operator) (operands : List Nat) : Option Nat :=
  match operator, operands with
  | .ite, condition :: branches =>
    match table.literal? condition with
    | some (.bool true) => branches[0]?
    | some (.bool false) => branches[1]?
    | _ => none
  | _, _ => none

/-- The application, evaluated if all its operands are literals. A choice between two terms whose
condition is a literal is the chosen term. -/
def fold (operator : Operator) (operands : List Nat) (sort : SmtSort) : Action TermTable Nat := do
  let table ← get
  match operands.mapM table.literal? with
  | some values => do
    let label ← TermLabel.ofValue (← operator.evaluate values)
    intern label
  | none =>
    match table.chosen? operator operands with
    | some branch => return branch
    | none => intern ⟨.apply operator, sort⟩ operands

def apply (operator : Operator) (operands : List Nat) (sort : SmtSort) :
    Action TermTable Nat := do
  if (← get).folding then
    fold operator operands sort
  else
    intern ⟨.apply operator, sort⟩ operands

/-! ## Simplification -/

/-- Simplifies a term whose operands are `operands` by now. -/
def simplifyNode (term : Nat) (label : TermLabel) (operands : List Nat) : Action TermTable Nat :=
  match label.head with
  | .apply operator => fold operator operands label.sort
  | _ => return term

/-- The term with every part evaluated that has no variables, and every choice made whose
condition is known then. -/
def simplify (term : Nat) : Action TermTable Nat := do
  let table ← get
  let simplified ← table.terms.bottomUp simplifyNode term
  return simplified.getD term

instance : Engine TermTable where
  declare := declare
  bitsLiteral := bitsLiteral
  boolLiteral := boolLiteral
  apply := apply
  simplify := simplify
  literal? := literal?
  text := text

end TermTable

end BitTerms
