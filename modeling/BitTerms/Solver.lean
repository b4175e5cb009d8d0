import BitTerms.Solver.Channel
import BitTerms.Solver.Lowering
import BitTerms.Solver.Preset
import BitTerms.Symbol

/-!
# Solver sessions

The engine that keeps its terms as shared s-expressions and talks to a solver. Variables are
declared at the solver when they are first used; what is declared stays known for the whole
session.
-/

namespace BitTerms

/-- A session with a solver. -/
structure Solver where
  build : Build := .unchecked
  channel : Channel := {}
  /-- The number of levels that the commands for assertion levels name. -/
  levels : Option Nat := none
  terms : Dag SExpr.Label := {}
  declared : Std.HashMap String (SmtSort × Nat) := {}
  /-- The widths of declared and applied bit-vector terms. A literal spells its own width. -/
  widths : Std.HashMap Nat Width := {}

instance : Inhabited Solver := ⟨{}⟩

namespace Solver

variable {α : Type}

/-! ## Parts of the state -/

def onChannel (action : Action Channel α) : Action Solver α :=
  fun ⟨build, channel, levels, terms, declared, widths⟩ =>
    match action channel with
    | .ok result channel => .ok result ⟨build, channel, levels, terms, declared, widths⟩
    | .error error channel => .error error ⟨build, channel, levels, terms, declared, widths⟩

def onTerms (change : Dag SExpr.Label → α × Dag SExpr.Label) : Action Solver α :=
  fun ⟨build, channel, levels, terms, declared, widths⟩ =>
    let (result, terms) := change terms
    .ok result ⟨build, channel, levels, terms, declared, widths⟩

def recordWidth (term : Nat) : SmtSort → Action Solver Unit
  | .bits width => modify fun solver => { solver with widths := solver.widths.insert term width }
  | .bool | .int => return ()

def recordDeclared (name : String) (sort : SmtSort) (term : Nat) : Action Solver Unit :=
  modify fun solver => { solver with declared := solver.declared.insert name (sort, term) }

/-! ## Looking at terms -/

def literal? (solver : Solver) (term : Nat) : Option Value :=
  SExpr.literal? (SExpr.outline solver.terms term)

def text (solver : Solver) (term : Nat) : String := solver.terms.text SExpr.Label.spelling term

def widthOf (solver : Solver) (term : Nat) : Except Error Nat :=
  match solver.widths[term]? with
  | some width => .ok width.bits
  | none =>
    match solver.literal? term with
    | some (.bits width _) => .ok width
    | _ => .error (.unknownWidth (solver.text term))

/-! ## Building terms -/

def symbol (text : String) : Action Solver Nat := onTerms (·.intern ⟨.symbol text, []⟩)

/-- The variable of this name and sort, declared at the solver unless it is already. -/
def declare (name : String) (sort : SmtSort) : Action Solver Nat := do
  if !Symbol.isSpellable name then
    throw (.unspellable name)
  match (← get).declared[name]? with
  | some (existing, term) =>
    if existing = sort then
      return term
    else
      throw (.redeclared name existing sort)
  | none =>
    let term ← symbol (Symbol.text name)
    onChannel (Channel.acknowledge (.declare (Symbol.text name) sort))
    recordDeclared name sort term
    recordWidth term sort
    return term

def bitsLiteral (width : Width) (pattern : Nat) : Action Solver Nat := do
  checkNumeral width pattern
  symbol (Numeral.bitsText width.bits pattern)

def boolLiteral (value : Bool) : Action Solver Nat := symbol (Numeral.boolText value)

def widthOfResult (operator : Operator) (result : SmtSort) : Except Error Nat :=
  match result.width? with
  | some width => .ok width.bits
  | none => .error (.resultNotBits operator)

def draft (solver : Solver) (operator : Operator) (operands : List Nat) (result : SmtSort) :
    Except Error Draft :=
  operator.lower solver.build (operands.map .term) (fun _ => widthOfResult operator result)
    (fun _ => solver.widthOf (operands.headD 0))

def apply (operator : Operator) (operands : List Nat) (result : SmtSort) : Action Solver Nat := do
  let term ← onTerms ((← (← get).draft operator operands result).share)
  match (← get).literal? term with
  | some (.bits _ _) => return term
  | _ => do
    recordWidth term result
    return term

/-- There is nothing to simplify here. -/
def simplify (term : Nat) : Action Solver Nat := return term

instance : Engine Solver where
  declare := declare
  bitsLiteral := bitsLiteral
  boolLiteral := boolLiteral
  apply := apply
  simplify := simplify
  literal? := literal?
  text := text

/-! ## Questions -/

def push : Action Solver Unit := do onChannel (Channel.acknowledge (.push (← get).levels))

def pop : Action Solver Unit := do onChannel (Channel.acknowledge (.pop (← get).levels))

def assert (term : Nat) : Action Solver Unit := do
  onChannel (Channel.acknowledge (.assert ((← get).text term)))

def check : Action Solver Response := onChannel Channel.check

def modelValue (term : Nat) (sort : SmtSort) : Action Solver Nat := do
  let value ← onChannel (Channel.value ((← get).text term))
  match value.literal? with
  | some literal =>
    if literal.kind = sort.kind then
      onTerms value.share
    else
      throw (.notLiteral value.text)
  | none => throw (.notLiteral value.text)

/-! ## Starting -/

/-- Starts a session. There is no solver to talk to if its program or the file for the commands is
missing. -/
def start (preset : Preset) (peer : Option Peer) (build : Build := .unchecked) :
    Except Error Solver :=
  match peer with
  | none => .error (.solver .missingFile)
  | some peer =>
    match Channel.greet { peer } with
    | .ok _ channel => .ok { build, channel, levels := preset.levels }
    | .error error _ => .error error

end Solver

end BitTerms
