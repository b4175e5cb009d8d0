import Std.Data.TreeSet
import BitTerms.Literal
import BitTerms.Operator.Typing
import BitTerms.Solver
import BitTerms.TermTable

/-!
# Contexts

A context owns an engine and every expression built with it, and keeps account of the widths of
bit-vectors that were asked for. Expressions of different contexts cannot be combined. A
`Workspace` holds several contexts; a step on one of them leaves the others as they are.
-/

namespace BitTerms

/-- An expression: a term of a context's engine with its sort. -/
structure Expr where
  owner : Nat
  sort : SmtSort
  term : Nat
deriving DecidableEq

def Expr.ofKind (kind : SortKind) (expr : Expr) : Except Error Expr :=
  if expr.sort.kind = kind then .ok expr else .error (.wrongKind kind expr.sort)

/-- An engine with the expressions built in it. -/
structure Context (σ : Type) where
  id : Nat
  engine : σ
  /-- The widths of the bit-vector sorts that were asked for. -/
  widths : Std.TreeSet Nat := {}
deriving Inhabited

namespace Context

variable {σ α : Type}

/-! ## Sorts -/

def onEngine (action : Action σ α) : Action (Context σ) α :=
  fun ⟨id, engine, widths⟩ =>
    match action engine with
    | .ok result engine => .ok result ⟨id, engine, widths⟩
    | .error error engine => .error error ⟨id, engine, widths⟩

def register : SmtSort → Action (Context σ) Unit
  | .bits width =>
    modify fun context => { context with widths := context.widths.insert width.bits }
  | .bool | .int => return ()

def bitsSort (bits : Nat) : Action (Context σ) Width := do
  let width ← Width.ofNat bits
  register (.bits width)
  return width

def widthList (context : Context σ) : List Nat := context.widths.toList

/-! ## Expressions -/

variable [Engine σ]

def wrap (sort : SmtSort) (term : Nat) : Action (Context σ) Expr := do
  return { owner := (← get).id, sort, term }

def declare (name : String) (sort : SmtSort) : Action (Context σ) Expr := do
  register sort
  let term ← onEngine (Engine.declare name sort)
  wrap sort term

def declareBits (name : String) (bits : Nat) : Action (Context σ) Expr := do
  let width ← bitsSort bits
  declare name (.bits width)

def boolLiteral (value : Bool) : Action (Context σ) Expr := do
  let term ← onEngine (Engine.boolLiteral value)
  wrap .bool term

/-- The literal of an integer, reduced modulo the number of patterns of the width. -/
def bitsLiteral (value : Int) (bits : Nat) : Action (Context σ) Expr := do
  let width ← bitsSort bits
  let term ← onEngine (Engine.bitsLiteral width (Pattern.ofInt width.bits value))
  wrap (.bits width) term

/-- The literal of a number that is not negative, without the bits beyond the width. -/
def naturalLiteral (value bits : Nat) : Action (Context σ) Expr := do
  let width ← bitsSort bits
  let term ← onEngine (Engine.bitsLiteral width (Pattern.truncate width.bits value))
  wrap (.bits width) term

def wordLiteral (value : UInt64) (bits : Nat) : Action (Context σ) Expr :=
  naturalLiteral value.toNat bits

def signedWordLiteral (value : Int64) (bits : Nat) : Action (Context σ) Expr :=
  bitsLiteral value.toInt bits

def checkOwners (operands : List Expr) : Action (Context σ) Unit := do
  let id := (← get).id
  if operands.all (·.owner = id) then
    return ()
  else
    throw .foreignExpression

def apply (operator : Operator) (operands : List Expr) : Action (Context σ) Expr := do
  checkOwners operands
  let sort ← operator.resultSort (operands.map Expr.sort)
  register sort
  let term ← onEngine (Engine.apply operator (operands.map Expr.term) sort)
  wrap sort term

def simplify (expr : Expr) : Action (Context σ) Expr := do
  checkOwners [expr]
  let term ← onEngine (Engine.simplify expr.term)
  wrap expr.sort term

def literal? (context : Context σ) (expr : Expr) : Option Value :=
  Engine.literal? context.engine expr.term

def text (context : Context σ) (expr : Expr) : String := Engine.text context.engine expr.term

def sortedText (context : Context σ) (expr : Expr) : String :=
  context.text expr ++ " : " ++ expr.sort.text

/-! ## Questions to a solver -/

def push : Action (Context Solver) Unit := onEngine Solver.push

def pop : Action (Context Solver) Unit := onEngine Solver.pop

def assert (condition : Expr) : Action (Context Solver) Unit := do
  checkOwners [condition]
  onEngine (Solver.assert condition.term)

def check : Action (Context Solver) Response := onEngine Solver.check

/-- The literal that an expression stands for in the model found last. -/
def modelValue (expr : Expr) : Action (Context Solver) Expr := do
  checkOwners [expr]
  let term ← onEngine (Solver.modelValue expr.term expr.sort)
  wrap expr.sort term

end Context

/-! ## Workspaces -/

/-- Several contexts, each under its position. -/
structure Workspace (σ : Type) where
  contexts : Array (Context σ)

namespace Workspace

variable {σ α : Type}

def ofEngines (engines : List σ) : Workspace σ where
  contexts := (engines.mapIdx fun id engine => { id, engine }).toArray

/-- A step of one context. The context leaves its place while the step works on it, so that only
one reference to it is around. -/
def onContext [Inhabited σ] (id : Nat) (action : Action (Context σ) α) : Action (Workspace σ) α :=
  fun ⟨contexts⟩ =>
    if _inRange : id < contexts.size then
      let (context, contexts) := contexts.swapAt id default
      match action context with
      | .ok result context => .ok result ⟨contexts.setIfInBounds id context⟩
      | .error error context => .error error ⟨contexts.setIfInBounds id context⟩
    else
      .error .unknownContext ⟨contexts⟩

end Workspace

end BitTerms
