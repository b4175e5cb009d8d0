import BitTerms.Operator
import BitTerms.Text.Quoted
import BitTerms.Value

/-!
# Errors

Every way a step can fail, as a cause. `Error.report?` gives the text the caller sees.
-/

namespace BitTerms

/-- What can go wrong between this side and the solver. -/
inductive SolverFault where
  | missingFile
  | unreadable
  /-- An answer that the command does not allow, as it was read. -/
  | unexpected (answer : String)
deriving DecidableEq

inductive Error where
  | zeroWidth
  | widthTooLarge
  | operandCount (operator : Operator) (given : Nat)
  | notBits (operator : Operator) (given : SmtSort)
  | widthMismatch (operator : Operator) (left right : Width)
  | notBool (operator : Operator) (given : SmtSort)
  | resultTooWide (operator : Operator)
  | extractReversed (high low : Nat)
  | extractOutOfRange (high : Nat) (width : Width)
  | zeroReplication
  | equalSorts (left right : SmtSort)
  | iteCondition (given : SmtSort)
  | iteBranches (left right : SmtSort)
  | expectedBits (given : Value)
  | expectedBool (given : Value)
  | unspellable (name : String)
  | redeclared (name : String) (existing requested : SmtSort)
  | numeralTooWide (value : Nat) (width : Width)
  /-- There are as many terms as positions fit into a machine word. -/
  | tableFull
  | foreignExpression
  | unknownContext
  | wrongKind (wanted : SortKind) (given : SmtSort)
  | unknownWidth (term : String)
  | resultNotBits (operator : Operator)
  | notLiteral (answer : String)
  | solver (fault : SolverFault)
  /-- The solver answered a question for a value with a list that does not consist of pairs. The
  step is given up without a report. -/
  | malformedModel
  /-- A number left its machine word in a program that checks this, which gives the step up without
  a report. -/
  | wordOverflow
  /-- An assertion failed in a program that checks it, which gives the step up without a report. -/
  | failedAssertion
deriving DecidableEq

namespace SolverFault

def text : SolverFault → String
  | .missingFile => "No such file or directory (os error 2)"
  | .unreadable => "Failed to parse solver output"
  | .unexpected answer => "Unexpected result from solver: " ++ answer

end SolverFault

namespace Error

/-- What the error says to the caller, or nothing where a step is given up without a report. -/
def cause? : Error → Option String
  | .zeroWidth => some "bit-vector sorts must be at least one bit wide"
  | .widthTooLarge => some "bit-vector widths must fit in 32 bits"
  | .operandCount operator given =>
    some <| operator.name ++ " expects " ++ toString operator.arity ++ " operand(s), got "
      ++ toString given
  | .notBits operator given =>
    some <| operator.name ++ " expects bit-vector operands, got " ++ given.text
  | .widthMismatch operator left right =>
    some <| operator.name ++ " operands must have the same width, got " ++ toString left.bits
      ++ " and " ++ toString right.bits ++ " bits"
  | .notBool operator given =>
    some <| operator.name ++ " expects Bool operands, got " ++ given.text
  | .resultTooWide operator => some <| operator.name ++ ": result width overflows u32"
  | .extractReversed high low =>
    some <| "extract: high bit " ++ toString high ++ " is below low bit " ++ toString low
  | .extractOutOfRange high width =>
    some <| "extract: high bit " ++ toString high ++ " out of range for a " ++ toString width.bits
      ++ "-bit operand"
  | .zeroReplication => some "repeat: count must be at least 1"
  | .equalSorts left right =>
    some <| "= operands must have the same sort, got " ++ left.text ++ " and " ++ right.text
  | .iteCondition given => some <| "ite condition must be Bool, got " ++ given.text
  | .iteBranches left right =>
    some <| "ite branches must have the same sort, got " ++ left.text ++ " and " ++ right.text
  | .expectedBits given => some <| "expected a bit-vector value, got " ++ given.describe
  | .expectedBool given => some <| "expected a Bool value, got " ++ given.describe
  | .unspellable name =>
    some <| "symbol " ++ Text.quoted name ++ " cannot be written in SMT-LIB"
  | .redeclared name existing requested =>
    some <| name ++ " is already declared with sort " ++ existing.text ++ ", not "
      ++ requested.text
  | .numeralTooWide value width =>
    some <| "numeral " ++ toString value ++ " does not fit in " ++ toString width.bits ++ " bits"
  | .tableFull => some "term arena is full"
  | .foreignExpression => some "expressions from different contexts cannot be combined"
  | .unknownContext => some "there is no such context"
  | .wrongKind wanted given =>
    some <| "expected a " ++ wanted.text ++ " expression, got sort " ++ given.text
  | .unknownWidth term => some <| "no bit-vector width known for " ++ term
  | .resultNotBits operator => some <| operator.name ++ " must produce a bit-vector"
  | .notLiteral answer => some <| "solver returned a non-literal model value: " ++ answer
  | .solver fault => some <| "solver i/o failure: " ++ fault.text
  | .malformedModel | .wordOverflow | .failedAssertion => none

def report? (error : Error) : Option String :=
  error.cause?.map fun cause => "smt-bv error: " ++ cause

end Error

end BitTerms
