import BitTerms.Context
import BitTerms.Proofs.Failures
import BitTerms.Proofs.Narrowing
import BitTerms.Proofs.Operator.Arithmetic
import BitTerms.Proofs.Operator.Division
import BitTerms.Proofs.Operator.Shifts
import BitTerms.Proofs.Operator.Signatures
import BitTerms.Proofs.Operator.Structure
import BitTerms.Proofs.Solver.Exactness
import BitTerms.Proofs.Solver.Mirroring
import BitTerms.Proofs.Solver.Reports
import BitTerms.Proofs.Solver.Scopes
import BitTerms.Proofs.Solver.Sessions
import BitTerms.Proofs.Solver.Widths
import BitTerms.Proofs.TermTable.Applications
import BitTerms.Proofs.TermTable.NormalForms
import BitTerms.Proofs.TermTable.Recursion
import BitTerms.Proofs.TermTable.Representation
import BitTerms.Proofs.TermTable.Texts
import BitTerms.Proofs.Variables
import BitTerms.Proofs.Workspace
