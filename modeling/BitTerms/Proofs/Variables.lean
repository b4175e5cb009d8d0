import BitTerms.Proofs.Solver.Leaves
import BitTerms.Proofs.Solver.Scopes
import BitTerms.Proofs.TermTable.Requests

/-!
# Variables are no literals

A variable has no value of its own: it is not read as a literal, and its term is that of no literal
and of no other variable. In a term table this always holds. At a solver a term is nothing but its
text, and there it holds for every variable that is not named like a truth value.
-/

namespace BitTerms

variable {σ ι : Type}

namespace Context

/-- However the expression is read, it is not read as a literal. -/
structure IsSymbolic [Engine σ] (context : Context σ) (expr : Expr) : Prop where
  numeral : Literal.isNumeral (context.literal? expr) = false
  truth : (context.literal? expr).bind Value.bool? = none
  number : (context.literal? expr).bind Value.int? = none
  unsigned : Literal.unsigned? (context.literal? expr) = none
  signed : ∀ width, Literal.signed? width (context.literal? expr) = none
  word : Literal.word (context.literal? expr) = .notLiteral
  signedWord : ∀ width, Literal.signedWord width (context.literal? expr) = .notLiteral
  intWord : Literal.intWord (context.literal? expr) = .notLiteral

theorem isSymbolic_of_none [Engine σ] {context : Context σ} {expr : Expr}
    (unread : context.literal? expr = none) : context.IsSymbolic expr := by
  constructor <;> rw [unread] <;> intros <;> rfl

end Context

namespace Session

/-- The expression of the variable is read as no literal, and it is another term than every
literal and every variable of another name that the session has made. -/
structure Apart [Engine σ] (session : Session σ) (asks? : ι → Option TermLabel) (steps : List ι)
    (name : String) (expr : Expr) : Prop where
  symbolic : session.context.IsSymbolic expr
  literal : ∀ step label other, session.CameTo steps step (.made other) →
    asks? step = some label → label.literal?.isSome → other.term ≠ expr.term
  read : ∀ other, .made other ∈ session.outcomes → (session.context.literal? other).isSome →
    other.term ≠ expr.term
  named : ∀ step otherName sort other, session.CameTo steps step (.made other) →
    asks? step = some ⟨.variable otherName, sort⟩ → otherName ≠ name → other.term ≠ expr.term

theorem apart_of_recalls [Engine σ] {inv : σ → Prop} {leaf : σ → Nat → TermLabel → Prop}
    {legible : TermLabel → Prop} (leaves : Engine.HasLeaves inv leaf legible)
    {session : Session σ} {excused : σ → Error → Prop} {asks? : ι → Option TermLabel}
    {steps : List ι} (recalls : session.Recalls leaf excused asks? steps)
    (legibleLiteral : ∀ {step : ι} {label : TermLabel} {value : Value},
      asks? step = some label → label.literal? = some value → legible label)
    {step : ι} {name : String} {sort : SmtSort} {expr : Expr}
    (asked : asks? step = some ⟨.variable name, sort⟩)
    (legibleVariable : legible ⟨.variable name, sort⟩)
    (came : session.CameTo steps step (.made expr)) : session.Apart asks? steps name expr := by
  have here := (recalls.shows came asked).2
  have unread : session.context.literal? expr = none := leaves.literal here legibleVariable
  have read (other : Expr) (literal : (session.context.literal? other).isSome) :
      other.term ≠ expr.term := by
    intro same
    have alike : session.context.literal? other = session.context.literal? expr :=
      congrArg (Engine.literal? session.context.engine) same
    rw [alike, unread] at literal
    cases literal
  refine ⟨Context.isSymbolic_of_none unread, ?_, fun other _ => read other, ?_⟩
  · intro step label other cameToo askedToo isLiteral
    rcases Option.isSome_iff_exists.mp isLiteral with ⟨value, literal⟩
    have there := (recalls.shows cameToo askedToo).2
    have found : session.context.literal? other = some value :=
      (leaves.literal there (legibleLiteral askedToo literal)).trans literal
    exact read other (by simp [found])
  · intro step otherName otherSort other cameToo askedToo different same
    have there := (recalls.shows cameToo askedToo).2
    have text := leaves.text here rfl
    have otherText := leaves.text there rfl
    rw [same, text] at otherText
    exact different (Symbol.text_injective otherText).symm

/-! ## At a solver -/

variable {id : Nat} {preset : Preset} {peer : Option Peer} {build : Build} {solver : Solver}
  {turns : List Turn}

/-- A variable that is named like a truth value is that literal, once it is built. -/
theorem not_apart_of_truth (started : Solver.start preset peer build = .ok solver) (truth : Bool)
    {turn : Turn} {sort : SmtSort} {expr : Expr}
    (asked : turn.leaf? = some ⟨.variable (Numeral.boolText truth), sort⟩)
    (came : ((start id solver).converse turns).CameTo turns turn (.made expr)) :
    ¬ ((start id solver).converse (turns ++ [.build (.boolLiteral truth)])).Apart Turn.leaf?
      (turns ++ [.build (.boolLiteral truth)]) (Numeral.boolText truth) expr := by
  intro apart
  have recalls := recalls_converse id started (turns ++ [.build (.boolLiteral truth)])
  have holds := (holds_started id started).converse (turns ++ [.build (.boolLiteral truth)])
  have here := (recalls.shows (came.converse started _) asked).2
  rcases exists_outcome_turn started turns (.build (.boolLiteral truth)) with ⟨outcome, outcomes⟩
  have cameLast := cameTo_last (Turn.build (.boolLiteral truth))
    (recalls_converse id started turns).length_eq outcomes
  have asks : (Turn.build (.boolLiteral truth)).leaf? = some ⟨.bool truth, .bool⟩ := rfl
  have shown := recalls.shows cameLast asks
  cases outcome with
  | made other =>
      refine apart.literal _ _ other cameLast asks rfl ?_
      refine shown.2.eq_of_spelling holds.engine.shared here (congrArg Spelling.word ?_)
      cases truth <;> decide +kernel
  | failed error =>
      rcases shown with ⟨⟨⟩⟩ | impossible
      exact impossible
  | done | answered | skipped => exact shown.elim

/-- In every session over a term table a variable is no literal, whatever its name is. In every
dialogue with a solver it is none, then and whatever is done later, exactly if it is not named like
a truth value. -/
theorem variable_apart (id : Nat) {call : Call} {name : String} {sort : SmtSort}
    (declares : call.leaf? = some ⟨.variable name, sort⟩) :
    (∀ (folding : Bool) (calls : List Call) (expr : Expr),
      let session := (start id ({ folding } : TermTable)).run calls
      session.CameTo calls call (.made expr) → session.Apart Call.leaf? calls name expr) ∧
    ∀ {preset : Preset} {peer : Option Peer} {build : Build} {solver : Solver},
      Solver.start preset peer build = .ok solver → ∀ (turns : List Turn) (expr : Expr),
        ((start id solver).converse turns).CameTo turns (.build call) (.made expr) →
          ((∀ more, ((start id solver).converse (turns ++ more)).Apart Turn.leaf? (turns ++ more)
            name expr) ↔ name ≠ "true" ∧ name ≠ "false") := by
  constructor
  · intro folding calls expr session came
    exact apart_of_recalls TermTable.hasLeaves (TermTable.recalls_run id folding calls)
      (fun _ _ => trivial) declares trivial came
  · intro preset peer build solver started turns expr came
    have asked : (Turn.build call).leaf? = some ⟨.variable name, sort⟩ := declares
    constructor
    · intro apart
      constructor
      · rintro rfl
        exact not_apart_of_truth started true asked came (apart _)
      · rintro rfl
        exact not_apart_of_truth started false asked came (apart _)
    · rintro ⟨notTrue, notFalse⟩ more
      exact apart_of_recalls Solver.hasLeaves (recalls_converse id started (turns ++ more))
        Turn.legible_of_leaf? asked (TermLabel.legible_variable notTrue notFalse sort)
        (came.converse started more)

/-- A dialogue that declares one variable with a truth value. -/
def withTruth (name : String) : Session Solver :=
  (start 0 (Solver.opened .z3 [])).converse [.build (.declare name .bool)]

theorem outcomes_withTruth {name : String} (spellable : Symbol.isSpellable name = true) :
    (withTruth name).outcomes = [.made ⟨0, .bool, 0⟩] := by
  have told (log : Array Command) :=
    Channel.acknowledge_quiet (.declare (Symbol.text name) .bool) log rfl
  have called : withTruth name =
      (start 0 (Solver.opened .z3 [])).call (.declare name .bool) := rfl
  simp [called, start, call_eq, Call.plan, follow, Ending.follow, Request.run, Engine.declare,
    Solver.declare_of_undeclared, spellable, Solver.opened, told, Dag.intern]

theorem variable_apart_x :
    let calls : List Call := [.declare "x" .bool]
    let turns : List Turn := [.build (.declare "x" .bool)]
    let session := (start 0 ({} : TermTable)).run calls
    session.CameTo calls (.declare "x" .bool) (.made ⟨0, .bool, 0⟩) ∧
      session.Apart Call.leaf? calls "x" ⟨0, .bool, 0⟩ ∧
      (withTruth "x").CameTo turns (.build (.declare "x" .bool)) (.made ⟨0, .bool, 0⟩) ∧
      ∀ more, ((start 0 (Solver.opened .z3 [])).converse (turns ++ more)).Apart Turn.leaf?
        (turns ++ more) "x" ⟨0, .bool, 0⟩ := by
  intro calls turns session
  have spellable : Symbol.isSpellable "x" = true := by decide +kernel
  have outcomes : session.outcomes = [.made ⟨0, .bool, 0⟩] := by
    simp [session, calls, run, start, call_eq, Call.plan, follow, Ending.follow, Request.run,
      Engine.declare, TermTable.declare_of_spellable, spellable, TermTable.record_of_undeclared,
      TermTable.intern_apply, TermTable.hasRoom, wordLimit, Dag.size, Dag.intern]
  have came : session.CameTo calls (.declare "x" .bool) (.made ⟨0, .bool, 0⟩) := by
    rw [CameTo, outcomes]
    exact List.mem_cons_self
  have cameToo : (withTruth "x").CameTo turns (.build (.declare "x" .bool))
      (.made ⟨0, .bool, 0⟩) := by
    rw [CameTo, outcomes_withTruth spellable]
    exact List.mem_cons_self
  have declares : (Call.declare "x" .bool).leaf? = some ⟨.variable "x", .bool⟩ := rfl
  have apart := variable_apart 0 declares
  have started : Solver.start .z3 (some {}) = .ok (Solver.opened .z3 []) :=
    Solver.start_opened .z3 rfl
  exact ⟨came, apart.1 false calls _ came, cameToo,
    (apart.2 started turns _ cameToo).mpr ⟨by decide, by decide⟩⟩

/-- At a solver, a variable named `true` is read as the truth value. -/
theorem not_apart_of_true :
    let turns : List Turn := [.build (.declare "true" .bool)]
    (withTruth "true").CameTo turns (.build (.declare "true" .bool)) (.made ⟨0, .bool, 0⟩) ∧
      ((withTruth "true").context.literal? ⟨0, .bool, 0⟩).bind Value.bool? = some true ∧
      ¬ (withTruth "true").Apart Turn.leaf? turns "true" ⟨0, .bool, 0⟩ := by
  intro turns
  have came : (withTruth "true").CameTo turns (.build (.declare "true" .bool))
      (.made ⟨0, .bool, 0⟩) := by
    rw [CameTo, outcomes_withTruth (by decide +kernel)]
    exact List.mem_cons_self
  have started : Solver.start .z3 (some {}) = .ok (Solver.opened .z3 []) :=
    Solver.start_opened .z3 rfl
  have recalls := recalls_converse 0 started turns
  have asked : (Turn.build (.declare "true" .bool)).leaf? = some ⟨.variable "true", .bool⟩ := rfl
  rcases (recalls.shows came asked).2 with ⟨word, spelled, found⟩
  have read : ((withTruth "true").context.literal? ⟨0, .bool, 0⟩).bind Value.bool? =
      some true := by
    cases spelled
    have literal : (withTruth "true").context.literal? ⟨0, .bool, 0⟩ =
        SExpr.symbolLiteral? (Symbol.text "true") := Solver.literal?_of_symbol found
    rw [literal]
    decide +kernel
  refine ⟨came, read, fun apart => ?_⟩
  rw [apart.symbolic.truth] at read
  cases read

end Session

end BitTerms
