import BitTerms.Proofs.Solver.Agreement
import BitTerms.Proofs.Solver.Dialogues
import BitTerms.Proofs.TermTable.Room

/-!
# The same session over a term table and with a solver

The same calls made of a context over a term table and of a context with a solver that acknowledges
every command: each of them comes to the same on both sides, and whatever expression it makes has
one value, evaluated as a term or read as an s-expression.
-/

namespace BitTerms.Solver

theorem follows_start (folding : Bool) {preset : Preset} {peer : Option Peer} {build : Build}
    {solver : Solver} (started : start preset peer build = .ok solver) :
    Follows { folding } solver := by
  rcases eq_of_start started with ⟨channel, rfl, -⟩
  exact
    { valid := TermTable.valid_empty folding
      shared := Dag.wellFormed_empty
      sorts := by simp
      declared := by simp
      widths := by simp }

/-- Every expression that a session makes has one value on both sides, for every assignment of
values to the variables: the value of the term in the table is that of the s-expression at the
solver. The calls name no variable like a truth value, and ask for the overflow of a product only
at widths below `2 ^ 31`; none of them finds the table full. -/
theorem lowering_keeps_values (tableId solverId : Nat) (folding : Bool) {preset : Preset}
    {peer : Option Peer} {build : Build} {solver : Solver}
    (started : start preset peer build = .ok solver) (calls : List Call)
    (lowerable : (Session.start tableId ({ folding } : TermTable)).Asks Request.Lowerable calls)
    (hadRoom : TermTable.HadRoom ((Session.start tableId ({ folding } : TermTable)).run calls))
    (acknowledged : ∀ fault : SolverFault,
      .failed (.solver fault) ∉ ((Session.start solverId solver).run calls).outcomes) :
    let left := (Session.start tableId ({ folding } : TermTable)).run calls
    let right := (Session.start solverId solver).run calls
    List.Forall₂
      (Outcome.Matches fun leftExpr rightExpr =>
        leftExpr.sort = rightExpr.sort ∧
          ∀ assignment, left.context.engine.Respects assignment →
            ∃ value, value.HasSort leftExpr.sort ∧
              left.context.engine.value? assignment leftExpr.term = some value ∧
              right.context.engine.value? assignment rightExpr.term = some value)
      left.outcomes right.outcomes := by
  intro left right
  have matched : left.Matches Follows Same right := by
    refine (Session.matches_start tableId solverId (follows_start folding started)).run simulates
      lowerable hadRoom.noExcuse ?_
    rintro error ⟨fault, rfl⟩
    exact acknowledged fault
  refine matched.outcomes.imp fun leftOutcome rightOutcome pair => ?_
  refine pair.imp fun leftExpr rightExpr twins => ⟨twins.sort, fun assignment respects => ?_⟩
  rcases twins.term.exists_value matched.engines respects with ⟨value, found, foundLeft, hasSort⟩
  exact ⟨value, hasSort, foundLeft, found⟩

/-- The calls for a byte, and for whether its negation leaves the range. -/
def negationCalls : List Call := [.declareBits "x" 8, .apply .negationOverflows [.made 0]]

theorem lowerable_negationCalls :
    (Session.start 0 ({} : TermTable)).Asks Request.Lowerable negationCalls := by
  have eight : Width.ofNat 8 = .ok .byte := rfl
  refine ⟨fun request sort asks => ?_, fun request sort asks => ?_, trivial⟩
  · simp only [Call.plan, Plan.ofWidth, eight, Ending.ask.injEq] at asks
    rcases asks with ⟨rfl, rfl⟩
    exact ⟨by decide, by decide⟩
  · simp only [Call.plan] at asks
    split at asks
    · cases asks
    · split at asks
      · split at asks <;> cases asks
        trivial
      · cases asks

theorem exists_negationCalls :
    ∃ term, ((Session.start 1 (opened .z3 [])).run negationCalls).outcomes =
      [.made ⟨1, .bits .byte, 0⟩, .made ⟨1, .bool, term⟩] := by
  rcases Session.exists_declared_byte 1 (show Peer.takeReply "declare-const" [] = _ from rfl) with
    ⟨next, called, own, recorded, -⟩
  have typed : Operator.negationOverflows.resultSort [.bits .byte] = .ok .bool := rfl
  have found : next.engine.widthOf 0 = .ok 8 := by simp [widthOf, recorded, Width.byte]
  have drafted : next.engine.draft .negationOverflows [0] .bool = .ok (.isLeast 8 7 (.term 0)) :=
    Operator.lower_eq_ok_iff.mpr (.negationOverflows found (Word.sub_of_le (by decide) (by decide)))
  rcases apply_of_draft drafted with ⟨widths, applied, -⟩
  refine ⟨((Draft.isLeast 8 7 (.term 0)).share next.engine.terms).1, ?_⟩
  simp only [negationCalls, Session.run, List.foldl_cons, List.foldl_nil, called]
  simp [Session.call_eq, Call.plan, Session.expr?, own, typed, Session.follow, Ending.follow,
    Request.run, Engine.apply, applied]

theorem lowering_keeps_values_negation :
    let left := (Session.start 0 ({} : TermTable)).run negationCalls
    let right := (Session.start 1 (opened .z3 [])).run negationCalls
    (Session.start 0 ({} : TermTable)).Asks Request.Lowerable negationCalls ∧
      TermTable.HadRoom left ∧ (∀ fault : SolverFault, .failed (.solver fault) ∉ right.outcomes) ∧
      ∃ leftExpr rightExpr, left.outcomes[1]? = some (.made leftExpr) ∧
        right.outcomes[1]? = some (.made rightExpr) ∧
        ∀ assignment, left.context.engine.Respects assignment →
          ∃ value, left.context.engine.value? assignment leftExpr.term = some value ∧
            right.context.engine.value? assignment rightExpr.term = some value := by
  intro left right
  rcases exists_negationCalls with ⟨term, outcomes⟩
  have acknowledged : ∀ fault : SolverFault, .failed (.solver fault) ∉ right.outcomes := by
    simp [right, outcomes]
  have hadRoom : TermTable.HadRoom left :=
    (TermTable.hadRoom_of_length 0 false (by simp [negationCalls]) (by decide)).1
  refine ⟨lowerable_negationCalls, hadRoom, acknowledged, ?_⟩
  have matched := lowering_keeps_values 0 1 false (start_opened .z3 rfl) negationCalls
    lowerable_negationCalls hadRoom acknowledged
  have pair := rel_getElem? matched 1
  have second : right.outcomes[1]? = some (.made ⟨1, .bool, term⟩) :=
    congrArg (·[1]?) outcomes
  rw [second] at pair
  cases found : left.outcomes[1]? with
  | none =>
      rw [found] at pair
      cases pair
  | some outcome =>
      rw [found] at pair
      cases pair with
      | some values =>
          cases outcome with
          | made leftExpr =>
              refine ⟨leftExpr, _, rfl, second, fun assignment respects => ?_⟩
              rcases values.2 assignment respects with ⟨value, -, both⟩
              exact ⟨value, both⟩
          | done | answered | failed | skipped => cases values

end BitTerms.Solver
