import BitTerms.Proofs.Operator.Words
import BitTerms.Proofs.TermTable.Folding

/-!
# Typed applications have values

The typing rules and the evaluation of operators are separate tables. Wherever the first accepts
the operands, the second has a value for them, in the range of the sort and without leaving the
range of machine words on the way. So a table that evaluates its applications never fails for
another reason than the typing of the operands, as long as there is room for one more term, and
simplification never fails for another reason than a full table.
-/

namespace BitTerms

/-! ## Applications of expressions -/

namespace Context

/-- The operands are the context's own, and the typing rules accept their sorts. -/
structure Accepts {σ : Type} (context : Context σ) (operator : Operator) (operands : List Expr) :
    Prop where
  own : ∀ operand ∈ operands, operand.owner = context.id
  typed : ∃ sort, operator.resultSort (operands.map Expr.sort) = .ok sort

variable {context : Context TermTable} {operator : Operator} {operands : List Expr}

theorem Accepts.apply_eq (accepts : context.Accepts operator operands) :
    ∃ sort, operator.resultSort (operands.map Expr.sort) = .ok sort ∧
      apply operator operands context =
        (onEngine ((Request.apply operator operands).run sort) >>= wrap sort)
          { context with widths := Plan.register context.widths sort } := by
  rcases accepts.typed with ⟨sort, typed⟩
  refine ⟨sort, typed, ?_⟩
  rw [apply_of_own operator (by simpa using accepts.own), typed]

theorem accepts_of_apply {result : Expr} {next : Context TermTable}
    (made : apply operator operands context = .ok result next) :
    context.Accepts operator operands := by
  by_cases own : operands.all (·.owner = context.id)
  · have applied := apply_of_own operator own
    refine ⟨by simpa using own, ?_⟩
    cases typed : operator.resultSort (operands.map Expr.sort) with
    | ok sort => exact ⟨sort, rfl⟩
    | error error =>
        rw [typed, made] at applied
        cases applied
  · rw [apply_of_foreign own] at made
    cases made

/-- An application is made if the context accepts it and has room for one more term. -/
theorem Accepts.exists_apply (accepts : context.Accepts operator operands)
    (valid : context.engine.Valid)
    (sorted : ∀ operand ∈ operands, context.engine.sort? operand.term = some operand.sort)
    (room : context.engine.terms.size < wordLimit) :
    ∃ result next, apply operator operands context = .ok result next := by
  rcases accepts.apply_eq with ⟨sort, typed, applied⟩
  rcases valid.exists_apply (.of_exprs sorted) (Operator.resultSort_eq_ok_iff.mp typed) room with
    ⟨term, next, made⟩
  have answered : (Request.apply operator operands).run sort context.engine = .ok term next := made
  rw [wrap_onEngine_apply, answered] at applied
  exact ⟨_, _, applied⟩

/-- An application that the context accepts can fail at a full table only. -/
theorem ends_apply (valid : context.engine.Valid)
    (sorted : ∀ operand ∈ operands, operand.owner = context.id →
      context.engine.sort? operand.term = some operand.sort) :
    Action.Ends (fun _ _ => context.Accepts operator operands)
      (fun error next => context.Accepts operator operands → TermTable.RunsFull error next)
      (apply operator operands context) := by
  cases made : apply operator operands context with
  | ok result next => exact accepts_of_apply made
  | error error next =>
      intro accepts
      rcases accepts.apply_eq with ⟨sort, typed, applied⟩
      have sortedOwn : ∀ operand ∈ operands,
          context.engine.sort? operand.term = some operand.sort :=
        fun operand member => sorted operand member (accepts.own operand member)
      have builds := valid.builds_apply (.of_exprs sortedOwn)
        (Operator.resultSort_eq_ok_iff.mp typed)
      have ends : Action.Ends (fun _ _ => True) TermTable.RunsFull
          (apply operator operands context) := by
        rw [applied]
        exact (ends_wrap_iff (.apply operator operands) sort _).mpr
          (Action.Ends.imp builds (fun _ _ _ => trivial) fun _ _ ends => ⟨ends.1, ends.2.2⟩)
      rw [made] at ends
      exact ends

end Context

namespace TermTable

/-- What the typing rules accept has a value of the sort that they give, and all words computed on
the way are in range. So in every state that a session reaches, folding or not, applications fail
only for foreign operands and for sorts that the rules refuse, and simplification never fails, as
long as the table does not run full: that takes an application in a table without room for one more
term, or a simplification in one that is at least half full. -/
theorem typed_applications_evaluate :
    (∀ {operator : Operator} {sorts : List SmtSort} {sort : SmtSort} {values : List Value},
      operator.resultSort sorts = .ok sort → List.Forall₂ Value.HasSort values sorts →
        ∃ value, operator.evaluate values = .ok value ∧ value.HasSort sort ∧
          operator.evaluateInWords values = some value) ∧
    ∀ (id : Nat) (folding : Bool) (calls : List Call),
      let session := (Session.start id ({ folding } : TermTable)).run calls
      let context := session.context
      (∀ (operator : Operator) (operands : List Expr),
        (∀ operand ∈ operands, operand.owner = id → .made operand ∈ session.outcomes) →
          Action.Ends (fun _ _ => context.Accepts operator operands)
            (fun error next => context.Accepts operator operands → RunsFull error next)
            (Context.apply operator operands context) ∧
          (context.engine.terms.size < wordLimit →
            ((∃ result next, Context.apply operator operands context = .ok result next) ↔
              context.Accepts operator operands))) ∧
      ∀ operand, .made operand ∈ session.outcomes →
        Action.Ends (fun _ _ => True) RunsFull (Context.simplify operand context) ∧
        (2 * context.engine.terms.size < wordLimit →
          ∃ result next, Context.simplify operand context = .ok result next) := by
  constructor
  · intro operator sorts sort values typed operands
    have rule := Operator.resultSort_eq_ok_iff.mp typed
    rcases rule.evaluate_hasSort operands with ⟨value, evaluated, hasSort⟩
    have inWords := rule.evaluateInWords_eq operands
    rw [evaluated] at inWords
    exact ⟨value, evaluated, hasSort, inWords⟩
  · intro id folding calls session context
    have holds := holds_run id folding calls
    have sameId : session.context.id = id := Session.id_run _ calls
    constructor
    · intro operator operands made
      have sorted : ∀ operand ∈ operands, operand.owner = session.context.id →
          session.context.engine.sort? operand.term = some operand.sort :=
        fun operand member own => holds.exprs operand (made operand member (own.trans sameId))
      refine ⟨Context.ends_apply holds.engine.valid sorted, fun room => ⟨?_, fun accepts => ?_⟩⟩
      · rintro ⟨result, next, applied⟩
        exact Context.accepts_of_apply applied
      · exact accepts.exists_apply holds.engine.valid
          (fun operand member => sorted operand member (accepts.own operand member)) room
    · intro operand made
      have simplifies := simplify_keeps_meaning id folding calls operand
        ((holds.own operand made).trans sameId) (holds.exprs operand made)
      exact ⟨Action.Ends.imp simplifies.1 (fun _ _ _ => trivial) fun _ _ full => full,
        simplifies.2⟩

/-- Two copies of a literal. -/
theorem typed_applications_evaluate_copies :
    let session := (Session.start 0 ({ folding := true } : TermTable)).run [.bitsLiteral 255 8]
    let literal : Expr := ⟨0, .bits .byte, 0⟩
    let wide : SmtSort := .bits ⟨16, by decide, by decide⟩
    (Operator.replicate 2).resultSort [.bits .byte] = .ok wide ∧
      List.Forall₂ Value.HasSort [.bits 8 255] [.bits .byte] ∧
      (∃ value, (Operator.replicate 2).evaluate [.bits 8 255] = .ok value ∧
        value.HasSort wide ∧ (Operator.replicate 2).evaluateInWords [.bits 8 255] = some value) ∧
      .made literal ∈ session.outcomes ∧
      (∃ result next,
        Context.apply (.replicate 2) [literal] session.context = .ok result next) ∧
      ∃ result next, Context.simplify literal session.context = .ok result next := by
  intro session literal wide
  have typed : (Operator.replicate 2).resultSort [.bits .byte] = .ok wide := rfl
  have operands : List.Forall₂ Value.HasSort [.bits 8 255] [.bits .byte] :=
    .cons (by decide) .nil
  have reached : .made literal ∈ session.outcomes ∧ session.context.engine.terms.size = 1 := by
    have eight : Width.ofNat 8 = .ok .byte := rfl
    have fits : Pattern.ofInt Width.byte.bits 255 < 2 ^ Width.byte.bits := Pattern.ofInt_lt _ _
    simp [session, literal, Session.run, Session.start, Session.call_eq, Call.plan, Plan.ofWidth,
      eight, Session.follow, Ending.follow, Request.run, Engine.bitsLiteral,
      bitsLiteral_of_fits fits, intern_apply, hasRoom, wordLimit, Dag.size, Dag.intern]
  rcases reached with ⟨made, size⟩
  have sameId : session.context.id = 0 := Session.id_run _ _
  have accepts : session.context.Accepts (.replicate 2) [literal] :=
    ⟨by simp [literal, sameId], wide, typed⟩
  rcases typed_applications_evaluate.2 0 true [.bitsLiteral 255 8] with ⟨applies, simplifies⟩
  refine ⟨typed, operands, typed_applications_evaluate.1 typed operands, made, ?_, ?_⟩
  · refine ((applies (.replicate 2) [literal] (by simpa using fun _ => made)).2 ?_).mpr accepts
    exact size ▸ (by decide : 1 < wordLimit)
  · refine (simplifies literal made).2 ?_
    exact size ▸ (by decide : 2 * 1 < wordLimit)

end TermTable

end BitTerms
