import BitTerms.Proofs.Solver.Dialogues

/-!
# Replies

What a solver's reply comes to, whatever it says. A command that is not acknowledged and a question
that is not answered are reported. The value of an expression is picked out of the reply by its
place, and a list without that place is the one reply that leads to no report:
`SExpr.IsMalformed`.
-/

namespace BitTerms

/-! ## Reports -/

def Except.Reports {α : Type} : Except Error α → Prop
  | .ok _ => True
  | .error error => error.IsReported

/-- Every failure of the step is reported. -/
def Action.Reports {σ α : Type} (action : Action σ α) : Prop :=
  ∀ state, Action.Ends (fun _ _ => True) (fun error _ => error.IsReported) (action state)

/-! ## Replies to questions for a value -/

namespace SExpr

/-- A list that is not made of pairs, or of no pair at all. -/
def IsMalformed : SExpr → Prop
  | .list items => items = [] ∨ ∃ item ∈ items, ∀ term value, item ≠ .list [term, value]
  | .symbol _ | .string _ => False

end SExpr

namespace Channel

theorem pairs?_eq_none_iff (items : List SExpr) :
    pairs? items = none ↔ ∃ item ∈ items, ∀ term value, item ≠ .list [term, value] := by
  fun_induction pairs? items with
  | case1 => simp
  | case2 term value rest induction => simp [induction]
  | case3 items notEmpty notPair =>
      cases items with
      | nil => exact absurd rfl notEmpty
      | cons first rest =>
          refine iff_of_true rfl ⟨first, List.mem_cons_self, fun term value pair => ?_⟩
          exact notPair term value rest (by rw [pair])

theorem pairs?_ne_nil (first : SExpr) (rest : List SExpr) : pairs? (first :: rest) ≠ some [] := by
  unfold pairs?
  split <;> simp_all

theorem reports_answeredValue_iff (answer : SExpr) :
    Except.Reports (answeredValue answer) ↔ ¬ answer.IsMalformed := by
  cases answer with
  | symbol | string => simp [answeredValue, SExpr.IsMalformed, Except.Reports]
  | list items =>
      simp only [answeredValue, SExpr.IsMalformed, ← pairs?_eq_none_iff]
      cases items with
      | nil => simp [pairs?, Except.Reports]
      | cons first rest =>
          cases paired : pairs? (first :: rest) with
          | none => simp [Except.Reports]
          | some pairs =>
              cases pairs with
              | nil => exact absurd paired (pairs?_ne_nil first rest)
              | cons pair others => simp [Except.Reports]

theorem ends_value_reports (term : String) (channel : Channel) :
    Action.Ends
      (fun _ _ => ∀ answer, (SExpr.read (channel.peer.receive (.getValue term)).unread).1 =
        some answer → ¬ answer.IsMalformed)
      (fun error _ => error.IsReported ↔
        ∀ answer, (SExpr.read (channel.peer.receive (.getValue term)).unread).1 = some answer →
          ¬ answer.IsMalformed)
      (value term channel) := by
  unfold value receive
  simp only [Action.bind_apply, send_apply, Action.get_apply, Action.modify_apply]
  cases (SExpr.read (channel.peer.receive (.getValue term)).unread).1 with
  | none => simp [Action.throw_apply]
  | some answer =>
      have reports := reports_answeredValue_iff answer
      simp only [Action.pure_apply, Option.some.injEq, forall_eq']
      cases answered : answeredValue answer with
      | ok value =>
          rw [answered] at reports
          exact reports.mp trivial
      | error error =>
          rw [answered] at reports
          exact reports

end Channel

namespace Context

/-- What a solver answers if it is asked for the value of an expression next. -/
def answer? (context : Context Solver) (expr : Expr) : Option SExpr :=
  (SExpr.read (context.engine.channel.peer.receive (.getValue (context.text expr))).unread).1

/-- The value in that answer. -/
def reply (context : Context Solver) (expr : Expr) : EStateM.Result Error Channel SExpr :=
  Channel.value (context.text expr) context.engine.channel

/-- The answer has a place for the value, if there is an answer. -/
def IsWellFormed (context : Context Solver) (expr : Expr) : Prop :=
  ∀ answer, context.answer? expr = some answer → ¬ answer.IsMalformed

theorem ends_reply (context : Context Solver) (expr : Expr) :
    Action.Ends (fun _ _ => context.IsWellFormed expr)
      (fun error _ => error.IsReported ↔ context.IsWellFormed expr) (context.reply expr) :=
  Channel.ends_value_reports (context.text expr) context.engine.channel

end Context

end BitTerms
