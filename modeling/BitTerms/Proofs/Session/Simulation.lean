import BitTerms.Proofs.Session

/-!
# Sessions side by side

The same calls made of two contexts over different engines. If every request finds the engines
related and leaves them so, with terms of the same standing made on both sides, then the sessions
stay matched: the outcomes correspond call by call, with the same errors, and the same widths are
registered. Some errors of either engine are let through, for failures that the caller of the
theorem rules out.
-/

namespace BitTerms

variable {σ τ : Type}

/-! ## Correspondence -/

/-- Two outcomes correspond if both made expressions that do, or both are the same. -/
def Outcome.Matches (made : Expr → Expr → Prop) : Outcome → Outcome → Prop
  | .made left, .made right => made left right
  | left, right => left = right

theorem Outcome.Matches.imp {made made' : Expr → Expr → Prop} {left right : Outcome}
    (matched : left.Matches made right) (imp : ∀ left right, made left right → made' left right) :
    left.Matches made' right := by
  cases left with
  | made leftExpr =>
      cases right with
      | made rightExpr => exact imp _ _ matched
      | done | answered | failed | skipped => cases matched
  | done | answered | failed | skipped =>
      cases matched
      rfl

inductive Request.Matches (same : Nat → Nat → SmtSort → Prop) : Request → Request → Prop
  | declare (name : String) : Matches same (.declare name) (.declare name)
  | bitsLiteral (width : Width) (pattern : Nat) :
      Matches same (.bitsLiteral width pattern) (.bitsLiteral width pattern)
  | boolLiteral (value : Bool) : Matches same (.boolLiteral value) (.boolLiteral value)
  | apply (operator : Operator) (lefts rights : List Expr)
      (pairs : List.Forall₂ (fun left right =>
        left.sort = right.sort ∧ same left.term right.term left.sort) lefts rights) :
      Matches same (.apply operator lefts) (.apply operator rights)
  | simplify (left right : Expr) (sort : left.sort = right.sort)
      (pair : same left.term right.term left.sort) : Matches same (.simplify left) (.simplify right)

inductive Ending.Matches (same : Nat → Nat → SmtSort → Prop) : Ending → Ending → Prop
  | skip : Matches same .skip .skip
  | finish : Matches same .finish .finish
  | refuse (error : Error) : Matches same (.refuse error) (.refuse error)
  | ask (left right : Request) (sort : SmtSort) (pair : left.Matches same right) :
      Matches same (.ask left sort) (.ask right sort)

structure Plan.Matches (same : Nat → Nat → SmtSort → Prop) (left right : Plan) : Prop where
  registered : left.registered = right.registered
  ending : left.ending.Matches same right.ending

/-- Two steps end together: both succeed or both fail with the same error, unless one of them fails
with an error that is let through on its side. -/
def Action.EndTogether {α β : Type} (made : α → β → σ → τ → Prop) (failed : σ → τ → Prop)
    (leftExcused rightExcused : Error → Prop) :
    EStateM.Result Error σ α → EStateM.Result Error τ β → Prop
  | .ok left leftState, .ok right rightState => made left right leftState rightState
  | .error left leftState, .error right rightState =>
    leftExcused left ∨ rightExcused right ∨ left = right ∧ failed leftState rightState
  | .ok _ _, .error right _ => rightExcused right
  | .error left _, .ok _ _ => leftExcused left

theorem Action.endTogether_of_left {α β : Type} {made : α → β → σ → τ → Prop}
    {failed : σ → τ → Prop} {leftExcused rightExcused : Error → Prop} {error : Error} {state : σ}
    (isExcused : leftExcused error) {right : EStateM.Result Error τ β} :
    EndTogether made failed leftExcused rightExcused (.error error state) right := by
  cases right with
  | ok term next => exact isExcused
  | error other next => exact .inl isExcused

/-- Two steps that fail with such errors only end together if they do where both succeed. -/
theorem Action.endTogether_of_ends {α β : Type} {made : α → β → σ → τ → Prop}
    {failed : σ → τ → Prop} {leftExcused rightExcused : Error → Prop} {leftGood : α → σ → Prop}
    {rightGood : β → τ → Prop} {left : EStateM.Result Error σ α} {right : EStateM.Result Error τ β}
    (onLeft : Ends leftGood (fun error _ => leftExcused error) left)
    (onRight : Ends rightGood (fun error _ => rightExcused error) right)
    (together : ∀ leftTerm leftNext rightTerm rightNext, left = .ok leftTerm leftNext →
      right = .ok rightTerm rightNext → leftGood leftTerm leftNext → rightGood rightTerm rightNext →
        made leftTerm rightTerm leftNext rightNext) :
    EndTogether made failed leftExcused rightExcused left right := by
  cases left with
  | ok leftTerm leftNext =>
      cases right with
      | ok rightTerm rightNext => exact together _ _ _ _ rfl rfl onLeft onRight
      | error error rightNext => exact onRight
  | error error leftNext =>
      cases right with
      | ok rightTerm rightNext => exact onLeft
      | error rightError rightNext => exact .inl onLeft

/-- The engines end related requests together, and stay related. -/
structure Engine.Simulates [Engine σ] [Engine τ] (related : σ → τ → Prop)
    (same : σ → τ → Nat → Nat → SmtSort → Prop) (permits : Request → Prop)
    (leftExcused rightExcused : Error → Prop) : Prop where
  request : ∀ {left : σ} {right : τ} {leftRequest rightRequest : Request} {sort : SmtSort},
    related left right → leftRequest.Matches (same left right) rightRequest →
    leftRequest.Proper (fun _ _ => True) sort → permits leftRequest →
    Action.EndTogether
      (fun leftTerm rightTerm leftNext rightNext => related leftNext rightNext ∧
        same leftNext rightNext leftTerm rightTerm sort ∧
        ∀ leftTerm rightTerm sort, same left right leftTerm rightTerm sort →
          same leftNext rightNext leftTerm rightTerm sort)
      (fun leftNext rightNext => related leftNext rightNext ∧
        ∀ leftTerm rightTerm sort, same left right leftTerm rightTerm sort →
          same leftNext rightNext leftTerm rightTerm sort)
      leftExcused rightExcused (leftRequest.run sort left) (rightRequest.run sort right)

namespace Session

/-- Every request that the calls lead to is permitted. -/
def Asks [Engine σ] (permits : Request → Prop) : Session σ → List Call → Prop
  | _, [] => True
  | session, call :: rest =>
    (∀ request sort, (call.plan session.context.id session.expr?).ending = .ask request sort →
      permits request) ∧ (session.call call).Asks permits rest

theorem asks_of_forall [Engine σ] {permits : Request → Prop} (session : Session σ)
    (calls : List Call) (all : ∀ request, permits request) : session.Asks permits calls := by
  induction calls generalizing session with
  | nil => trivial
  | cons call rest induction =>
      exact ⟨fun request _ _ => all request, induction (session.call call)⟩

structure Twins (same : σ → τ → Nat → Nat → SmtSort → Prop) (left : Context σ) (right : Context τ)
    (leftExpr rightExpr : Expr) : Prop where
  leftOwn : leftExpr.owner = left.id
  rightOwn : rightExpr.owner = right.id
  sort : leftExpr.sort = rightExpr.sort
  term : same left.engine right.engine leftExpr.term rightExpr.term leftExpr.sort

/-- Two sessions that made the same calls and stay matched. -/
structure Matches (related : σ → τ → Prop) (same : σ → τ → Nat → Nat → SmtSort → Prop)
    (left : Session σ) (right : Session τ) : Prop where
  engines : related left.context.engine right.context.engine
  widths : left.context.widths = right.context.widths
  outcomes : List.Forall₂ (Outcome.Matches (Twins same left.context right.context))
    left.outcomes right.outcomes

variable {related : σ → τ → Prop} {same : σ → τ → Nat → Nat → SmtSort → Prop}
  {left : Session σ} {right : Session τ}

theorem matches_start (leftId rightId : Nat) {leftEngine : σ} {rightEngine : τ}
    (initially : related leftEngine rightEngine) :
    (start leftId leftEngine).Matches related same (start rightId rightEngine) :=
  ⟨initially, rfl, .nil⟩

/-- One call made the two expressions. -/
def MadeTogether (left : Session σ) (right : Session τ) (leftExpr rightExpr : Expr) : Prop :=
  ∃ call : Nat, left.outcomes[call]? = some (.made leftExpr) ∧
    right.outcomes[call]? = some (.made rightExpr)

theorem Matches.twins (matched : left.Matches related same right) {leftExpr rightExpr : Expr}
    (together : left.MadeTogether right leftExpr rightExpr) :
    Twins same left.context right.context leftExpr rightExpr := by
  rcases together with ⟨call, onLeft, onRight⟩
  have pair := rel_getElem? matched.outcomes call
  rw [onLeft, onRight] at pair
  cases pair with
  | some twins => exact twins

/-! ## Plans correspond -/

/-- Two expressions that operands stand for: twins, or expressions of other contexts. -/
structure Counterparts (same : σ → τ → Nat → Nat → SmtSort → Prop) (left : Context σ)
    (right : Context τ) (leftExpr rightExpr : Expr) : Prop where
  sort : leftExpr.sort = rightExpr.sort
  own : leftExpr.owner = left.id ↔ rightExpr.owner = right.id
  term : leftExpr.owner = left.id →
    same left.engine right.engine leftExpr.term rightExpr.term leftExpr.sort

theorem Matches.rel_expr? (matched : left.Matches related same right) (operand : Operand) :
    Option.Rel (Counterparts same left.context right.context)
      (left.expr? operand) (right.expr? operand) := by
  cases operand with
  | made call =>
      have pair := rel_getElem? matched.outcomes call
      simp only [expr?]
      generalize left.outcomes[call]? = leftOutcome at pair ⊢
      generalize right.outcomes[call]? = rightOutcome at pair ⊢
      cases pair with
      | none => exact .none
      | @some leftOutcome rightOutcome pair =>
          cases leftOutcome with
          | made leftExpr =>
              cases rightOutcome with
              | made rightExpr =>
                  refine .some ⟨pair.sort, ?_, fun _ => pair.term⟩
                  exact ⟨fun _ => pair.rightOwn, fun _ => pair.leftOwn⟩
              | done | answered | failed | skipped => cases pair
          | done | answered | failed | skipped =>
              cases pair
              exact .none
  | foreign sort term =>
      refine .some ⟨rfl, ?_, fun own => ?_⟩
      · simp
      · exact absurd own (by simp)

theorem Counterparts.sorts_eq {left : Context σ} {right : Context τ}
    {leftExprs rightExprs : List Expr}
    (pairs : List.Forall₂ (Counterparts same left right) leftExprs rightExprs) :
    leftExprs.map Expr.sort = rightExprs.map Expr.sort := by
  rw [← List.forall₂_eq_eq_eq, List.forall₂_map_left_iff, List.forall₂_map_right_iff]
  exact pairs.imp fun _ _ pair => pair.sort

theorem Counterparts.own_eq {left : Context σ} {right : Context τ}
    {leftExprs rightExprs : List Expr}
    (pairs : List.Forall₂ (Counterparts same left right) leftExprs rightExprs) :
    leftExprs.all (·.owner = left.id) = rightExprs.all (·.owner = right.id) := by
  induction pairs with
  | nil => rfl
  | cons pair _ induction =>
      rw [List.all_cons, List.all_cons, induction]
      simp only [pair.own]

theorem Matches.plan (matched : left.Matches related same right) (call : Call) :
    (call.plan left.context.id left.expr?).Matches
      (same left.context.engine right.context.engine)
      (call.plan right.context.id right.expr?) := by
  cases call with
  | bitsSort bits =>
      simp only [Call.plan, Plan.ofWidth]
      cases Width.ofNat bits with
      | ok width => exact ⟨rfl, .finish⟩
      | error error => exact ⟨rfl, .refuse error⟩
  | declare name sort => exact ⟨rfl, .ask _ _ _ (.declare name)⟩
  | declareBits name bits =>
      simp only [Call.plan, Plan.ofWidth]
      cases Width.ofNat bits with
      | ok width => exact ⟨rfl, .ask _ _ _ (.declare name)⟩
      | error error => exact ⟨rfl, .refuse error⟩
  | boolLiteral value => exact ⟨rfl, .ask _ _ _ (.boolLiteral value)⟩
  | bitsLiteral value bits =>
      simp only [Call.plan, Plan.ofWidth]
      cases Width.ofNat bits with
      | ok width => exact ⟨rfl, .ask _ _ _ (.bitsLiteral width _)⟩
      | error error => exact ⟨rfl, .refuse error⟩
  | apply operator operands =>
      have pairs := rel_mapM operands fun operand _ => matched.rel_expr? operand
      simp only [Call.plan]
      generalize operands.mapM left.expr? = leftExprs at pairs ⊢
      generalize operands.mapM right.expr? = rightExprs at pairs ⊢
      cases pairs with
      | none => exact ⟨rfl, .skip⟩
      | @some leftExprs rightExprs pairs =>
          have own := Counterparts.own_eq pairs
          dsimp only
          by_cases ownLeft : leftExprs.all (·.owner = left.context.id)
          · rw [if_pos ownLeft, if_pos (own ▸ ownLeft), Counterparts.sorts_eq pairs]
            cases operator.resultSort (rightExprs.map Expr.sort) with
            | ok sort =>
                refine ⟨rfl, .ask _ _ _ (.apply operator _ _ ?_)⟩
                refine imp_of_mem pairs fun leftExpr member rightExpr pair => ?_
                have isOwn := List.all_eq_true.mp ownLeft leftExpr member
                exact ⟨pair.sort, pair.term (by simpa using isOwn)⟩
            | error error => exact ⟨rfl, .refuse error⟩
          · rw [if_neg ownLeft, if_neg (own ▸ ownLeft)]
            exact ⟨rfl, .refuse _⟩
  | simplify operand =>
      have pair := matched.rel_expr? operand
      simp only [Call.plan]
      generalize left.expr? operand = leftExpr at pair ⊢
      generalize right.expr? operand = rightExpr at pair ⊢
      cases pair with
      | none => exact ⟨rfl, .skip⟩
      | @some leftExpr rightExpr pair =>
          dsimp only
          by_cases own : leftExpr.owner = left.context.id
          · rw [if_pos own, if_pos (pair.own.mp own), ← pair.sort]
            exact ⟨rfl, .ask _ _ _ (.simplify _ _ pair.sort (pair.term own))⟩
          · rw [if_neg own, if_neg (mt pair.own.mpr own)]
            exact ⟨rfl, .refuse _⟩

/-! ## Sessions stay matched -/

theorem Matches.append (matched : left.Matches related same right) {leftEngine : σ}
    {rightEngine : τ} (engines : related leftEngine rightEngine)
    (stays : ∀ leftTerm rightTerm sort,
      same left.context.engine right.context.engine leftTerm rightTerm sort →
        same leftEngine rightEngine leftTerm rightTerm sort)
    (widths : Std.TreeSet Nat) {leftOutcome rightOutcome : Outcome}
    (pair : leftOutcome.Matches (Twins same { left.context with engine := leftEngine, widths }
      { right.context with engine := rightEngine, widths }) rightOutcome) :
    Matches related same
      ⟨{ left.context with engine := leftEngine, widths }, left.outcomes ++ [leftOutcome]⟩
      ⟨{ right.context with engine := rightEngine, widths }, right.outcomes ++ [rightOutcome]⟩ := by
  refine ⟨engines, rfl, List.rel_append (matched.outcomes.imp ?_) (.cons pair .nil)⟩
  intro leftOutcome rightOutcome outcomes
  exact Outcome.Matches.imp outcomes fun _ _ twins =>
    ⟨twins.leftOwn, twins.rightOwn, twins.sort, stays _ _ _ twins.term⟩

theorem Matches.holds (matched : left.Matches related same right) :
    left.Holds (fun _ => True) (fun _ _ _ => True) := by
  refine ⟨trivial, fun expr member => ?_, fun _ _ => trivial⟩
  rcases exists_of_mem_left matched.outcomes member with ⟨outcome, -, pair⟩
  cases outcome with
  | made rightExpr => exact pair.leftOwn
  | done | answered | failed | skipped => cases pair

variable [Engine σ] [Engine τ]

theorem outcomes_call (session : Session σ) (call : Call) :
    session.outcomes ⊆ (session.call call).outcomes := by
  rw [call_eq]
  exact List.subset_append_left _ _

theorem outcomes_run (session : Session σ) (calls : List Call) :
    session.outcomes ⊆ (session.run calls).outcomes := by
  induction calls generalizing session with
  | nil => exact List.Subset.refl _
  | cons call rest induction =>
      exact List.Subset.trans (session.outcomes_call call) (induction (session.call call))

variable {permits : Request → Prop} {leftExcused rightExcused : Error → Prop}

/-- No outcome is a failure that is let through. -/
def NoExcuse (session : Session σ) (excused : Error → Prop) : Prop :=
  ∀ error, excused error → .failed error ∉ session.outcomes

omit [Engine τ] in
theorem noExcuse_of_run {session : Session σ} {excused : Error → Prop} {calls : List Call}
    (noExcuse : (session.run calls).NoExcuse excused) : session.NoExcuse excused :=
  fun error isExcused failed => noExcuse error isExcused (session.outcomes_run calls failed)

/-- Matched sessions stay matched at a call, unless one fails with an error that is let through. -/
theorem Matches.call (matched : left.Matches related same right)
    (simulates : Engine.Simulates related same permits leftExcused rightExcused) {call : Call}
    (permitted : ∀ request sort,
      (call.plan left.context.id left.expr?).ending = .ask request sort → permits request)
    (noLeft : (left.call call).NoExcuse leftExcused)
    (noRight : (right.call call).NoExcuse rightExcused) :
    (left.call call).Matches related same (right.call call) := by
  have plan := matched.plan call
  have proper {request : Request} {sort : SmtSort}
      (asks : (call.plan left.context.id left.expr?).ending = .ask request sort) :=
    matched.holds.proper asks
  rw [call_eq] at noLeft noRight ⊢
  rw [call_eq]
  generalize call.plan left.context.id left.expr? = leftPlan at plan proper permitted noLeft ⊢
  generalize call.plan right.context.id right.expr? = rightPlan at plan noRight ⊢
  rcases leftPlan with ⟨registered, leftEnding⟩
  rcases rightPlan with ⟨_, rightEnding⟩
  rcases plan with ⟨rfl, ending⟩
  simp only [follow] at noLeft noRight ⊢
  rw [← matched.widths]
  cases ending with
  | skip | finish | refuse error =>
      exact matched.append matched.engines (fun _ _ _ => id) _ rfl
  | ask leftRequest rightRequest sort pair =>
      have together := simulates.request matched.engines pair (proper rfl) (permitted _ _ rfl)
      simp only [Ending.follow] at noLeft noRight ⊢
      cases leftResult : leftRequest.run sort left.context.engine with
      | ok leftTerm leftEngine =>
          cases rightResult : rightRequest.run sort right.context.engine with
          | ok rightTerm rightEngine =>
              rw [leftResult, rightResult] at together
              rcases together with ⟨engines, term, stays⟩
              exact matched.append engines stays _ ⟨rfl, rfl, rfl, term⟩
          | error error rightEngine =>
              rw [leftResult, rightResult] at together
              rw [rightResult] at noRight
              exact absurd (List.mem_append_right _ List.mem_cons_self) (noRight error together)
      | error leftError leftEngine =>
          rw [leftResult] at noLeft
          have notExcused : ¬ leftExcused leftError := fun isExcused =>
            noLeft leftError isExcused (List.mem_append_right _ List.mem_cons_self)
          cases rightResult : rightRequest.run sort right.context.engine with
          | ok rightTerm rightEngine =>
              rw [leftResult, rightResult] at together
              exact absurd together notExcused
          | error error rightEngine =>
              rw [leftResult, rightResult] at together
              rw [rightResult] at noRight
              rcases together with isExcused | isExcused | ⟨rfl, engines, stays⟩
              · exact absurd isExcused notExcused
              · exact absurd (List.mem_append_right _ List.mem_cons_self)
                  (noRight error isExcused)
              · exact matched.append engines stays _ rfl

theorem Matches.run (matched : left.Matches related same right)
    (simulates : Engine.Simulates related same permits leftExcused rightExcused)
    {calls : List Call} (permitted : left.Asks permits calls)
    (noLeft : (left.run calls).NoExcuse leftExcused)
    (noRight : (right.run calls).NoExcuse rightExcused) :
    (left.run calls).Matches related same (right.run calls) := by
  induction calls generalizing left right with
  | nil => exact matched
  | cons call rest induction =>
      exact induction (matched.call simulates permitted.1 (noExcuse_of_run noLeft)
        (noExcuse_of_run noRight)) permitted.2 noLeft noRight

end Session

end BitTerms
