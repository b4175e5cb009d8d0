import BitTerms.Proofs.Session

/-!
# What the calls of a session asked for

The leaves of terms are variables and literals. `Call.leaf?` says which leaf a call asks for, on
whatever engine. A session that has a leaf under the expression that a call made, at every step
and from then on, recalls what the call asked for (`Session.Recalls`).
-/

namespace BitTerms

variable {σ ι : Type}

/-! ## Calls for leaves -/

def Request.leaf? (sort : SmtSort) : Request → Option TermLabel
  | .declare name => some ⟨.variable name, sort⟩
  | .bitsLiteral _ pattern => some ⟨.bits pattern, sort⟩
  | .boolLiteral value => some ⟨.bool value, sort⟩
  | .apply _ _ | .simplify _ => none

def Ending.leaf? : Ending → Option TermLabel
  | .ask request sort => request.leaf? sort
  | .skip | .finish | .refuse _ => none

/-- The variable or the literal that a call asks for. -/
def Call.leaf? : Call → Option TermLabel
  | .declare name sort => some ⟨.variable name, sort⟩
  | .declareBits name bits =>
    (Width.ofNat bits).toOption.map fun width => ⟨.variable name, .bits width⟩
  | .boolLiteral value => some ⟨.bool value, .bool⟩
  | .bitsLiteral value bits =>
    (Width.ofNat bits).toOption.map fun width =>
      ⟨.bits (Pattern.ofInt width.bits value), .bits width⟩
  | .bitsSort _ | .apply _ _ | .simplify _ => none

theorem Request.sort_of_leaf? {request : Request} {sort : SmtSort} {label : TermLabel}
    (asked : request.leaf? sort = some label) : label.sort = sort := by
  cases request <;> cases asked <;> rfl

theorem Call.leaf?_plan (call : Call) (id : Nat) (expr? : Operand → Option Expr) :
    (call.plan id expr?).ending.leaf? = call.leaf? := by
  cases call with
  | declare name sort => rfl
  | boolLiteral value => rfl
  | bitsSort bits | declareBits name bits | bitsLiteral value bits =>
      simp only [plan, Plan.ofWidth, leaf?]
      cases Width.ofNat bits <;> rfl
  | apply operator operands =>
      simp only [plan, leaf?]
      split
      · rfl
      · split
        · split <;> rfl
        · rfl
  | simplify operand =>
      simp only [plan, leaf?]
      split
      · rfl
      · split <;> rfl

theorem Call.exists_request {call : Call} {label : TermLabel} (asked : call.leaf? = some label)
    (id : Nat) (expr? : Operand → Option Expr) :
    ∃ request, (call.plan id expr?).ending = .ask request label.sort ∧
      request.leaf? label.sort = some label := by
  have planned := (call.leaf?_plan id expr?).trans asked
  cases ending : (call.plan id expr?).ending with
  | skip | finish | refuse =>
      rw [ending] at planned
      cases planned
  | ask request sort =>
      rw [ending] at planned
      rcases Request.sort_of_leaf? planned with rfl
      exact ⟨request, rfl, planned⟩

/-! ## What comes of them -/

/-- What comes of asking for a leaf: an expression under which the engine has the leaf, or a
failure, which there is for variables only, unless the state excuses it. -/
def Outcome.Shows (leaf : σ → Nat → TermLabel → Prop) (excused : σ → Error → Prop) (state : σ)
    (label : TermLabel) : Outcome → Prop
  | .made expr => expr.sort = label.sort ∧ leaf state expr.term label
  | .failed error => label.literal? = none ∨ excused state error
  | .done | .answered _ | .skipped => False

/-- How an engine has its leaves: it reads a legible one as the value that it spells, writes it as
its word, has it only once, and makes a literal that it has of the same pattern again. -/
structure Engine.HasLeaves [Engine σ] (inv : σ → Prop) (leaf : σ → Nat → TermLabel → Prop)
    (legible : TermLabel → Prop) : Prop where
  literal : ∀ {state : σ} {term : Nat} {label : TermLabel}, leaf state term label →
    legible label → Engine.literal? state term = label.literal?
  text : ∀ {state : σ} {term : Nat} {label : TermLabel} {word : String}, leaf state term label →
    label.spelling = .word word → Engine.text state term = word
  unique : ∀ {state : σ} {left right : Nat} {label : TermLabel}, inv state →
    leaf state left label → leaf state right label → left = right
  again : ∀ {state : σ} {term pattern : Nat} (width : Width), inv state →
    pattern < 2 ^ width.bits → leaf state term ⟨.bits pattern, .bits width⟩ →
      ∃ next, Engine.bitsLiteral width pattern state = .ok term next

namespace Session

variable [Engine σ]

theorem run_append (session : Session σ) (calls more : List Call) :
    session.run (calls ++ more) = (session.run calls).run more := List.foldl_append

theorem exists_outcome (session : Session σ) (call : Call) :
    ∃ outcome, (session.call call).outcomes = session.outcomes ++ [outcome] := by
  rw [call_eq]
  exact ⟨_, rfl⟩

theorem shows_call {leaf : σ → Nat → TermLabel → Prop} {excused : σ → Error → Prop}
    {session : Session σ} {call : Call} {outcome : Outcome} {label : TermLabel}
    (asked : call.leaf? = some label)
    (came : (session.call call).outcomes = session.outcomes ++ [outcome])
    (answers : ∀ request,
      (call.plan session.context.id session.expr?).ending = .ask request label.sort →
        request.leaf? label.sort = some label →
          Action.Ends (fun term next => leaf next term label)
            (fun error next => label.literal? = none ∨ excused next error)
            (request.run label.sort session.context.engine)) :
    outcome.Shows leaf excused (session.call call).context.engine label := by
  rcases call.exists_request asked session.context.id session.expr? with
    ⟨request, planned, isLeaf⟩
  have ends := answers request planned isLeaf
  rw [call_eq] at came ⊢
  simp only [follow, planned, Ending.follow, List.append_cancel_left_eq, List.cons.injEq,
    and_true] at came ⊢
  subst came
  cases answered : request.run label.sort session.context.engine with
  | ok term engine =>
      rw [answered, Action.ends_ok] at ends
      exact ⟨rfl, ends⟩
  | error error engine =>
      rw [answered, Action.ends_error] at ends
      exact ends

end Session

/-! ## Histories -/

namespace Session

/-- One of the steps that led to the session came to this outcome. -/
def CameTo (session : Session σ) (steps : List ι) (step : ι) (outcome : Outcome) : Prop :=
  (step, outcome) ∈ steps.zip session.outcomes

/-- What every step asked for is there in the end, where the step came to it. -/
def Recalls (leaf : σ → Nat → TermLabel → Prop) (excused : σ → Error → Prop)
    (asks? : ι → Option TermLabel) (steps : List ι) (session : Session σ) : Prop :=
  List.Forall₂ (fun step outcome => ∀ label, asks? step = some label →
    outcome.Shows leaf excused session.context.engine label) steps session.outcomes

variable {leaf : σ → Nat → TermLabel → Prop} {excused : σ → Error → Prop}
  {asks? : ι → Option TermLabel} {steps : List ι} {session next : Session σ}

theorem CameTo.append {step : ι} (last : ι) {outcome other : Outcome}
    (came : session.CameTo steps step outcome) (length : steps.length = session.outcomes.length)
    (outcomes : next.outcomes = session.outcomes ++ [other]) :
    next.CameTo (steps ++ [last]) step outcome := by
  rw [CameTo, outcomes, List.zip_append length]
  exact List.mem_append_left _ came

theorem cameTo_last (last : ι) {other : Outcome}
    (length : steps.length = session.outcomes.length)
    (outcomes : next.outcomes = session.outcomes ++ [other]) :
    next.CameTo (steps ++ [last]) last other := by
  rw [CameTo, outcomes, List.zip_append length]
  exact List.mem_append_right _ List.mem_cons_self

theorem recalls_start (id : Nat) (engine : σ) :
    (start id engine).Recalls leaf excused asks? [] := .nil

theorem Recalls.shows (recalls : session.Recalls leaf excused asks? steps) {step : ι}
    {outcome : Outcome} (came : session.CameTo steps step outcome) {label : TermLabel}
    (asked : asks? step = some label) :
    outcome.Shows leaf excused session.context.engine label :=
  (List.forall₂_iff_zip.mp recalls).2 came label asked

/-- A session goes on recalling what is still there, and what it was asked for last. -/
theorem Recalls.append (recalls : session.Recalls leaf excused asks? steps) {last : ι}
    {outcome : Outcome} (outcomes : next.outcomes = session.outcomes ++ [outcome])
    (stays : ∀ term label, leaf session.context.engine term label →
      leaf next.context.engine term label)
    (excuses : ∀ error, excused session.context.engine error → excused next.context.engine error)
    (here : ∀ label, asks? last = some label →
      outcome.Shows leaf excused next.context.engine label) :
    next.Recalls leaf excused asks? (steps ++ [last]) := by
  unfold Recalls
  rw [outcomes]
  refine List.rel_append (recalls.imp fun step earlier shows label asked => ?_) (.cons here .nil)
  have before := shows label asked
  cases earlier with
  | made expr => exact ⟨before.1, stays _ _ before.2⟩
  | failed error => exact before.imp_right (excuses error)
  | done | answered | skipped => exact before.elim

end Session

end BitTerms
