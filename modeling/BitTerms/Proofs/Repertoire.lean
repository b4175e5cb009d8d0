import BitTerms.Proofs.Solver.Dialogues

/-!
# What a context can be asked to do

A step names its operands, and somebody says which expressions the names stand for: a session knows
what its own calls made, a workspace what was made in any of its contexts. A `Repertoire` is a kind
of steps of which it is known what they do with expressions of other contexts. Calls are one, at
every engine, and the turns of a dialogue with a solver are another.
-/

namespace BitTerms

variable {σ : Type}

/-! ## What comes of an action -/

namespace Context

/-- The context an action leaves, and what came of it. -/
def settle (context : Context σ) (action : Action (Context σ) Outcome) : Context σ × Outcome :=
  match action context with
  | .ok outcome next => (next, outcome)
  | .error error next => (next, .failed error)

/-- The context stays under its position, and what it made is its own. -/
def Keeps (context : Context σ) (result : Context σ × Outcome) : Prop :=
  result.1.id = context.id ∧ ∀ expr, result.2 = .made expr → expr.owner = context.id

theorem keeps_self (context : Context σ) {outcome : Outcome}
    (notMade : ∀ expr, outcome ≠ .made expr) : context.Keeps (context, outcome) :=
  ⟨rfl, fun expr made => absurd made (notMade expr)⟩

theorem settle_pure (context : Context σ) (outcome : Outcome) :
    context.settle (pure outcome) = (context, outcome) := rfl

theorem settle_map {α : Type} (context : Context σ) (action : Action (Context σ) α)
    (outcome : α → Outcome) :
    context.settle (outcome <$> action) =
      match action context with
      | .ok result next => (next, outcome result)
      | .error error next => (next, .failed error) := by
  unfold settle
  rw [Action.map_apply]
  cases action context <;> rfl

theorem settle_call [Engine σ] (context : Context σ) (expr? : Operand → Option Expr)
    (call : Call) :
    context.settle (call.action expr?) =
      let plan := call.plan context.id expr?
      let result := plan.ending.follow context.id context.engine
      ({ context with
          engine := result.1
          widths := plan.registered.foldl Plan.register context.widths }, result.2) := by
  have followed := (⟨context, []⟩ : Session σ).perform_action expr? call
  unfold settle
  unfold Session.perform at followed
  cases acted : call.action expr? context with
  | ok outcome next | error error next =>
      simp only [acted, Session.follow, List.nil_append, Session.mk.injEq, List.cons.injEq,
        and_true] at followed
      exact Prod.ext followed.1 followed.2

end Context

theorem Session.perform_eq (session : Session σ) (action : Action (Context σ) Outcome) :
    session.perform action =
      ⟨(session.context.settle action).1,
        session.outcomes ++ [(session.context.settle action).2]⟩ := by
  unfold perform Context.settle
  cases action session.context <;> rfl

/-! ## Repertoires -/

/-- Every operand names an expression. -/
def Named (expr? : Operand → Option Expr) (operands : List Operand) : Prop :=
  ∀ operand ∈ operands, (expr? operand).isSome

/-- Every operand names an expression of the context under the position. -/
def Own (id : Nat) (expr? : Operand → Option Expr) (operands : List Operand) : Prop :=
  ∀ operand ∈ operands, ∃ expr, expr? operand = some expr ∧ expr.owner = id

/-- What contexts over `σ` can be asked to do. A step that names an expression nobody made is not
taken, a step that names an expression of another context is refused, and any other step depends
on the context and on the expressions it names. -/
structure Repertoire (σ ι : Type) where
  operands : ι → List Operand
  action : (Operand → Option Expr) → ι → Action (Context σ) Outcome
  skips : ∀ (context : Context σ) (expr? : Operand → Option Expr) (step : ι),
    ¬ Named expr? (operands step) → context.settle (action expr? step) = (context, .skipped)
  refuses : ∀ (context : Context σ) (expr? : Operand → Option Expr) (step : ι),
    Named expr? (operands step) → ¬ Own context.id expr? (operands step) →
      context.settle (action expr? step) = (context, .failed .foreignExpression)
  reads : ∀ (expr? other? : Operand → Option Expr) (step : ι),
    (∀ operand ∈ operands step, expr? operand = other? operand) →
      action expr? step = action other? step
  keeps : ∀ (context : Context σ) (expr? : Operand → Option Expr) (step : ι),
    context.Keeps (context.settle (action expr? step))

/-! ### Operands -/

section Names

variable {expr? other? : Operand → Option Expr} {operands : List Operand} {operand : Operand}
  {expr : Expr} {id : Nat}

theorem named_nil : Named expr? [] := by simp [Named]

theorem own_nil : Own id expr? [] := by simp [Own]

theorem named_singleton : Named expr? [operand] ↔ (expr? operand).isSome := by simp [Named]

theorem own_singleton (found : expr? operand = some expr) :
    Own id expr? [operand] ↔ expr.owner = id := by
  simp [Own, found]

theorem exists_mapM_of_named (named : Named expr? operands) :
    ∃ exprs, operands.mapM expr? = some exprs ∧
      (exprs.all (·.owner = id) ↔ Own id expr? operands) := by
  have each : ∀ operand ∈ operands, ∃ expr, expr? operand = some expr :=
    fun operand member => Option.isSome_iff_exists.mp (named operand member)
  rcases exists_forall₂ each with ⟨exprs, pairs⟩
  refine ⟨exprs, mapM_eq_some_iff.mpr pairs, ?_⟩
  simp only [List.all_eq_true, decide_eq_true_eq]
  constructor
  · intro all operand member
    rcases exists_of_mem_left pairs member with ⟨expr, inside, found⟩
    exact ⟨expr, found, all expr inside⟩
  · intro own expr inside
    rcases exists_of_mem_right pairs inside with ⟨operand, member, found⟩
    rcases own operand member with ⟨other, foundToo, owned⟩
    exact Option.some.inj (found.symm.trans foundToo) ▸ owned

theorem mapM_eq_none_of_unnamed (unnamed : ¬ Named expr? operands) :
    operands.mapM expr? = none := by
  rw [Option.eq_none_iff_forall_ne_some]
  intro exprs all
  refine unnamed fun operand member => ?_
  rcases exists_of_mem_left (mapM_eq_some_iff.mp all) member with ⟨expr, -, found⟩
  exact Option.isSome_of_eq_some found

end Names

/-! ### Calls -/

def Call.operands : Call → List Operand
  | .apply _ operands => operands
  | .simplify operand => [operand]
  | .bitsSort _ | .declare _ _ | .declareBits _ _ | .boolLiteral _ | .bitsLiteral _ _ => []

namespace Call

variable {expr? other? : Operand → Option Expr} {call : Call}

theorem plan_of_unnamed (id : Nat) (unnamed : ¬ Named expr? call.operands) :
    call.plan id expr? = { ending := .skip } := by
  cases call with
  | bitsSort | declare | declareBits | boolLiteral | bitsLiteral => exact absurd named_nil unnamed
  | apply operator operands =>
      have missing : operands.mapM expr? = none := mapM_eq_none_of_unnamed unnamed
      rw [plan, missing]
  | simplify operand =>
      have missing : expr? operand = none := by
        simpa [operands, named_singleton] using unnamed
      rw [plan, missing]

theorem plan_of_foreign {id : Nat} (named : Named expr? call.operands)
    (foreign : ¬ Own id expr? call.operands) :
    call.plan id expr? = { ending := .refuse .foreignExpression } := by
  cases call with
  | bitsSort | declare | declareBits | boolLiteral | bitsLiteral => exact absurd own_nil foreign
  | apply operator operands =>
      obtain ⟨exprs, all, owned⟩ : ∃ exprs, operands.mapM expr? = some exprs ∧
          (exprs.all (·.owner = id) ↔ Own id expr? operands) := exists_mapM_of_named named
      rw [plan, all]
      exact if_neg (mt owned.mp foreign)
  | simplify operand =>
      rcases Option.isSome_iff_exists.mp (named_singleton.mp named) with ⟨expr, found⟩
      rw [plan, found]
      exact if_neg (mt (own_singleton found).mpr foreign)

theorem action_eq_of_agree [Engine σ]
    (agree : ∀ operand ∈ call.operands, expr? operand = other? operand) :
    (call.action expr? : Action (Context σ) Outcome) = call.action other? := by
  cases call with
  | bitsSort | declare | declareBits | boolLiteral | bitsLiteral => rfl
  | apply operator operands =>
      have same : operands.mapM expr? = operands.mapM other? := mapM_congr agree
      simp only [action, same]
  | simplify operand => simp only [action, agree operand List.mem_cons_self]

theorem keeps_follow [Engine σ] (context : Context σ) (ending : Ending) (widths : Std.TreeSet Nat) :
    context.Keeps
      ({ context with engine := (ending.follow context.id context.engine).1, widths },
        (ending.follow context.id context.engine).2) := by
  refine ⟨rfl, fun expr made => ?_⟩
  cases ending with
  | skip | finish | refuse error => cases made
  | ask request sort =>
      simp only [Ending.follow] at made
      split at made
      · cases made
        rfl
      · cases made

end Call

def Repertoire.calls [Engine σ] : Repertoire σ Call where
  operands := Call.operands
  action := Call.action
  skips := fun context expr? call unnamed => by
    rw [Context.settle_call, Call.plan_of_unnamed context.id unnamed]
    rfl
  refuses := fun context expr? call named foreign => by
    rw [Context.settle_call, Call.plan_of_foreign named foreign]
    rfl
  reads := fun _ _ _ agree => Call.action_eq_of_agree agree
  keeps := fun context expr? call => by
    rw [Context.settle_call]
    exact Call.keeps_follow context _ _

/-! ### Turns -/

def Turn.operands : Turn → List Operand
  | .build call => call.operands
  | .assert operand | .modelValue operand => [operand]
  | .push | .pop | .check => []

namespace Context

variable {α : Type} {context : Context Solver}

theorem keeps_onChannel (action : Action Channel α) (outcome : α → Outcome)
    (notMade : ∀ result expr, outcome result ≠ .made expr) :
    context.Keeps (context.settle (outcome <$> onEngine (Solver.onChannel action))) := by
  rw [settle_map, onChannel_apply]
  cases action context.engine.channel with
  | ok result channel => exact ⟨rfl, fun expr made => absurd made (notMade result expr)⟩
  | error error channel => exact ⟨rfl, by simp⟩

theorem settle_assert_of_foreign {expr : Expr} (foreign : expr.owner ≠ context.id) :
    context.settle ((fun _ => .done) <$> assert expr) =
      (context, .failed .foreignExpression) := by
  rw [settle_map, assert_apply, if_neg foreign]

theorem settle_modelValue_of_foreign {expr : Expr} (foreign : expr.owner ≠ context.id) :
    context.settle (.made <$> modelValue expr) = (context, .failed .foreignExpression) := by
  rw [settle_map, modelValue_apply, if_neg foreign]

theorem keeps_assert (expr : Expr) :
    context.Keeps (context.settle ((fun _ => .done) <$> assert expr)) := by
  by_cases own : expr.owner = context.id
  · have kept : context.Keeps (context.settle ((fun _ => .done) <$> onEngine (Solver.onChannel
        (Channel.acknowledge (.assert (context.engine.text expr.term)))))) :=
      keeps_onChannel _ _ (by simp)
    rw [settle_map] at kept ⊢
    rwa [assert_apply, if_pos own]
  · rw [settle_assert_of_foreign own]
    exact context.keeps_self (by simp)

theorem keeps_modelValue (expr : Expr) :
    context.Keeps (context.settle (.made <$> modelValue expr)) := by
  by_cases own : expr.owner = context.id
  · rw [settle_map, modelValue_apply, if_pos own, Action.bind_apply, onEngine_apply]
    cases Solver.modelValue expr.term expr.sort context.engine with
    | ok term engine =>
        refine ⟨rfl, fun made same => ?_⟩
        cases same
        rfl
    | error error engine => exact ⟨rfl, by simp⟩
  · rw [settle_modelValue_of_foreign own]
    exact context.keeps_self (by simp)

end Context

namespace Turn

variable {expr? other? : Operand → Option Expr} {turn : Turn}

theorem settle_of_unnamed (context : Context Solver) (unnamed : ¬ Named expr? turn.operands) :
    context.settle (turn.action expr?) = (context, .skipped) := by
  cases turn with
  | push | pop | check => exact absurd named_nil unnamed
  | build call => exact Repertoire.calls.skips context expr? call unnamed
  | assert operand | modelValue operand =>
      have missing : expr? operand = none := by
        simpa [operands, named_singleton] using unnamed
      simp only [action, missing, Context.settle_pure]

theorem settle_of_foreign {context : Context Solver} (named : Named expr? turn.operands)
    (foreign : ¬ Own context.id expr? turn.operands) :
    context.settle (turn.action expr?) = (context, .failed .foreignExpression) := by
  cases turn with
  | push | pop | check => exact absurd own_nil foreign
  | build call => exact Repertoire.calls.refuses context expr? call named foreign
  | assert operand =>
      rcases Option.isSome_iff_exists.mp (named_singleton.mp named) with ⟨expr, found⟩
      simp only [action, found]
      exact Context.settle_assert_of_foreign (mt (own_singleton found).mpr foreign)
  | modelValue operand =>
      rcases Option.isSome_iff_exists.mp (named_singleton.mp named) with ⟨expr, found⟩
      simp only [action, found]
      exact Context.settle_modelValue_of_foreign (mt (own_singleton found).mpr foreign)

theorem action_eq_of_agree (agree : ∀ operand ∈ turn.operands, expr? operand = other? operand) :
    turn.action expr? = turn.action other? := by
  cases turn with
  | push | pop | check => rfl
  | build call => exact Call.action_eq_of_agree agree
  | assert operand | modelValue operand => simp only [action, agree operand List.mem_cons_self]

theorem keeps_settle (context : Context Solver) (expr? : Operand → Option Expr) (turn : Turn) :
    context.Keeps (context.settle (turn.action expr?)) := by
  cases turn with
  | build call => exact Repertoire.calls.keeps context expr? call
  | push | pop | check => exact Context.keeps_onChannel _ _ (by simp)
  | assert operand =>
      simp only [action]
      cases expr? operand with
      | none =>
          rw [Context.settle_pure]
          exact context.keeps_self (by simp)
      | some expr => exact Context.keeps_assert expr
  | modelValue operand =>
      simp only [action]
      cases expr? operand with
      | none =>
          rw [Context.settle_pure]
          exact context.keeps_self (by simp)
      | some expr => exact Context.keeps_modelValue expr

end Turn

def Repertoire.turns : Repertoire Solver Turn where
  operands := Turn.operands
  action := Turn.action
  skips := fun context _ _ unnamed => Turn.settle_of_unnamed context unnamed
  refuses := fun _ _ _ named foreign => Turn.settle_of_foreign named foreign
  reads := fun _ _ _ agree => Turn.action_eq_of_agree agree
  keeps := Turn.keeps_settle

end BitTerms
