import BitTerms.Context
import BitTerms.Proofs.Action
import BitTerms.Proofs.Operator.Refusals
import BitTerms.Proofs.Pattern.Bounds
import BitTerms.Proofs.Pointwise

/-!
# Sessions

A session makes calls of one context, one after the other, and keeps what came of each. A call
names its operands by the earlier calls that made them, so that one sequence of calls can be made
of any context over any engine.

Everything a call does before and after it reaches the engine is worked out once, in `Call.plan`:
which sorts are registered, and which request goes to the engine. What an engine keeps at every
proper request, `Engine.Keeps`, a whole session keeps.
-/

namespace BitTerms

def Width.byte : Width := ⟨8, by decide, by decide⟩

/-! ## Calls -/

inductive Operand where
  /-- What an earlier call made. -/
  | made (call : Nat)
  /-- An expression of some other context. -/
  | foreign (sort : SmtSort) (term : Nat)

/-- A call that makes a sort or an expression. -/
inductive Call where
  | bitsSort (bits : Nat)
  | declare (name : String) (sort : SmtSort)
  | declareBits (name : String) (bits : Nat)
  | boolLiteral (value : Bool)
  | bitsLiteral (value : Int) (bits : Nat)
  | apply (operator : Operator) (operands : List Operand)
  | simplify (operand : Operand)

inductive Outcome where
  | made (expr : Expr)
  | done
  | answered (response : Response)
  | failed (error : Error)
  /-- The call was not made, because an earlier call did not make one of its operands. -/
  | skipped
deriving DecidableEq

/-- A context with what came of the calls made so far. -/
structure Session (σ : Type) where
  context : Context σ
  outcomes : List Outcome := []

variable {σ : Type}

def Call.action [Engine σ] (expr? : Operand → Option Expr) :
    Call → Action (Context σ) Outcome
  | .bitsSort bits => do
    let _ ← Context.bitsSort bits
    return .done
  | .declare name sort => .made <$> Context.declare name sort
  | .declareBits name bits => .made <$> Context.declareBits name bits
  | .boolLiteral value => .made <$> Context.boolLiteral value
  | .bitsLiteral value bits => .made <$> Context.bitsLiteral value bits
  | .apply operator operands =>
    match operands.mapM expr? with
    | some exprs => .made <$> Context.apply operator exprs
    | none => return .skipped
  | .simplify operand =>
    match expr? operand with
    | some expr => .made <$> Context.simplify expr
    | none => return .skipped

namespace Session

def start (id : Nat) (engine : σ) : Session σ := { context := { id, engine } }

def expr? (session : Session σ) : Operand → Option Expr
  | .made call =>
    match session.outcomes[call]? with
    | some (.made expr) => some expr
    | _ => none
  | .foreign sort term => some { owner := session.context.id + 1, sort, term }

/-- An operand that names a call stands for the expression that the call made. -/
theorem made_at_iff {outcomes : List Outcome} {call : Nat} {expr : Expr} :
    (match outcomes[call]? with
      | some (.made expr) => some expr
      | _ => none) = some expr ↔ outcomes[call]? = some (.made expr) := by
  cases outcomes[call]? with
  | none => simp
  | some outcome => cases outcome <;> simp

theorem expr?_made_iff {session : Session σ} {call : Nat} {expr : Expr} :
    session.expr? (.made call) = some expr ↔ session.outcomes[call]? = some (.made expr) :=
  made_at_iff

def perform (session : Session σ) (action : Action (Context σ) Outcome) : Session σ :=
  match action session.context with
  | .ok outcome context => ⟨context, session.outcomes ++ [outcome]⟩
  | .error error context => ⟨context, session.outcomes ++ [.failed error]⟩

variable [Engine σ]

def call (session : Session σ) (call : Call) : Session σ :=
  session.perform (call.action session.expr?)

def run (session : Session σ) (calls : List Call) : Session σ := calls.foldl call session

end Session

/-! ## Plans -/

/-- What a context asks its engine for. -/
inductive Request where
  | declare (name : String)
  | bitsLiteral (width : Width) (pattern : Nat)
  | boolLiteral (value : Bool)
  | apply (operator : Operator) (operands : List Expr)
  | simplify (operand : Expr)

def Request.run [Engine σ] (sort : SmtSort) : Request → Action σ Nat
  | .declare name => Engine.declare name sort
  | .bitsLiteral width pattern => Engine.bitsLiteral width pattern
  | .boolLiteral value => Engine.boolLiteral value
  | .apply operator operands => Engine.apply operator (operands.map Expr.term) sort
  | .simplify operand => Engine.simplify operand.term

/-- How a call goes on when the sorts are registered. -/
inductive Ending where
  | skip
  | finish
  | refuse (error : Error)
  | ask (request : Request) (sort : SmtSort)

/-- What a context does at a call. -/
structure Plan where
  registered : List SmtSort := []
  ending : Ending

def Plan.ofWidth (bits : Nat) (plan : Width → Plan) : Plan :=
  match Width.ofNat bits with
  | .ok width => plan width
  | .error error => { ending := .refuse error }

def Call.plan (id : Nat) (expr? : Operand → Option Expr) : Call → Plan
  | .bitsSort bits =>
    .ofWidth bits fun width => { registered := [.bits width], ending := .finish }
  | .declare name sort => { registered := [sort], ending := .ask (.declare name) sort }
  | .declareBits name bits =>
    .ofWidth bits fun width =>
      { registered := [.bits width, .bits width], ending := .ask (.declare name) (.bits width) }
  | .boolLiteral value => { ending := .ask (.boolLiteral value) .bool }
  | .bitsLiteral value bits =>
    .ofWidth bits fun width =>
      { registered := [.bits width]
        ending := .ask (.bitsLiteral width (Pattern.ofInt width.bits value)) (.bits width) }
  | .apply operator operands =>
    match operands.mapM expr? with
    | none => { ending := .skip }
    | some exprs =>
      if exprs.all (·.owner = id) then
        match operator.resultSort (exprs.map Expr.sort) with
        | .ok sort => { registered := [sort], ending := .ask (.apply operator exprs) sort }
        | .error error => { ending := .refuse error }
      else
        { ending := .refuse .foreignExpression }
  | .simplify operand =>
    match expr? operand with
    | none => { ending := .skip }
    | some expr =>
      if expr.owner = id then
        { ending := .ask (.simplify expr) expr.sort }
      else
        { ending := .refuse .foreignExpression }

def Plan.register (widths : Std.TreeSet Nat) : SmtSort → Std.TreeSet Nat
  | .bits width => widths.insert width.bits
  | .bool | .int => widths

def Ending.follow [Engine σ] (id : Nat) (engine : σ) : Ending → σ × Outcome
  | .skip => (engine, .skipped)
  | .finish => (engine, .done)
  | .refuse error => (engine, .failed error)
  | .ask request sort =>
    match request.run sort engine with
    | .ok term engine => (engine, .made { owner := id, sort, term })
    | .error error engine => (engine, .failed error)

def Session.follow [Engine σ] (session : Session σ) (plan : Plan) : Session σ :=
  let result := plan.ending.follow session.context.id session.context.engine
  { context :=
      { session.context with
        engine := result.1
        widths := plan.registered.foldl Plan.register session.context.widths }
    outcomes := session.outcomes ++ [result.2] }

/-! ## Refusals -/

theorem Plan.refused_ofWidth {bits : Nat} {plan : Width → Plan} {error : Error}
    (goesOn : ∀ width, (plan width).ending ≠ .refuse error)
    (refused : (Plan.ofWidth bits plan).ending = .refuse error) :
    (Plan.ofWidth bits plan).registered = [] ∧ Width.ofNat bits = .error error := by
  unfold Plan.ofWidth at refused ⊢
  cases valid : Width.ofNat bits with
  | ok width =>
      rw [valid] at refused
      exact absurd refused (goesOn width)
  | error other =>
      rw [valid] at refused
      cases refused
      exact ⟨rfl, rfl⟩

/-- What a context refuses without asking its engine, and then without registering a sort. -/
theorem Call.isRefusal_of_refuse {call : Call} {id : Nat} {expr? : Operand → Option Expr}
    {error : Error} (refused : (call.plan id expr?).ending = .refuse error) :
    (call.plan id expr?).registered = [] ∧ error.IsRefusal := by
  cases call with
  | bitsSort bits | declareBits _ bits | bitsLiteral _ bits =>
      rcases Plan.refused_ofWidth (by simp) refused with ⟨none, invalid⟩
      have refuses := Width.refuses_ofNat bits
      rw [invalid] at refuses
      exact ⟨none, refuses⟩
  | declare | boolLiteral => cases refused
  | apply operator operands =>
      simp only [Call.plan] at refused ⊢
      cases named : operands.mapM expr? with
      | none => simp [named] at refused
      | some exprs =>
          simp only [named] at refused ⊢
          split at refused
          case isFalse foreign =>
              cases refused
              rw [if_neg foreign]
              exact ⟨rfl, trivial⟩
          case isTrue own =>
              rw [if_pos own]
              have refuses := operator.refuses_resultSort (exprs.map Expr.sort)
              cases rule : operator.resultSort (exprs.map Expr.sort) with
              | ok sort => simp [rule] at refused
              | error other =>
                  rw [rule] at refused refuses
                  cases refused
                  exact ⟨rfl, refuses⟩
  | simplify operand =>
      simp only [Call.plan] at refused ⊢
      cases named : expr? operand with
      | none => simp [named] at refused
      | some expr =>
          simp only [named] at refused ⊢
          split at refused
          case isTrue => cases refused
          case isFalse foreign =>
              cases refused
              rw [if_neg foreign]
              exact ⟨rfl, trivial⟩

/-! ## Requests of calls -/

/-- A call registers the sorts and asks the engine for the request, at the sort. -/
inductive Call.Asks (id : Nat) (expr? : Operand → Option Expr) :
    Call → List SmtSort → Request → SmtSort → Prop
  | declare (name : String) (sort : SmtSort) :
      Asks id expr? (.declare name sort) [sort] (.declare name) sort
  | declareBits (name : String) (bits : Nat) (width : Width)
      (valid : Width.ofNat bits = .ok width) :
      Asks id expr? (.declareBits name bits) [.bits width, .bits width] (.declare name)
        (.bits width)
  | boolLiteral (value : Bool) :
      Asks id expr? (.boolLiteral value) [] (.boolLiteral value) .bool
  | bitsLiteral (value : Int) (bits : Nat) (width : Width) (valid : Width.ofNat bits = .ok width) :
      Asks id expr? (.bitsLiteral value bits) [.bits width]
        (.bitsLiteral width (Pattern.ofInt width.bits value)) (.bits width)
  | apply (operator : Operator) (operands : List Operand) (exprs : List Expr) (sort : SmtSort)
      (named : operands.mapM expr? = some exprs) (own : exprs.all (·.owner = id))
      (typed : operator.resultSort (exprs.map Expr.sort) = .ok sort) :
      Asks id expr? (.apply operator operands) [sort] (.apply operator exprs) sort
  | simplify (operand : Operand) (expr : Expr) (named : expr? operand = some expr)
      (own : expr.owner = id) :
      Asks id expr? (.simplify operand) [] (.simplify expr) expr.sort

theorem Call.asks_of_plan {call : Call} {id : Nat} {expr? : Operand → Option Expr}
    {request : Request} {sort : SmtSort}
    (planned : (call.plan id expr?).ending = .ask request sort) :
    call.Asks id expr? (call.plan id expr?).registered request sort := by
  cases call with
  | declare name given =>
      cases planned
      exact .declare name sort
  | boolLiteral value =>
      cases planned
      exact .boolLiteral value
  | bitsSort bits =>
      simp only [plan, Plan.ofWidth] at planned
      split at planned <;> cases planned
  | declareBits name bits =>
      simp only [plan, Plan.ofWidth] at planned ⊢
      cases valid : Width.ofNat bits with
      | error error => simp [valid] at planned
      | ok width =>
          rw [valid] at planned
          cases planned
          exact .declareBits name bits width valid
  | bitsLiteral value bits =>
      simp only [plan, Plan.ofWidth] at planned ⊢
      cases valid : Width.ofNat bits with
      | error error => simp [valid] at planned
      | ok width =>
          rw [valid] at planned
          cases planned
          exact .bitsLiteral value bits width valid
  | apply operator operands =>
      simp only [plan] at planned ⊢
      cases named : operands.mapM expr? with
      | none => simp [named] at planned
      | some exprs =>
          simp only [named] at planned ⊢
          split at planned
          case isFalse => cases planned
          case isTrue own =>
              rw [if_pos own]
              cases typed : operator.resultSort (exprs.map Expr.sort) with
              | error error => simp [typed] at planned
              | ok result =>
                  simp only [typed] at planned ⊢
                  cases planned
                  exact .apply operator operands exprs sort named own typed
  | simplify operand =>
      simp only [plan] at planned ⊢
      cases named : expr? operand with
      | none => simp [named] at planned
      | some expr =>
          simp only [named] at planned ⊢
          split at planned
          case isFalse => cases planned
          case isTrue own =>
              rw [if_pos own]
              cases planned
              exact .simplify operand expr named own

theorem Call.ne_simplify_of_asks {call : Call} {id : Nat} {expr? : Operand → Option Expr}
    {request : Request} {sort : SmtSort} (notSimplified : ∀ operand, call ≠ .simplify operand)
    (planned : (call.plan id expr?).ending = .ask request sort) (operand : Expr) :
    request ≠ .simplify operand := by
  rintro rfl
  have asked := asks_of_plan planned
  generalize (call.plan id expr?).registered = registered at asked
  cases asked
  exact notSimplified _ rfl

/-! ## Calls follow their plans -/

namespace Context

theorem register_apply (sort : SmtSort) (context : Context σ) :
    register sort context =
      .ok () { context with widths := Plan.register context.widths sort } := by
  cases sort <;> rfl

theorem bitsSort_apply (bits : Nat) (context : Context σ) :
    bitsSort bits context =
      match Width.ofNat bits with
      | .ok width =>
        .ok width { context with widths := Plan.register context.widths (.bits width) }
      | .error error => .error error context := by
  unfold bitsSort
  rw [Action.bind_apply]
  cases Width.ofNat bits <;> rfl

theorem onEngine_apply {α : Type} (action : Action σ α) (context : Context σ) :
    onEngine action context =
      match action context.engine with
      | .ok result engine => .ok result { context with engine }
      | .error error engine => .error error { context with engine } := rfl

theorem checkOwners_apply (operands : List Expr) (context : Context σ) :
    checkOwners operands context =
      if operands.all (·.owner = context.id) then .ok () context
      else .error .foreignExpression context := by
  unfold checkOwners
  rw [Action.bind_apply, Action.get_apply]
  dsimp only
  split <;> rfl

variable [Engine σ]

theorem wrap_onEngine_apply (request : Request) (sort : SmtSort) (context : Context σ) :
    (onEngine (request.run sort) >>= wrap sort) context =
      match request.run sort context.engine with
      | .ok term engine => .ok { owner := context.id, sort, term } { context with engine }
      | .error error engine => .error error { context with engine } := by
  rw [Action.bind_apply, onEngine_apply]
  cases request.run sort context.engine <;> rfl

theorem ends_wrap_iff {made : Expr → Context σ → Prop} {failed : Error → Context σ → Prop}
    (request : Request) (sort : SmtSort) (context : Context σ) :
    Action.Ends made failed ((onEngine (request.run sort) >>= wrap sort) context) ↔
      Action.Ends (fun term engine => made ⟨context.id, sort, term⟩ { context with engine })
        (fun error engine => failed error { context with engine })
        (request.run sort context.engine) := by
  rw [wrap_onEngine_apply]
  cases request.run sort context.engine <;> rfl

theorem declare_apply (name : String) (sort : SmtSort) (context : Context σ) :
    declare name sort context =
      (onEngine ((Request.declare name).run sort) >>= wrap sort)
        { context with widths := Plan.register context.widths sort } := by
  unfold declare
  rw [Action.bind_apply, register_apply]
  rfl

theorem apply_of_foreign {operator : Operator} {operands : List Expr} {context : Context σ}
    (foreign : ¬ operands.all (·.owner = context.id)) :
    apply operator operands context = .error .foreignExpression context := by
  unfold apply
  rw [Action.bind_apply, checkOwners_apply, if_neg foreign]

theorem apply_of_own (operator : Operator) {operands : List Expr} {context : Context σ}
    (own : operands.all (·.owner = context.id)) :
    apply operator operands context =
      match operator.resultSort (operands.map Expr.sort) with
      | .ok sort =>
        (onEngine ((Request.apply operator operands).run sort) >>= wrap sort)
          { context with widths := Plan.register context.widths sort }
      | .error error => .error error context := by
  unfold apply
  rw [Action.bind_apply, checkOwners_apply, if_pos own]
  dsimp only
  rw [Action.bind_apply]
  cases operator.resultSort (operands.map Expr.sort) with
  | ok sort =>
      rw [Action.lift_ok_apply]
      dsimp only
      rw [Action.bind_apply, register_apply]
      rfl
  | error error => rfl

theorem simplify_eq (expr : Expr) (context : Context σ) :
    simplify expr context =
      if expr.owner = context.id then
        (onEngine ((Request.simplify expr).run expr.sort) >>= wrap expr.sort) context
      else
        .error .foreignExpression context := by
  unfold simplify
  rw [Action.bind_apply, checkOwners_apply]
  by_cases own : expr.owner = context.id
  · rw [if_pos (by simpa using own), if_pos own]
    rfl
  · rw [if_neg (by simpa using own), if_neg own]

theorem ends_simplify_iff {made : Expr → Context σ → Prop} {failed : Error → Context σ → Prop}
    {expr : Expr} {context : Context σ} (own : expr.owner = context.id) :
    Action.Ends made failed (simplify expr context) ↔
      Action.Ends (fun term engine => made ⟨context.id, expr.sort, term⟩ { context with engine })
        (fun error engine => failed error { context with engine })
        (Engine.simplify expr.term context.engine) := by
  rw [simplify_eq, if_pos own]
  exact ends_wrap_iff (.simplify expr) expr.sort context

end Context

namespace Session

variable [Engine σ]

theorem perform_ask (session : Session σ) (registered : List SmtSort) (request : Request)
    (sort : SmtSort) (action : Action (Context σ) Expr)
    (same : action session.context =
      (Context.onEngine (request.run sort) >>= Context.wrap sort)
        { session.context with
          widths := registered.foldl Plan.register session.context.widths }) :
    session.perform (.made <$> action) =
      session.follow { registered, ending := .ask request sort } := by
  unfold perform
  rw [Action.map_apply, same, Context.wrap_onEngine_apply]
  simp only [follow, Ending.follow]
  cases request.run sort session.context.engine <;> rfl

theorem perform_refuse (session : Session σ) {action : Action (Context σ) Expr}
    {error : Error} (refused : action session.context = .error error session.context) :
    session.perform (.made <$> action) = session.follow { ending := .refuse error } := by
  unfold perform
  rw [Action.map_apply, refused]
  rfl

theorem perform_action (session : Session σ) (expr? : Operand → Option Expr) (call : Call) :
    session.perform (call.action expr?) = session.follow (call.plan session.context.id expr?) := by
  cases call with
  | bitsSort bits =>
      simp only [Call.action, Call.plan, Plan.ofWidth, perform]
      rw [Action.bind_apply, Context.bitsSort_apply]
      cases Width.ofNat bits <;> rfl
  | declare name sort => exact session.perform_ask [sort] _ _ _ (Context.declare_apply _ _ _)
  | declareBits name bits =>
      simp only [Call.action, Call.plan, Plan.ofWidth]
      cases valid : Width.ofNat bits with
      | ok width =>
          refine session.perform_ask [.bits width, .bits width] _ _ _ ?_
          unfold Context.declareBits
          rw [Action.bind_apply, Context.bitsSort_apply, valid]
          exact Context.declare_apply _ _ _
      | error error =>
          refine session.perform_refuse ?_
          unfold Context.declareBits
          rw [Action.bind_apply, Context.bitsSort_apply, valid]
  | boolLiteral value => exact session.perform_ask [] (.boolLiteral value) .bool _ rfl
  | bitsLiteral value bits =>
      simp only [Call.action, Call.plan, Plan.ofWidth]
      cases valid : Width.ofNat bits with
      | ok width =>
          refine session.perform_ask [.bits width] _ _ _ ?_
          unfold Context.bitsLiteral
          rw [Action.bind_apply, Context.bitsSort_apply, valid]
          rfl
      | error error =>
          refine session.perform_refuse ?_
          unfold Context.bitsLiteral
          rw [Action.bind_apply, Context.bitsSort_apply, valid]
  | apply operator operands =>
      simp only [Call.action, Call.plan]
      cases named : operands.mapM expr? with
      | none => rfl
      | some exprs =>
          dsimp only
          by_cases own : exprs.all (·.owner = session.context.id)
          · have applied := Context.apply_of_own operator own
            rw [if_pos own]
            cases typed : operator.resultSort (exprs.map Expr.sort) with
            | ok sort =>
                rw [typed] at applied
                exact session.perform_ask [sort] _ _ _ applied
            | error error =>
                rw [typed] at applied
                exact session.perform_refuse applied
          · rw [if_neg own]
            exact session.perform_refuse (Context.apply_of_foreign own)
  | simplify operand =>
      simp only [Call.action, Call.plan]
      cases named : expr? operand with
      | none => rfl
      | some expr =>
          dsimp only
          have simplified := Context.simplify_eq expr session.context
          by_cases own : expr.owner = session.context.id
          · rw [if_pos own] at simplified ⊢
            exact session.perform_ask [] _ _ _ simplified
          · rw [if_neg own] at simplified ⊢
            exact session.perform_refuse simplified

theorem call_eq (session : Session σ) (call : Call) :
    session.call call = session.follow (call.plan session.context.id session.expr?) :=
  session.perform_action session.expr? call

end Session

/-! ## What sessions keep -/

/-- The operands of a request are typed, and the sort is the one that goes with them. -/
def Request.Proper (typed : Nat → SmtSort → Prop) (sort : SmtSort) : Request → Prop
  | .declare _ => True
  | .bitsLiteral width pattern => sort = .bits width ∧ pattern < 2 ^ width.bits
  | .boolLiteral _ => sort = .bool
  | .apply operator operands =>
    operator.Types (operands.map Expr.sort) sort ∧
      ∀ operand ∈ operands, typed operand.term operand.sort
  | .simplify operand => sort = operand.sort ∧ typed operand.term operand.sort

/-- The engine keeps an invariant of its state and the sorts of its terms at every proper request,
whether it succeeds or fails, and what a request makes has the sort asked for. -/
structure Engine.Keeps [Engine σ] (inv : σ → Prop) (typed : σ → Nat → SmtSort → Prop) : Prop where
  request : ∀ {state : σ} {request : Request} {sort : SmtSort}, inv state →
    request.Proper (typed state) sort →
    Action.Ends
      (fun term next => inv next ∧ typed next term sort ∧
        ∀ term sort, typed state term sort → typed next term sort)
      (fun _ next => inv next ∧ ∀ term sort, typed state term sort → typed next term sort)
      (request.run sort state)

namespace Session

/-- The invariant holds for the engine, and the expressions made so far are the context's own and
have their sorts. -/
structure Holds (inv : σ → Prop) (typed : σ → Nat → SmtSort → Prop) (session : Session σ) :
    Prop where
  engine : inv session.context.engine
  own : ∀ expr, .made expr ∈ session.outcomes → expr.owner = session.context.id
  exprs : ∀ expr, .made expr ∈ session.outcomes →
    typed session.context.engine expr.term expr.sort

theorem holds_start {inv : σ → Prop} {typed : σ → Nat → SmtSort → Prop} (id : Nat) {engine : σ}
    (initially : inv engine) : (start id engine).Holds inv typed :=
  ⟨initially, by simp [start], by simp [start]⟩

theorem made_of_expr? {session : Session σ} {operand : Operand} {expr : Expr}
    (named : session.expr? operand = some expr) (own : expr.owner = session.context.id) :
    .made expr ∈ session.outcomes := by
  cases operand with
  | made call => exact List.mem_of_getElem? (expr?_made_iff.mp named)
  | foreign sort term =>
      cases named
      simp at own

variable {inv : σ → Prop} {typed : σ → Nat → SmtSort → Prop} {session : Session σ}

theorem Holds.proper (holds : session.Holds inv typed) {call : Call} {request : Request}
    {sort : SmtSort}
    (asks : (call.plan session.context.id session.expr?).ending = .ask request sort) :
    request.Proper (typed session.context.engine) sort := by
  have asked := Call.asks_of_plan asks
  generalize (call.plan session.context.id session.expr?).registered = registered at asked
  cases asked with
  | declare | declareBits => trivial
  | boolLiteral value => rfl
  | bitsLiteral value bits width => exact ⟨rfl, Pattern.ofInt_lt _ _⟩
  | apply operator operands exprs _ named own rule =>
      refine ⟨Operator.resultSort_eq_ok_iff.mp rule, fun expr member => ?_⟩
      have isOwn : expr.owner = session.context.id := by
        simpa using List.all_eq_true.mp own expr member
      rcases exists_of_mem_right (mapM_eq_some_iff.mp named) member with ⟨operand, -, found⟩
      exact holds.exprs expr (made_of_expr? found isOwn)
  | simplify operand expr named own => exact ⟨rfl, holds.exprs expr (made_of_expr? named own)⟩

variable [Engine σ]

theorem id_call (session : Session σ) (call : Call) :
    (session.call call).context.id = session.context.id := by
  rw [call_eq]
  rfl

theorem id_run (session : Session σ) (calls : List Call) :
    (session.run calls).context.id = session.context.id := by
  induction calls generalizing session with
  | nil => rfl
  | cons call rest induction => exact (induction (session.call call)).trans (session.id_call call)

/-- A call keeps what its request keeps. -/
theorem Holds.call_of_ends (holds : session.Holds inv typed) (call : Call)
    (ends : ∀ request sort,
      (call.plan session.context.id session.expr?).ending = .ask request sort →
        Action.Ends
          (fun term next => inv next ∧ typed next term sort ∧
            ∀ term sort, typed session.context.engine term sort → typed next term sort)
          (fun _ next => inv next ∧
            ∀ term sort, typed session.context.engine term sort → typed next term sort)
          (request.run sort session.context.engine)) :
    (session.call call).Holds inv typed := by
  rw [call_eq]
  cases ending : (call.plan session.context.id session.expr?).ending with
  | skip | finish | refuse error =>
      simp only [follow, ending, Ending.follow]
      refine ⟨holds.engine, fun expr member => ?_, fun expr member => ?_⟩
      · exact holds.own expr (by simpa using member)
      · exact holds.exprs expr (by simpa using member)
  | ask request sort =>
      have kept := ends request sort ending
      simp only [follow, ending, Ending.follow]
      cases answered : request.run sort session.context.engine with
      | ok term engine =>
          rw [answered, Action.ends_ok] at kept
          rcases kept with ⟨invNext, sorted, stays⟩
          refine ⟨invNext, fun expr member => ?_, fun expr member => ?_⟩
          all_goals
            simp only [List.mem_append, List.mem_singleton, Outcome.made.injEq] at member
            rcases member with earlier | rfl
          · exact holds.own expr earlier
          · rfl
          · exact stays _ _ (holds.exprs expr earlier)
          · exact sorted
      | error error engine =>
          rw [answered, Action.ends_error] at kept
          refine ⟨kept.1, fun expr member => ?_, fun expr member => ?_⟩
          · exact holds.own expr (by simpa using member)
          · exact kept.2 _ _ (holds.exprs expr (by simpa using member))

theorem Holds.call (holds : session.Holds inv typed) (keeps : Engine.Keeps inv typed)
    (call : Call) : (session.call call).Holds inv typed :=
  holds.call_of_ends call fun _ _ asks => keeps.request holds.engine (holds.proper asks)

/-- What the engine keeps at every request, it keeps in every session. -/
theorem Holds.run (holds : session.Holds inv typed) (keeps : Engine.Keeps inv typed)
    (calls : List Call) : (session.run calls).Holds inv typed := by
  induction calls generalizing session with
  | nil => exact holds
  | cons call rest induction => exact induction (holds.call keeps call)

end Session

end BitTerms
