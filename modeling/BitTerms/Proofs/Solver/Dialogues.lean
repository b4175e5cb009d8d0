import BitTerms.Proofs.Session
import BitTerms.Proofs.Solver.Drafts
import BitTerms.Proofs.Solver.Steps

/-!
# Dialogues with a solver

A dialogue is a session in which the calls that make expressions alternate with what only a context
with a solver has: assertion levels, assertions, checks and values of the model.

What one turn can do is said once, in `Turned`: which terms are there afterwards, what was sent to
the solver, and which variable it was told about.
-/

namespace BitTerms

/-! ## Turns -/

/-- A turn of a dialogue. -/
inductive Turn where
  | build (call : Call)
  | push
  | pop
  | assert (condition : Operand)
  | check
  | modelValue (operand : Operand)

def Turn.action (expr? : Operand → Option Expr) : Turn → Action (Context Solver) Outcome
  | .build call => call.action expr?
  | .push => (fun _ => .done) <$> Context.push
  | .pop => (fun _ => .done) <$> Context.pop
  | .assert condition =>
    match expr? condition with
    | some expr => (fun _ => .done) <$> Context.assert expr
    | none => return .skipped
  | .check => .answered <$> Context.check
  | .modelValue operand =>
    match expr? operand with
    | some expr => .made <$> Context.modelValue expr
    | none => return .skipped

namespace Session

def turn (session : Session Solver) (turn : Turn) : Session Solver :=
  session.perform (turn.action session.expr?)

def converse (session : Session Solver) (turns : List Turn) : Session Solver :=
  turns.foldl turn session

theorem turn_build (session : Session Solver) (call : Call) :
    session.turn (.build call) = session.call call := rfl

theorem turn_push (session : Session Solver) :
    session.turn .push = session.perform ((fun _ => .done) <$> Context.push) := rfl

theorem turn_pop (session : Session Solver) :
    session.turn .pop = session.perform ((fun _ => .done) <$> Context.pop) := rfl

theorem converse_append (session : Session Solver) (turns : List Turn) (last : Turn) :
    session.converse (turns ++ [last]) = (session.converse turns).turn last :=
  List.foldl_append

end Session

/-! ## Declarations -/

def Call.declares? : Call → Option (String × SmtSort)
  | .declare name sort => some (name, sort)
  | .declareBits name bits => (Width.ofNat bits).toOption.map fun width => (name, .bits width)
  | _ => none

def Turn.declares? : Turn → Option (String × SmtSort)
  | .build call => call.declares?
  | _ => none

/-- The calls that declare a variable are those that ask the engine to. -/
theorem Call.declares?_eq_some_iff {call : Call} {id : Nat} {expr? : Operand → Option Expr}
    {name : String} {sort : SmtSort} :
    call.declares? = some (name, sort) ↔
      (call.plan id expr?).ending = .ask (.declare name) sort := by
  constructor
  · intro declares
    cases call with
    | declare other otherSort => simpa [declares?, plan] using declares
    | declareBits other bits =>
        simp only [declares?, plan, Plan.ofWidth] at declares ⊢
        cases valid : Width.ofNat bits with
        | error error => simp [valid, Except.toOption] at declares
        | ok width => simpa [valid, Except.toOption] using declares
    | bitsSort | boolLiteral | bitsLiteral | apply | simplify => cases declares
  · intro asks
    have asked := asks_of_plan asks
    generalize (call.plan id expr?).registered = registered at asked
    cases asked with
    | declare => rfl
    | declareBits name bits width valid => simp [declares?, valid, Except.toOption]

theorem Call.declares?_eq_none {call : Call} {id : Nat} {expr? : Operand → Option Expr}
    {ending : Ending} (planned : (call.plan id expr?).ending = ending)
    (others : ∀ name sort, ending ≠ .ask (.declare name) sort) : call.declares? = none := by
  rw [Option.eq_none_iff_forall_ne_some]
  rintro ⟨name, sort⟩ declares
  exact others name sort (planned.symm.trans (declares?_eq_some_iff.mp declares))

/-! ## Requests -/

namespace Solver

/-- The table is well formed, and the symbols of the declared variables are in it. -/
structure Consistent (solver : Solver) : Prop where
  shared : solver.terms.WellFormed
  declared : ∀ {name : String} {sort : SmtSort} {term : Nat},
    solver.declared[name]? = some (sort, term) →
      solver.terms.nodes[term]? = some ⟨.symbol (Symbol.text name), []⟩

def Has (solver : Solver) (term : Nat) (_ : SmtSort) : Prop := term < solver.terms.size

structure Keeps (old new : Solver) : Prop where
  shared : new.terms.WellFormed
  terms : old.terms.Extends new.terms
  levels : new.levels = old.levels
  build : new.build = old.build

structure Silent (old new : Solver) : Prop where
  channel : new.channel = old.channel
  declared : new.declared = old.declared

structure Told (name : String) (sort : SmtSort) (old new : Solver) : Prop where
  spellable : Symbol.isSpellable name = true
  undeclared : old.declared[name]? = none
  log : new.channel.log = old.channel.log.push (.declare (Symbol.text name) sort)
  declared : ∃ term, new.declared = old.declared.insert name (sort, term)

variable {solver next : Solver} {term : Nat} {sort : SmtSort}

theorem Keeps.refl (consistent : solver.Consistent) : solver.Keeps solver :=
  ⟨consistent.shared, .refl _, rfl, rfl⟩

theorem Silent.refl (solver : Solver) : solver.Silent solver := ⟨rfl, rfl⟩

theorem Keeps.has (keeps : solver.Keeps next) (has : solver.Has term sort) :
    next.Has term sort :=
  keeps.terms.lt_size has

theorem Keeps.consistent (keeps : solver.Keeps next) (consistent : solver.Consistent)
    (declared : next.declared = solver.declared) : next.Consistent where
  shared := keeps.shared
  declared found := keeps.terms.nodes (consistent.declared (declared ▸ found))

theorem inside_of_draft {operator : Operator} {operands : List Nat} {result : SmtSort}
    {draft : Draft} (inside : ∀ operand ∈ operands, operand < solver.terms.size)
    (drafted : solver.draft operator operands result = .ok draft) :
    draft.Inside solver.terms.size := by
  unfold Solver.draft at drafted
  refine Draft.inside_lowered (Draft.allInside_iff.mpr ?_) (Operator.lower_eq_ok_iff.mp drafted)
  simpa [Draft.Inside] using inside

/-- What a request comes to that is not about a variable: a term that is there now, with nothing
said to the solver, or an error that leaves everything as it was. -/
theorem ends_request (consistent : solver.Consistent) {request : Request}
    (notDeclare : ∀ name, request ≠ .declare name) (proper : request.Proper solver.Has sort) :
    Action.Ends
      (fun term next => solver.Keeps next ∧ solver.Silent next ∧ next.Has term sort)
      (fun _ next => next = solver) (request.run sort solver) := by
  cases request with
  | declare name => exact absurd rfl (notDeclare name)
  | bitsLiteral width pattern =>
      have shared := SExpr.shared_symbol consistent.shared (Numeral.bitsText width.bits pattern)
      change Action.Ends _ _ (bitsLiteral width pattern solver)
      rw [bitsLiteral_of_fits proper.2, symbol_apply]
      exact ⟨⟨shared.valid, shared.grown, rfl, rfl⟩, ⟨rfl, rfl⟩, shared.inside⟩
  | boolLiteral value =>
      have shared := SExpr.shared_symbol consistent.shared (Numeral.boolText value)
      change Action.Ends _ _ (symbol (Numeral.boolText value) solver)
      rw [symbol_apply]
      exact ⟨⟨shared.valid, shared.grown, rfl, rfl⟩, ⟨rfl, rfl⟩, shared.inside⟩
  | apply operator operands =>
      change Action.Ends _ _ (apply operator (operands.map Expr.term) sort solver)
      cases drafted : solver.draft operator (operands.map Expr.term) sort with
      | error error =>
          rw [apply_of_undrafted drafted]
          rfl
      | ok draft =>
          have shared := draft.shared_share consistent.shared
            (inside_of_draft (by simpa [Has] using proper.2) drafted)
          rcases apply_of_draft drafted with ⟨widths, applied, -⟩
          rw [applied]
          exact ⟨⟨shared.valid, shared.grown, rfl, rfl⟩, ⟨rfl, rfl⟩, shared.inside⟩
  | simplify operand => exact ⟨.refl consistent, .refl solver, proper.2⟩

theorem ends_declare (consistent : solver.Consistent) (name : String) (sort : SmtSort) :
    Action.Ends
      (fun term next => solver.Keeps next ∧ next.Consistent ∧ next.Has term sort ∧
        next.declared[name]? = some (sort, term) ∧ (next = solver ∨ solver.Told name sort next))
      (fun error next => solver.Keeps next ∧ next.declared = solver.declared ∧
        ((∃ fault, error = .solver fault) ∨
          next = solver ∧
            (Symbol.isSpellable name = false ∨ ∃ entry, solver.declared[name]? = some entry)))
      (declare name sort solver) := by
  cases spellable : Symbol.isSpellable name with
  | false =>
      rw [declare_of_unspellable spellable]
      exact ⟨.refl consistent, rfl, .inr ⟨rfl, .inl rfl⟩⟩
  | true =>
      cases declared : solver.declared[name]? with
      | some entry =>
          rcases entry with ⟨existing, term⟩
          rw [declare_of_declared spellable declared]
          split
          case isTrue same =>
              subst same
              exact ⟨.refl consistent, consistent,
                Dag.lt_size_of_nodes (consistent.declared declared), declared, .inl rfl⟩
          case isFalse => exact ⟨.refl consistent, rfl, .inr ⟨rfl, .inr ⟨_, rfl⟩⟩⟩
      | none =>
          have shared := SExpr.shared_symbol consistent.shared (Symbol.text name)
          have ends := Channel.ends_acknowledge (.declare (Symbol.text name) sort) solver.channel
          rw [declare_of_undeclared spellable declared]
          cases answered : Channel.acknowledge (.declare (Symbol.text name) sort)
              solver.channel with
          | ok _ channel =>
              rw [answered, Action.ends_ok] at ends
              refine ⟨⟨shared.valid, shared.grown, rfl, rfl⟩, ⟨shared.valid, ?_⟩, shared.inside,
                Std.HashMap.getElem?_insert_self, .inr ⟨spellable, declared, ends, _, rfl⟩⟩
              intro other otherSort otherTerm found
              rw [Std.HashMap.getElem?_insert] at found
              split at found
              case isTrue same =>
                  cases found
                  rw [← eq_of_beq same]
                  exact consistent.shared.nodes_intern _
              case isFalse => exact shared.grown.nodes (consistent.declared found)
          | error error channel =>
              rw [answered, Action.ends_error] at ends
              exact ⟨⟨shared.valid, shared.grown, rfl, rfl⟩, rfl, .inl ends.2⟩

/-! ## What a turn can do -/

inductive Sends (levels : Option Nat) : Turn → Command → Prop
  | push : Sends levels .push (.push levels)
  | pop : Sends levels .pop (.pop levels)
  | assert (condition : Operand) (term : String) :
      Sends levels (.assert condition) (.assert term)
  | check : Sends levels .check .checkSat
  | modelValue (operand : Operand) (term : String) :
      Sends levels (.modelValue operand) (.getValue term)

structure Sent (command : Command) (old new : Solver) : Prop where
  log : new.channel.log = old.channel.log.push command
  declared : new.declared = old.declared

/-- What is said to the solver at a turn. -/
inductive Said (old : Solver) (turn : Turn) (new : Solver) : Prop
  | sent (command : Command) (sends : Sends old.levels turn command) (sent : old.Sent command new)
  | told (name : String) (sort : SmtSort) (declares : turn.declares? = some (name, sort))
      (told : old.Told name sort new)
  | nothing (notPush : turn ≠ .push) (notPop : turn ≠ .pop) (silent : old.Silent new)
      (known : ∀ name sort, turn.declares? = some (name, sort) →
        Symbol.isSpellable name = false ∨ ∃ entry, old.declared[name]? = some entry)

end Solver

namespace Context

/-- What comes of a turn, and the context after it. -/
structure Turned (old : Context Solver) (turn : Turn) (outcome : Outcome)
    (new : Context Solver) : Prop where
  id : new.id = old.id
  keeps : old.engine.Keeps new.engine
  consistent : new.engine.Consistent
  made : ∀ expr, outcome = .made expr → expr.owner = old.id ∧ new.engine.Has expr.term expr.sort
  declared : ∀ name sort expr, turn.declares? = some (name, sort) → outcome = .made expr →
    new.engine.declared[name]? = some (sort, expr.term)
  said : (∃ fault, outcome = .failed (.solver fault)) ∨ old.engine.Said turn new.engine

variable {context : Context Solver} {turn : Turn} {command : Command} {α : Type}

theorem turned_of_sent (consistent : context.engine.Consistent)
    (sends : Solver.Sends context.engine.levels turn command) {channel : Channel}
    (log : channel.log = context.engine.channel.log.push command) {outcome : Outcome}
    (notMade : ∀ expr, outcome ≠ .made expr) :
    context.Turned turn outcome
      { context with engine := { context.engine with channel } } where
  id := rfl
  keeps := ⟨consistent.shared, .refl _, rfl, rfl⟩
  consistent := ⟨consistent.shared, consistent.declared⟩
  made expr same := absurd same (notMade expr)
  declared _ _ expr _ same := absurd same (notMade expr)
  said := .inr (.sent command sends ⟨log, rfl⟩)

theorem turned_of_kept (consistent : context.engine.Consistent) (widths : Std.TreeSet Nat)
    (notPush : turn ≠ .push) (notPop : turn ≠ .pop) (notDeclared : turn.declares? = none)
    {outcome : Outcome} (notMade : ∀ expr, outcome ≠ .made expr) :
    context.Turned turn outcome { context with widths } where
  id := rfl
  keeps := .refl consistent
  consistent := consistent
  made expr same := absurd same (notMade expr)
  declared _ _ expr _ same := absurd same (notMade expr)
  said := .inr (.nothing notPush notPop (.refl _) (by simp [notDeclared]))

theorem turned_request (consistent : context.engine.Consistent) (widths : Std.TreeSet Nat)
    {call : Call} (notDeclared : call.declares? = none) {request : Request} {sort : SmtSort}
    (notDeclare : ∀ name, request ≠ .declare name)
    (proper : request.Proper context.engine.Has sort) :
    context.Turned (.build call)
      ((Ending.ask request sort).follow context.id context.engine).2
      { context with
        engine := ((Ending.ask request sort).follow context.id context.engine).1, widths } := by
  have ends := Solver.ends_request consistent notDeclare proper
  simp only [Ending.follow]
  cases answered : request.run sort context.engine with
  | error error engine =>
      rw [answered, Action.ends_error] at ends
      subst ends
      have noVariable : (Turn.build call).declares? = none := notDeclared
      exact turned_of_kept consistent widths (by simp) (by simp) noVariable (by simp)
  | ok term engine =>
      rw [answered, Action.ends_ok] at ends
      rcases ends with ⟨keeps, silent, has⟩
      exact
        { id := rfl
          keeps := keeps
          consistent := keeps.consistent consistent silent.declared
          made := by
            rintro expr ⟨⟩
            exact ⟨rfl, has⟩
          declared := by simp [Turn.declares?, notDeclared]
          said := .inr (.nothing (by simp) (by simp) silent
            (by simp [Turn.declares?, notDeclared])) }

theorem turned_declare (consistent : context.engine.Consistent) (widths : Std.TreeSet Nat)
    {call : Call} {name : String} {sort : SmtSort} (declares : call.declares? = some (name, sort)) :
    context.Turned (.build call)
      ((Ending.ask (.declare name) sort).follow context.id context.engine).2
      { context with
        engine := ((Ending.ask (.declare name) sort).follow context.id context.engine).1
        widths } := by
  have ends := Solver.ends_declare consistent name sort
  simp only [Ending.follow]
  change Action.Ends _ _ ((Request.declare name).run sort context.engine) at ends
  cases answered : (Request.declare name).run sort context.engine with
  | error error engine =>
      rw [answered, Action.ends_error] at ends
      rcases ends with ⟨keeps, declared, how⟩
      refine ⟨rfl, keeps, keeps.consistent consistent declared, by simp, by simp, ?_⟩
      rcases how with ⟨fault, rfl⟩ | ⟨rfl, known⟩
      · exact .inl ⟨fault, rfl⟩
      · refine .inr (.nothing (by simp) (by simp) (.refl _) fun other otherSort same => ?_)
        rcases Prod.mk.inj (Option.some.inj (declares.symm.trans same)) with ⟨rfl, rfl⟩
        exact known
  | ok term engine =>
      rw [answered, Action.ends_ok] at ends
      rcases ends with ⟨keeps, consistentNext, has, declared, how⟩
      refine ⟨rfl, keeps, consistentNext, ?_, ?_, .inr ?_⟩
      · rintro expr ⟨⟩
        exact ⟨rfl, has⟩
      · rintro other otherSort expr same ⟨⟩
        rcases Prod.mk.inj (Option.some.inj (declares.symm.trans same)) with ⟨rfl, rfl⟩
        exact declared
      · rcases how with rfl | told
        · refine .nothing (by simp) (by simp) (.refl _) fun other otherSort same => ?_
          rcases Prod.mk.inj (Option.some.inj (declares.symm.trans same)) with ⟨rfl, rfl⟩
          exact .inr ⟨_, declared⟩
        · exact .told name sort declares told

theorem push_apply (context : Context Solver) :
    push context =
      onEngine (Solver.onChannel (Channel.acknowledge (.push context.engine.levels))) context := rfl

theorem pop_apply (context : Context Solver) :
    pop context =
      onEngine (Solver.onChannel (Channel.acknowledge (.pop context.engine.levels))) context := rfl

theorem onChannel_apply (action : Action Channel α) (context : Context Solver) :
    onEngine (Solver.onChannel action) context =
      match action context.engine.channel with
      | .ok result channel =>
        .ok result { context with engine := { context.engine with channel } }
      | .error error channel =>
        .error error { context with engine := { context.engine with channel } } := by
  rw [onEngine_apply, Solver.onChannel_apply]
  cases action context.engine.channel <;> rfl

theorem ends_onChannel (consistent : context.engine.Consistent)
    (sends : Solver.Sends context.engine.levels turn command) (outcome : α → Outcome)
    (notMade : ∀ result expr, outcome result ≠ .made expr) {action : Action Channel α}
    (ends : Action.Ends (fun _ next => next.log = context.engine.channel.log.push command)
      (fun _ next => next.log = context.engine.channel.log.push command)
      (action context.engine.channel)) :
    Action.Ends (fun result next => context.Turned turn (outcome result) next)
      (fun error next => context.Turned turn (.failed error) next)
      (onEngine (Solver.onChannel action) context) := by
  rw [onChannel_apply]
  cases answered : action context.engine.channel with
  | ok result channel =>
      rw [answered, Action.ends_ok] at ends
      exact turned_of_sent consistent sends ends (notMade result)
  | error error channel =>
      rw [answered, Action.ends_error] at ends
      exact turned_of_sent consistent sends ends (by simp)

theorem checkOwner_bind_apply (expr : Expr) (action : Action (Context Solver) α)
    (context : Context Solver) :
    (checkOwners [expr] >>= fun _ => action) context =
      if expr.owner = context.id then action context
      else .error .foreignExpression context := by
  rw [Action.bind_apply, checkOwners_apply]
  by_cases own : expr.owner = context.id
  · rw [if_pos (by simpa using own), if_pos own]
  · rw [if_neg (by simpa using own), if_neg own]

theorem modelValue_apply (expr : Expr) (context : Context Solver) :
    modelValue expr context =
      if expr.owner = context.id then
        (onEngine (Solver.modelValue expr.term expr.sort) >>= wrap expr.sort) context
      else
        .error .foreignExpression context :=
  checkOwner_bind_apply expr _ context

theorem assert_apply (expr : Expr) (context : Context Solver) :
    assert expr context =
      if expr.owner = context.id then
        onEngine (Solver.onChannel
          (Channel.acknowledge (.assert (context.engine.text expr.term)))) context
      else
        .error .foreignExpression context := by
  have asserted : onEngine (Solver.assert expr.term) context =
      onEngine (Solver.onChannel
        (Channel.acknowledge (.assert (context.engine.text expr.term)))) context := by
    rw [onEngine_apply, onEngine_apply]
    rfl
  unfold assert
  rw [checkOwner_bind_apply, asserted]

theorem ends_modelValue (consistent : context.engine.Consistent) (operand : Operand)
    (expr : Expr) :
    Action.Ends (fun result next => context.Turned (.modelValue operand) (.made result) next)
      (fun error next => context.Turned (.modelValue operand) (.failed error) next)
      (modelValue expr context) := by
  rw [modelValue_apply]
  split
  case isFalse =>
      exact turned_of_kept consistent context.widths (by simp) (by simp) rfl (by simp)
  case isTrue own =>
      have sends : Solver.Sends context.engine.levels (.modelValue operand)
          (.getValue (context.engine.text expr.term)) := .modelValue operand _
      have ends := Channel.ends_value (context.engine.text expr.term) context.engine.channel
      rw [Action.bind_apply, onEngine_apply, Solver.modelValue_apply]
      cases answered : Channel.value (context.engine.text expr.term) context.engine.channel with
      | error error channel =>
          rw [answered, Action.ends_error] at ends
          exact turned_of_sent consistent sends ends (by simp)
      | ok value channel =>
          rw [answered, Action.ends_ok] at ends
          dsimp only
          by_cases accepted : value.literal?.map Value.kind = some expr.sort.kind
          · have shared := SExpr.shared_share value consistent.shared
            have keeps : context.engine.Keeps
                { context.engine with
                  channel, terms := (value.share context.engine.terms).2 } :=
              ⟨shared.valid, shared.grown, rfl, rfl⟩
            rw [if_pos accepted]
            exact
              { id := rfl
                keeps := keeps
                consistent := keeps.consistent consistent rfl
                made := by
                  rintro expr ⟨⟩
                  exact ⟨rfl, shared.inside⟩
                declared := by simp [Turn.declares?]
                said := .inr (.sent _ sends ⟨ends, rfl⟩) }
          · rw [if_neg accepted]
            exact turned_of_sent consistent sends ends (by simp)

theorem ends_assert (consistent : context.engine.Consistent) (condition : Operand)
    (expr : Expr) :
    Action.Ends (fun _ next => context.Turned (.assert condition) .done next)
      (fun error next => context.Turned (.assert condition) (.failed error) next)
      (assert expr context) := by
  rw [assert_apply]
  split
  case isTrue =>
      exact ends_onChannel consistent (.assert condition _) (fun _ => .done) (by simp)
        ((Channel.ends_acknowledge _ _).imp (fun _ _ sent => sent) fun _ _ sent => sent.1)
  case isFalse =>
      exact turned_of_kept consistent context.widths (by simp) (by simp) rfl (by simp)

end Context

namespace Session

variable {session : Session Solver} {α : Type}

theorem exists_perform {turn : Turn} {action : Action (Context Solver) α} {outcome : α → Outcome}
    (ends : Action.Ends (fun result next => session.context.Turned turn (outcome result) next)
      (fun error next => session.context.Turned turn (.failed error) next)
      (action session.context)) :
    ∃ result next, session.perform (outcome <$> action) = ⟨next, session.outcomes ++ [result]⟩ ∧
      session.context.Turned turn result next := by
  unfold perform
  rw [Action.map_apply]
  cases done : action session.context with
  | ok result next =>
      rw [done, Action.ends_ok] at ends
      exact ⟨_, next, rfl, ends⟩
  | error error next =>
      rw [done, Action.ends_error] at ends
      exact ⟨_, next, rfl, ends⟩

/-- What one turn of a session does. -/
theorem Holds.exists_turned (holds : session.Holds Solver.Consistent Solver.Has) (turn : Turn) :
    ∃ outcome next, session.turn turn = ⟨next, session.outcomes ++ [outcome]⟩ ∧
      session.context.Turned turn outcome next := by
  have consistent := holds.engine
  cases turn with
  | build call =>
      have followed : session.turn (.build call) =
          session.follow (call.plan session.context.id session.expr?) := session.call_eq call
      refine ⟨_, _, followed, ?_⟩
      cases ending : (call.plan session.context.id session.expr?).ending with
      | skip | finish | refuse error =>
          have noVariable : (Turn.build call).declares? = none :=
            Call.declares?_eq_none ending (by simp)
          exact Context.turned_of_kept consistent _ (by simp) (by simp) noVariable
            (by simp [Ending.follow])
      | ask request sort =>
          cases request with
          | declare name =>
              exact Context.turned_declare consistent _ (Call.declares?_eq_some_iff.mpr ending)
          | bitsLiteral | boolLiteral | apply | simplify =>
              exact Context.turned_request consistent _ (Call.declares?_eq_none ending (by simp))
                (by simp) (holds.proper ending)
  | push =>
      exact exists_perform (Context.ends_onChannel consistent .push _ (by simp)
        ((Channel.ends_acknowledge _ _).imp (fun _ _ => id) fun _ _ sent => sent.1))
  | pop =>
      exact exists_perform (Context.ends_onChannel consistent .pop _ (by simp)
        ((Channel.ends_acknowledge _ _).imp (fun _ _ => id) fun _ _ sent => sent.1))
  | check =>
      exact exists_perform (Context.ends_onChannel consistent .check _ (by simp)
        ((Channel.ends_check _).imp (fun _ _ => id) fun _ _ sent => sent.1))
  | assert condition =>
      simp only [Session.turn, Turn.action]
      cases session.expr? condition with
      | none =>
          exact ⟨.skipped, session.context, rfl, Context.turned_of_kept consistent
            session.context.widths (by simp) (by simp) rfl (by simp)⟩
      | some expr => exact exists_perform (Context.ends_assert consistent condition expr)
  | modelValue operand =>
      simp only [Session.turn, Turn.action]
      cases session.expr? operand with
      | none =>
          exact ⟨.skipped, session.context, rfl, Context.turned_of_kept consistent
            session.context.widths (by simp) (by simp) rfl (by simp)⟩
      | some expr => exact exists_perform (Context.ends_modelValue consistent operand expr)

theorem Holds.turn (holds : session.Holds Solver.Consistent Solver.Has) (turn : Turn) :
    (session.turn turn).Holds Solver.Consistent Solver.Has := by
  rcases holds.exists_turned turn with ⟨outcome, next, turned, does⟩
  rw [turned]
  refine ⟨does.consistent, fun expr member => ?_, fun expr member => ?_⟩
  all_goals
    rcases List.mem_append.mp member with earlier | last
  · exact (holds.own expr earlier).trans does.id.symm
  · exact (does.made expr (List.mem_singleton.mp last).symm).1.trans does.id.symm
  · exact @Solver.Keeps.has _ _ _ expr.sort does.keeps (holds.exprs expr earlier)
  · exact (does.made expr (List.mem_singleton.mp last).symm).2

theorem Holds.converse (holds : session.Holds Solver.Consistent Solver.Has)
    (turns : List Turn) : (session.converse turns).Holds Solver.Consistent Solver.Has := by
  induction turns generalizing session with
  | nil => exact holds
  | cons turn rest induction => exact induction (holds.turn turn)

theorem Holds.kept_converse (holds : session.Holds Solver.Consistent Solver.Has)
    (turns : List Turn) :
    (session.converse turns).context.id = session.context.id ∧
      (session.converse turns).context.engine.build = session.context.engine.build := by
  induction turns generalizing session with
  | nil => exact ⟨rfl, rfl⟩
  | cons turn rest induction =>
      rcases holds.exists_turned turn with ⟨outcome, next, turned, does⟩
      refine (induction (holds.turn turn)).imp (·.trans ?_) (·.trans ?_)
      · rw [turned]
        exact does.id
      · rw [turned]
        exact does.keeps.build

theorem Holds.id_converse (holds : session.Holds Solver.Consistent Solver.Has)
    (turns : List Turn) : (session.converse turns).context.id = session.context.id :=
  (holds.kept_converse turns).1

theorem holds_started (id : Nat) {preset : Preset} {peer : Option Peer} {build : Build}
    {solver : Solver} (started : Solver.start preset peer build = .ok solver) :
    (start id solver).Holds Solver.Consistent Solver.Has := by
  rcases Solver.eq_of_start started with ⟨channel, rfl, -⟩
  refine holds_start id ⟨Dag.wellFormed_empty, fun found => ?_⟩
  simp at found

end Session

theorem Width.ofNat_bits (width : Width) : Width.ofNat width.bits = .ok width := by
  simp [Width.ofNat, Width.ofNat?_bits]

/-- A new session that has declared a variable of this width. -/
def Solver.withVariable (width : Width) (replies : List (String × List String)) : Solver :=
  let opened := opened .z3 replies
  { opened with
    channel :=
      { opened.channel with
        log := opened.channel.log.push (.declare (Symbol.text "x") (.bits width)) }
    terms := (opened.terms.intern ⟨.symbol (Symbol.text "x"), []⟩).2
    declared := opened.declared.insert "x" (.bits width, 0)
    widths := opened.widths.insert 0 width }

namespace Session

/-- The solver has no reply prepared for the declaration. -/
theorem exists_declared (id : Nat) (width : Width) {replies : List (String × List String)}
    (unprepared : Peer.takeReply "declare-const" replies = (none, replies)) :
    ∃ widths,
      (start id (Solver.opened .z3 replies)).call (.declareBits "x" width.bits) =
        ⟨⟨id, Solver.withVariable width replies, widths⟩, [.made ⟨id, .bits width, 0⟩]⟩ := by
  have spellable : Symbol.isSpellable "x" = true := by decide +kernel
  have told (log : Array Command) := Channel.acknowledge_unprepared
    (.declare (Symbol.text "x") (.bits width)) log rfl unprepared
  simp [start, call_eq, Call.plan, Plan.ofWidth, width.ofNat_bits, follow, Ending.follow,
    Request.run, Engine.declare, Solver.declare_of_undeclared, spellable, Solver.opened, told,
    Solver.introduced, Solver.withWidth, Dag.intern, Solver.withVariable]

/-- A new session that declares a byte, at a solver without a reply prepared for that. -/
theorem exists_declared_byte (id : Nat) {replies : List (String × List String)}
    (unprepared : Peer.takeReply "declare-const" replies = (none, replies)) :
    ∃ next : Context Solver,
      (start id (Solver.opened .z3 replies)).call (.declareBits "x" 8) =
        ⟨next, [.made ⟨id, .bits .byte, 0⟩]⟩ ∧
      next.id = id ∧ next.engine.widths[0]? = some .byte ∧
      next.engine.declared["x"]? = some (.bits .byte, 0) ∧
      next.engine.channel =
        { peer := { replies }
          log := (Solver.opened .z3 replies).channel.log.push
            (.declare (Symbol.text "x") (.bits .byte)) } := by
  rcases exists_declared id .byte unprepared with ⟨widths, called⟩
  exact ⟨_, called, rfl, by simp [Solver.withVariable], by simp [Solver.withVariable], rfl⟩

end Session

end BitTerms
