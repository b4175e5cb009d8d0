import BitTerms.Proofs.Literals
import BitTerms.Proofs.Session.Widths
import BitTerms.Proofs.Solver.Expansions

/-!
# Failed calls

A call that fails leaves its context as it was, but for declarations. The width of a bit-vector
variable is registered before the engine gets to refuse the variable, and stays registered. At a
solver, the symbol of a variable that was not acknowledged stays in the table of terms.
-/

namespace BitTerms

variable {σ : Type} {request : Request} {sort : SmtSort} {error : Error}

/-! ## Requests that fail -/

namespace TermTable

variable {table next : TermTable}

/-- A term table that is not full refuses nothing but variables, and then it stays as it is. -/
theorem Valid.failed_request (valid : table.Valid)
    (proper : request.Proper (fun term sort => table.sort? term = some sort) sort)
    (hasRoom : error ≠ .tableFull) (failed : request.run sort table = .error error next) :
    next = table ∧ ∃ name, request = .declare name := by
  have ends := valid.ends_request proper
  rw [failed, Action.ends_error] at ends
  refine ⟨ends.unchanged hasRoom, ?_⟩
  have full {good : Nat → TermTable → Prop} (builds : table.Builds good (request.run sort table)) :
      ∃ name, request = .declare name := by
    rw [failed] at builds
    exact absurd builds.1 hasRoom
  cases request with
  | declare name => exact ⟨name, rfl⟩
  | bitsLiteral width pattern =>
      rcases proper with ⟨rfl, fits⟩
      exact full (valid.builds_bitsLiteral fits)
  | boolLiteral truth => exact full (valid.builds_boolLiteral truth)
  | apply operator operands => exact full (valid.builds_apply (HasSorts.of_exprs proper.2) proper.1)
  | simplify operand => exact full (valid.builds_simplify proper.2)

end TermTable

namespace Solver

variable {solver next : Solver}

/-- Only operators without a bit-vector as their result are written with the width of an operand,
which might not be known. -/
theorem exists_draft_of_bits (solver : Solver) {operator : Operator} {operands : List Nat}
    {sorts : List SmtSort} {width : Width} (rule : operator.Types sorts (.bits width))
    (count : operands.length = sorts.length) :
    ∃ draft, solver.draft operator operands (.bits width) = .ok draft := by
  unfold Solver.draft
  by_cases native : operator.IsNative
  · have drafts : (operands.map Draft.term).length = operator.arity := by
      rw [List.length_map, count, rule.length_eq]
    exact ⟨_, native.lower_eq solver.build drafts _ _⟩
  · cases rule with
    | rotate direction width =>
        rcases List.length_eq_two.mp count with ⟨value, amount, rfl⟩
        exact ⟨_, rfl⟩
    | _ => exact absurd trivial native

theorem failed_request (notDeclare : ∀ name, request ≠ .declare name)
    (proper : request.Proper solver.Has sort)
    (failed : request.run sort solver = .error error next) :
    next = solver ∧ (∀ operand, request ≠ .simplify operand) ∧ ∀ width, sort ≠ .bits width := by
  cases request with
  | declare name => exact absurd rfl (notDeclare name)
  | bitsLiteral width pattern =>
      change bitsLiteral width pattern solver = _ at failed
      rw [bitsLiteral_of_fits proper.2] at failed
      cases failed
  | boolLiteral truth => cases failed
  | simplify operand => cases failed
  | apply operator operands =>
      change apply operator (operands.map Expr.term) sort solver = _ at failed
      cases drafted : solver.draft operator (operands.map Expr.term) sort with
      | ok draft =>
          rcases apply_of_draft drafted with ⟨widths, applied, -⟩
          rw [applied] at failed
          cases failed
      | error other =>
          rw [apply_of_undrafted drafted] at failed
          cases failed
          refine ⟨rfl, by simp, ?_⟩
          rintro width rfl
          have count : (operands.map Expr.term).length = (operands.map Expr.sort).length := by simp
          rcases solver.exists_draft_of_bits proper.1 count with ⟨draft, isDraft⟩
          cases drafted.symm.trans isDraft

/-- A variable is refused before the solver hears of it, or it is not acknowledged; then its
symbol is there all the same. -/
theorem failed_declare {name : String} (failed : declare name sort solver = .error error next) :
    next = solver ∧ (∀ fault, error ≠ .solver fault) ∨
      ∃ fault channel, error = .solver fault ∧ next = solver.introduced name channel := by
  cases spellable : Symbol.isSpellable name with
  | false =>
      rw [declare_of_unspellable spellable] at failed
      cases failed
      exact .inl ⟨rfl, by simp⟩
  | true =>
      cases declared : solver.declared[name]? with
      | some entry =>
          rw [declare_of_declared spellable declared] at failed
          split at failed
          · cases failed
          · cases failed
            exact .inl ⟨rfl, by simp⟩
      | none =>
          have ends := Channel.ends_acknowledge (.declare (Symbol.text name) sort) solver.channel
          rw [declare_of_undeclared spellable declared] at failed
          cases answered : Channel.acknowledge (.declare (Symbol.text name) sort)
              solver.channel with
          | ok answer channel =>
              rw [answered] at failed
              cases failed
          | error other channel =>
              rw [answered, Action.ends_error] at ends
              rw [answered] at failed
              cases failed
              rcases ends with ⟨-, fault, rfl⟩
              exact .inr ⟨fault, channel, rfl, rfl⟩

end Solver

namespace Context

/-- The context that differs in nothing but what was said to the solver. -/
def withChannel (context : Context Solver) (channel : Channel) : Context Solver :=
  { context with engine := { context.engine with channel } }

end Context

/-! ## Calls that fail -/

namespace Session

variable {session : Session σ} {call : Call}

/-- If the call declares a bit-vector, its width is registered already. -/
def KnowsWidth (session : Session σ) (call : Call) : Prop :=
  ∀ name width, call.declares? = some (name, .bits width) →
    width.bits ∈ session.context.widthList

theorem knowsWidth_iff {name : String} {sort : SmtSort}
    (declares : call.declares? = some (name, sort)) :
    session.KnowsWidth call ↔
      Plan.register session.context.widths sort = session.context.widths := by
  simp only [KnowsWidth, declares, Option.some.injEq, Prod.mk.injEq, and_imp,
    Plan.register_eq_iff, Context.widthList, Std.TreeSet.mem_toList]
  exact ⟨fun knows width isBits => knows name width rfl isBits,
    fun knows _ width _ isBits => knows width isBits⟩

theorem knowsWidth_of_undeclared (undeclared : call.declares? = none) :
    session.KnowsWidth call := by
  simp [KnowsWidth, undeclared]

variable [Engine σ]

/-- Either nothing has changed at all, or the call declares a variable whose sort was registered
before the engine refused it. -/
theorem Holds.failed_cases {inv : σ → Prop} {typed : σ → Nat → SmtSort → Prop}
    (holds : session.Holds inv typed)
    (plain : ∀ {request : Request} {sort : SmtSort} {next : σ},
      (∀ name, request ≠ .declare name) → request.Proper (typed session.context.engine) sort →
        request.run sort session.context.engine = .error error next →
          next = session.context.engine ∧ (∀ operand, request ≠ .simplify operand) ∧
            ∀ width, sort ≠ .bits width)
    (failed : (session.call call).outcomes = session.outcomes ++ [.failed error]) :
    call.declares? = none ∧ (session.call call).context = session.context ∨
      ∃ name sort engine, call.declares? = some (name, sort) ∧
        Engine.declare name sort session.context.engine = .error error engine ∧
        (session.call call).context =
          { session.context with
            engine, widths := Plan.register session.context.widths sort } := by
  rw [call_eq] at failed ⊢
  have outcome : ((call.plan session.context.id session.expr?).ending.follow session.context.id
      session.context.engine).2 = .failed error := by
    simpa [follow] using failed
  cases ending : (call.plan session.context.id session.expr?).ending with
  | skip | finish =>
      rw [ending] at outcome
      cases outcome
  | refuse reason =>
      have none := (Call.isRefusal_of_refuse ending).1
      refine .inl ⟨Call.declares?_eq_none ending (by simp), ?_⟩
      simp [follow, ending, Ending.follow, none]
  | ask request sort =>
      have registered := Call.register_of_ask ending
      rw [ending] at outcome
      cases answered : request.run sort session.context.engine with
      | ok term engine => simp [Ending.follow, answered] at outcome
      | error reason engine =>
          have same : reason = error := by simpa [Ending.follow, answered] using outcome
          subst same
          cases request with
          | declare name =>
              refine .inr ⟨name, sort, engine, Call.declares?_eq_some_iff.mpr ending, answered, ?_⟩
              simp [follow, ending, Ending.follow, answered, registered]
          | bitsLiteral | boolLiteral | apply | simplify =>
              refine .inl ⟨Call.declares?_eq_none ending (by simp), ?_⟩
              rcases plain (by simp) (holds.proper ending) answered with
                ⟨rfl, notSimplify, notBits⟩
              have unregistered : Plan.register session.context.widths sort =
                  session.context.widths :=
                Plan.register_eq_iff.mpr fun width isBits => absurd isBits (notBits width)
              simp [follow, ending, Ending.follow, answered, registered notSimplify, unregistered]

theorem undone_iff_of_table {session : Session TermTable} {base : TermTable}
    (holds : TermTable.Holds base session) (hasRoom : error ≠ .tableFull)
    (failed : (session.call call).outcomes = session.outcomes ++ [.failed error]) :
    (session.call call).context = session.context ↔ session.KnowsWidth call := by
  have valid := holds.engine.valid
  rcases holds.failed_cases (fun notDeclare proper refused => by
      rcases valid.failed_request proper hasRoom refused with ⟨-, name, declares⟩
      exact absurd declares (notDeclare name)) failed with
    ⟨undeclared, same⟩ | ⟨name, sort, engine, declares, refused, next⟩
  · exact iff_of_true same (knowsWidth_of_undeclared undeclared)
  · have asked : (Request.declare name).run sort session.context.engine = .error error engine :=
      refused
    have proper : (Request.declare name).Proper
        (fun term sort => session.context.engine.sort? term = some sort) sort := trivial
    rw [next, (valid.failed_request proper hasRoom asked).1, knowsWidth_iff declares]
    exact ⟨congrArg Context.widths, fun same => by rw [same]⟩

/-- If the solver does not acknowledge the variable that the call declares, its symbol is a term
already. -/
def KnowsSymbol (session : Session Solver) (call : Call) (error : Error) : Prop :=
  ∀ name sort fault, call.declares? = some (name, sort) → error = .solver fault →
    ∃ term : Nat, session.context.engine.terms.nodes[term]? =
      some ⟨.symbol (Symbol.text name), []⟩

theorem undone_iff_of_solver {session : Session Solver}
    (holds : session.Holds Solver.Consistent Solver.Has)
    (failed : (session.call call).outcomes = session.outcomes ++ [.failed error]) :
    ((session.call call).context =
        session.context.withChannel (session.call call).context.engine.channel ↔
      session.KnowsWidth call ∧ session.KnowsSymbol call error) ∧
      ((∀ fault, error ≠ .solver fault) →
        (session.call call).context.engine = session.context.engine) := by
  have known := holds.engine.shared
  rcases holds.failed_cases Solver.failed_request failed with
    ⟨undeclared, same⟩ | ⟨name, sort, engine, declares, refused, next⟩
  · rw [same]
    refine ⟨iff_of_true rfl ⟨knowsWidth_of_undeclared undeclared, ?_⟩, fun _ => rfl⟩
    simp [KnowsSymbol, undeclared]
  · rw [next, knowsWidth_iff declares]
    rcases Solver.failed_declare refused with ⟨rfl, other⟩ | ⟨fault, channel, rfl, rfl⟩
    · have symbol : session.KnowsSymbol call error :=
        fun _ _ fault _ isFault => absurd isFault (other fault)
      refine ⟨⟨fun same => ⟨congrArg Context.widths same, symbol⟩, ?_⟩, fun _ => rfl⟩
      rintro ⟨same, -⟩
      rw [same]
      rfl
    · have symbol_iff : session.KnowsSymbol call (.solver fault) ↔
          (session.context.engine.terms.intern ⟨.symbol (Symbol.text name), []⟩).2 =
            session.context.engine.terms := by
        rw [known.intern_eq_self_iff]
        constructor
        · exact fun knows => knows name sort fault declares rfl
        · rintro found other otherSort otherFault declaresToo -
          cases declares.symm.trans declaresToo
          exact found
      rw [symbol_iff]
      refine ⟨⟨fun same => ⟨congrArg Context.widths same, ?_⟩, ?_⟩, fun other => ?_⟩
      · exact congrArg (fun context => context.engine.terms) same
      · rintro ⟨sameWidths, sameTerms⟩
        rw [sameWidths]
        simp only [Solver.introduced, sameTerms]
        rfl
      · exact absurd rfl (other fault)

/-- Where a term table is not full, a call that fails leaves the whole context as it was, exactly if
it declares no bit-vector of a width that is new. At a solver, what was said to it is not taken
back, and there it also needs the symbol of a variable that was not acknowledged to be a term
before; whenever the solver is not at fault, nothing was said to it. The literals of natural numbers
and of machine words are those of the same integers, so that all of this holds for them too. -/
theorem failed_call_undone_iff (id : Nat) :
    (∀ (folding : Bool) (calls : List Call) {call : Call} {error : Error},
      let session := (start id ({ folding } : TermTable)).run calls
      error ≠ .tableFull →
        (session.call call).outcomes = session.outcomes ++ [.failed error] →
          ((session.call call).context = session.context ↔ session.KnowsWidth call)) ∧
    (∀ {preset : Preset} {peer : Option Peer} {build : Build} {solver : Solver},
      Solver.start preset peer build = .ok solver →
        ∀ (turns : List Turn) {call : Call} {error : Error},
          let session := (start id solver).converse turns
          (session.call call).outcomes = session.outcomes ++ [.failed error] →
            ((session.call call).context =
                session.context.withChannel (session.call call).context.engine.channel ↔
              session.KnowsWidth call ∧ session.KnowsSymbol call error) ∧
            ((∀ fault, error ≠ .solver fault) →
              (session.call call).context.engine = session.context.engine)) ∧
    ∀ {σ : Type} [Engine σ] (context : Context σ) (bits : Nat),
      (∀ value : Nat, Context.naturalLiteral value bits context =
        Context.bitsLiteral value bits context) ∧
      (∀ value : UInt64, Context.wordLiteral value bits context =
        Context.bitsLiteral value.toNat bits context) ∧
      ∀ value : Int64, Context.signedWordLiteral value bits context =
        Context.bitsLiteral value.toInt bits context := by
  refine ⟨?_, ?_, ?_⟩
  · intro folding calls call error session hasRoom failed
    exact undone_iff_of_table (TermTable.holds_run id folding calls) hasRoom failed
  · intro preset peer build solver started turns call error session failed
    exact undone_iff_of_solver ((holds_started id started).converse turns) failed
  · intro σ engine context bits
    refine ⟨fun value => ?_, fun value => ?_, fun value => rfl⟩
    · rw [Context.naturalLiteral_eq]
    · rw [Context.wordLiteral, Context.naturalLiteral_eq]

/-- A name that is taken is refused by both engines, and nothing is left of the call. -/
theorem failed_call_undone_redeclared :
    let call : Call := .declare "x" .bool
    let failure : Outcome := .failed (.redeclared "x" (.bits .byte) .bool)
    let session := (start 0 ({} : TermTable)).run [.declareBits "x" 8]
    let dialogue := (start 0 (Solver.opened .z3 [])).converse [.build (.declareBits "x" 8)]
    (session.call call).outcomes = session.outcomes ++ [failure] ∧
      (session.call call).context = session.context ∧
      Solver.start .z3 (some {}) = .ok (Solver.opened .z3 []) ∧
      (dialogue.call call).outcomes = dialogue.outcomes ++ [failure] ∧
      (dialogue.call call).context =
        dialogue.context.withChannel (dialogue.call call).context.engine.channel ∧
      (dialogue.call call).context.engine = dialogue.context.engine := by
  intro call failure session dialogue
  have eight : Width.ofNat 8 = .ok .byte := rfl
  have spellable : Symbol.isSpellable "x" = true := by decide +kernel
  have failed : (session.call call).outcomes = session.outcomes ++ [failure] := by
    have sorts : session.context.engine.sorts["x"]? = some (.bits .byte) := by
      simp [session, run, start, call_eq, Call.plan, Plan.ofWidth, eight, follow, Ending.follow,
        Request.run, Engine.declare, TermTable.declare_of_spellable, spellable,
        TermTable.record_of_undeclared, TermTable.intern_apply, TermTable.hasRoom, wordLimit,
        Dag.size]
    have refused : TermTable.declare "x" .bool session.context.engine = _ :=
      TermTable.declare_of_other spellable sorts (by simp)
    rw [call_eq]
    simp [call, failure, Call.plan, follow, Ending.follow, Request.run, Engine.declare, refused]
  have started : Solver.start .z3 (some {}) = .ok (Solver.opened .z3 []) :=
    Solver.start_opened .z3 rfl
  have failedToo : (dialogue.call call).outcomes = dialogue.outcomes ++ [failure] := by
    rcases exists_declared_byte 0 (show Peer.takeReply "declare-const" [] = _ from rfl) with
      ⟨next, called, -, -, declared, -⟩
    have same : dialogue = ⟨next, [.made ⟨0, .bits .byte, 0⟩]⟩ := called
    rw [same]
    rw [call_eq]
    simp [call, failure, Call.plan, follow, Ending.follow, Request.run, Engine.declare,
      Solver.declare_of_declared spellable declared]
  have undone := (failed_call_undone_iff 0).1 false [.declareBits "x" 8] (by simp) failed
  have undoneToo := (failed_call_undone_iff 0).2.1 started [.build (.declareBits "x" 8)] failedToo
  refine ⟨failed, undone.mpr ?_, started, failedToo, undoneToo.1.mpr ⟨?_, ?_⟩,
    undoneToo.2 (by simp)⟩
  · simp [KnowsWidth, call, Call.declares?]
  · simp [KnowsWidth, call, Call.declares?]
  · simp [KnowsSymbol]

/-- The width of a variable that cannot be named stays registered. -/
theorem not_undone_of_unspellable :
    let session := start 0 ({} : TermTable)
    let next := session.call (.declareBits "a|b" 8)
    next.outcomes = session.outcomes ++ [.failed (.unspellable "a|b")] ∧
      session.context.widthList = [] ∧ next.context.widthList = [8] := by
  have eight : Width.ofNat 8 = .ok .byte := rfl
  have unspellable : Symbol.isSpellable "a|b" = false := by decide +kernel
  simp [start, call_eq, Call.plan, Plan.ofWidth, eight, follow, Ending.follow, Request.run,
    Engine.declare, TermTable.declare_of_unspellable unspellable, Context.widthList,
    Plan.register, Width.byte]
  exact ⟨rfl, rfl⟩

end Session

end BitTerms
