import BitTerms.Proofs.Failures
import BitTerms.Proofs.SExpr.Widths
import BitTerms.Proofs.Solver.Agreement
import BitTerms.Proofs.Solver.Reports

/-!
# The account of widths

A solver session keeps account of the widths of declared and applied bit-vectors under their
terms, and terms that are written alike are one term. The account is right because the text of a
term determines its width: what is recorded is the width of the s-expression (`Solver.Sized`), for
every bit-vector that a call made (`Solver.HasWidth`). So a width that is asked for is found, and
an operator that is written with others is written at the width of its operands.
-/

namespace BitTerms

/-! ## Lowering -/

theorem Draft.isCall_call (terms : Dag SExpr.Label) {name : String} (notIndexed : name ≠ "_")
    (notNegative : name ≠ "-") (operands : List Draft) :
    ((call name operands).expand terms).IsCall :=
  ⟨.symbol name, expandAll terms operands, rfl, by simpa using notIndexed,
    by simpa using notNegative⟩

namespace Operator

variable {build : Build} {operator : Operator} {sorts : List SmtSort} {sort : SmtSort}
  {operands : List Draft} {resultWidth operandWidth : Unit → Except Error Nat} {draft : Draft}

/-- Whatever operator it is, an application is written as a call. -/
theorem Lowered.isCall (lowered : Lowered build resultWidth operandWidth operator operands draft)
    (terms : Dag SExpr.Label) : (draft.expand terms).IsCall := by
  cases lowered with
  | @rotate direction =>
      cases direction <;> exact Draft.isCall_call terms (by simp) (by simp) _
  | @toInt reading => cases reading <;> exact Draft.isCall_call terms (by simp) (by simp) _
  | @overflows operation reading =>
      cases operation <;> cases reading <;> exact Draft.isCall_call terms (by simp) (by simp) _
  | quotientOverflows | negationOverflows =>
      exact Draft.isCall_call terms (by simp) (by simp) _
  | native native count =>
      rw [Draft.expand_native]
      exact ⟨_, _, rfl, operator.expr_unmarked.1, operator.expr_unmarked.2⟩

/-- What a bit-vector is written as has its width. -/
theorem Types.width?_lowered {width : Width} (rule : operator.Types sorts (.bits width))
    {terms : Dag SExpr.Label} {declared : String → Option Nat}
    (known : WidthsOf (operands.map fun operand => (operand.expand terms).width? declared) sorts)
    (lowered : Lowered build resultWidth operandWidth operator operands draft) :
    (draft.expand terms).width? declared = some width.bits := by
  cases lowered with
  | native native count =>
      rw [Draft.expand_native, SExpr.width?_list operator native.function?_expr, List.map_map]
      exact rule.width?_eq native known
  | @rotate direction value amount written found =>
      cases rule with
      | rotate _ width =>
          rcases known with _ | ⟨here, -⟩
          -- Both halves of the rotation are shifts of the value, and the first gives the width.
          cases direction <;> exact here width rfl
  | toInt | overflows | quotientOverflows | negationOverflows => cases rule

end Operator

/-! ## Recorded widths -/

namespace Solver

/-- The width that a variable was declared with. -/
def declaredWidth? (solver : Solver) (name : String) : Option Nat :=
  match solver.declared[name]? with
  | some (.bits width, _) => some width.bits
  | _ => none

/-- The width that the s-expression of a term has. -/
def width? (solver : Solver) (term : Nat) : Option Nat :=
  (SExpr.ofShared solver.terms term).width? solver.declaredWidth?

structure HasWidth (solver : Solver) (term : Nat) (sort : SmtSort) : Prop where
  inside : term < solver.terms.size
  known : solver.KnowsWidth term sort
  width : ∀ width, sort = .bits width → solver.width? term = some width.bits

/-- Whatever width is recorded is the one that the s-expression has, and the widths of the
variables are known. -/
structure Sized (solver : Solver) : Prop where
  consistent : solver.Consistent
  recorded : ∀ {term : Nat} {width : Width},
    solver.widths[term]? = some width → solver.HasWidth term (.bits width)
  declared : ∀ {name : String} {sort : SmtSort} {term : Nat},
    solver.declared[name]? = some (sort, term) → solver.HasWidth term sort

/-- The new session has all terms and variables of the old one, and knows all its widths. -/
structure Remembers (old new : Solver) : Prop where
  grows : old.Grows new
  declared : ∀ {name : String} {entry : SmtSort × Nat},
    old.declared[name]? = some entry → new.declared[name]? = some entry

variable {solver next : Solver} {name : String} {term : Nat} {sort : SmtSort} {width : Width}

theorem declaredWidth?_of_declared (declared : solver.declared[name]? = some (.bits width, term)) :
    solver.declaredWidth? name = some width.bits := by
  rw [declaredWidth?, declared]

theorem Remembers.refl (shared : solver.terms.WellFormed) : solver.Remembers solver :=
  ⟨.refl shared, id⟩

theorem Remembers.declaredWidth? (remembers : solver.Remembers next) (name : String) (bits : Nat)
    (known : solver.declaredWidth? name = some bits) : next.declaredWidth? name = some bits := by
  unfold Solver.declaredWidth? at known
  cases declared : solver.declared[name]? with
  | none =>
      rw [declared] at known
      cases known
  | some entry =>
      rcases entry with ⟨sort, term⟩
      rw [declared] at known
      cases sort with
      | bits width =>
          cases known
          exact declaredWidth?_of_declared (remembers.declared declared)
      | bool | int => cases known

theorem HasWidth.mono (has : solver.HasWidth term sort) (remembers : solver.Remembers next) :
    next.HasWidth term sort where
  inside := remembers.grows.terms.lt_size has.inside
  known := remembers.grows.knowsWidth has.inside has.known
  width width isBits := by
    rw [width?, SExpr.ofShared_extends remembers.grows.terms has.inside]
    exact SExpr.width?_mono remembers.declaredWidth? _ _ (has.width width isBits)

/-- A term has at most one width, whether it is recorded or spelled. -/
theorem Sized.widthOf (sized : solver.Sized) (has : solver.HasWidth term (.bits width)) :
    solver.widthOf term = .ok width.bits := by
  have known := has.width width rfl
  unfold Solver.widthOf
  cases recorded : solver.widths[term]? with
  | some other =>
      have same := (sized.recorded recorded).width other rfl
      exact congrArg Except.ok (Option.some.inj (same.symm.trans known))
  | none =>
      rcases has.known with isRecorded | ⟨bits, pattern, literal⟩
      · simp [recorded] at isRecorded
      · rw [literal]
        rw [literal?_eq sized.consistent.shared has.inside] at literal
        exact congrArg Except.ok (SExpr.eq_width_of_literal? literal known)

/-- What is kept at a step: whatever width or variable is new in the session is right. -/
theorem Sized.step (sized : solver.Sized) (remembers : solver.Remembers next)
    (consistent : next.Consistent)
    (recorded : ∀ {term : Nat} {width : Width}, next.widths[term]? = some width →
      solver.widths[term]? = some width ∨ next.HasWidth term (.bits width))
    (declared : ∀ {name : String} {sort : SmtSort} {term : Nat},
      next.declared[name]? = some (sort, term) →
        solver.declared[name]? = some (sort, term) ∨ next.HasWidth term sort) : next.Sized where
  consistent := consistent
  recorded found := (recorded found).elim (fun old => (sized.recorded old).mono remembers) id
  declared found := (declared found).elim (fun old => (sized.declared old).mono remembers) id

/-- More terms and more that was said to the solver change nothing about widths. -/
theorem Sized.grow (sized : solver.Sized) {terms : Dag SExpr.Label} (valid : terms.WellFormed)
    (grown : solver.terms.Extends terms) (channel : Channel) :
    Sized { solver with channel, terms } ∧ solver.Remembers { solver with channel, terms } := by
  have remembers : solver.Remembers { solver with channel, terms } :=
    ⟨⟨sized.consistent.shared, valid, grown, fun _ => id⟩, id⟩
  have keeps : solver.Keeps { solver with channel, terms } := ⟨valid, grown, rfl, rfl⟩
  exact ⟨sized.step remembers (keeps.consistent sized.consistent rfl) .inl .inl, remembers⟩

/-! ## Requests -/

/-- A literal spells its width. -/
theorem hasWidth_of_symbolLiteral? (shared : solver.terms.WellFormed)
    (inside : term < solver.terms.size) {text : String} {value : Value}
    (written : SExpr.ofShared solver.terms term = .symbol text)
    (spelled : SExpr.symbolLiteral? text = some value) (hasSort : value.HasSort sort) :
    solver.HasWidth term sort where
  inside := inside
  known := by
    refine knowsWidth_of_literal? ?_ hasSort
    rw [literal?_eq shared inside, written]
    exact spelled
  width width isBits := by
    subst isBits
    rcases Value.hasSort_bits_iff.mp hasSort with ⟨pattern, rfl, -⟩
    rw [width?, written]
    exact SExpr.width?_of_symbolLiteral? spelled

/-- What comes of a request: a term of a known width, or an error that is not about one. -/
abbrev EndsSized (solver : Solver) (sort : SmtSort) : EStateM.Result Error Solver Nat → Prop :=
  Action.Ends
    (fun term next => next.Sized ∧ next.HasWidth term sort ∧ solver.Remembers next)
    (fun error next => next.Sized ∧ solver.Remembers next ∧ ∀ text, error ≠ .unknownWidth text)

theorem Sized.ends_literal (sized : solver.Sized) {text : String} {value : Value}
    (spelled : SExpr.symbolLiteral? text = some value) (hasSort : value.HasSort sort) :
    solver.EndsSized sort (symbol text solver) := by
  have shared := SExpr.shared_symbol sized.consistent.shared text
  rcases sized.grow shared.valid shared.grown solver.channel with ⟨sizedNext, remembers⟩
  exact ⟨sizedNext,
    hasWidth_of_symbolLiteral? shared.valid shared.inside shared.ofShared_eq spelled hasSort,
    remembers⟩

/-- A term is written, and the width of its sort is recorded for it. -/
structure Records (old : Solver) (term : Nat) (sort : SmtSort) (expr : SExpr) (new : Solver) :
    Prop where
  shared : SExpr.Shared old.terms new.terms term expr
  consistent : new.Consistent
  widths : new.widths = withWidth old.widths term sort
  declared : ∀ {name : String} {entry : SmtSort × Nat},
    old.declared[name]? = some entry → new.declared[name]? = some entry
  added : ∀ {name : String} {entry : SmtSort × Nat},
    new.declared[name]? = some entry → old.declared[name]? = some entry ∨ entry = (sort, term)

theorem Records.remembers {expr : SExpr} (records : solver.Records term sort expr next)
    (sized : solver.Sized) : solver.Remembers next where
  grows :=
    { before := sized.consistent.shared
      shared := records.shared.valid
      terms := records.shared.grown
      widths := fun other known => by
        rw [records.widths]
        exact isSome_withWidth term sort known }
  declared := records.declared

theorem Records.hasWidth {expr : SExpr} (records : solver.Records term sort expr next)
    (found : ∀ width, sort = .bits width → expr.width? next.declaredWidth? = some width.bits) :
    next.HasWidth term sort where
  inside := records.shared.inside
  known := knowsWidth_withWidth solver.widths term sort records.widths
  width width isBits := by
    rw [Solver.width?, records.shared.ofShared_eq]
    exact found width isBits

theorem Records.sized {expr : SExpr} (records : solver.Records term sort expr next)
    (sized : solver.Sized) (has : next.HasWidth term sort) : next.Sized := by
  refine sized.step (records.remembers sized) records.consistent (fun found => ?_) fun found => ?_
  · rw [records.widths] at found
    rcases getElem?_withWidth found with old | ⟨rfl, rfl⟩
    · exact .inl old
    · exact .inr has
  · rcases records.added found with old | ⟨⟨⟩⟩
    · exact .inl old
    · exact .inr has

/-- A variable that the solver has been told about has the width that it was declared with. -/
theorem Sized.ends_told (sized : solver.Sized) (undeclared : solver.declared[name]? = none)
    (consistent : next.Consistent)
    (shared : SExpr.Shared solver.terms next.terms term (.symbol (Symbol.text name)))
    (declared : next.declared = solver.declared.insert name (sort, term))
    (widths : next.widths = withWidth solver.widths term sort) :
    solver.EndsSized sort (.ok term next) := by
  have records : solver.Records term sort (.symbol (Symbol.text name)) next :=
    { shared := shared
      consistent := consistent
      widths := widths
      declared := fun {other entry} found => by
        have notSame : name ≠ other := by
          rintro rfl
          cases undeclared.symm.trans found
        simpa [declared, Std.HashMap.getElem?_insert, notSame] using found
      added := fun {other entry} found => by
        rw [declared, Std.HashMap.getElem?_insert] at found
        split at found
        case isTrue => exact .inr (Option.some.inj found).symm
        case isFalse => exact .inl found }
  have has := records.hasWidth fun width isBits => by
    rw [SExpr.width?_text, declaredWidth?, declared, isBits, Std.HashMap.getElem?_insert_self]
  exact ⟨records.sized sized has, has, records.remembers sized⟩

theorem Sized.ends_declare (sized : solver.Sized) (name : String) (sort : SmtSort) :
    solver.EndsSized sort (declare name sort solver) := by
  have same := Remembers.refl sized.consistent.shared
  cases spellable : Symbol.isSpellable name with
  | false =>
      rw [declare_of_unspellable spellable]
      exact ⟨sized, same, nofun⟩
  | true =>
      cases known : solver.declared[name]? with
      | some entry =>
          rw [declare_of_declared spellable known]
          split
          case isTrue isSort => exact ⟨sized, isSort ▸ sized.declared known, same⟩
          case isFalse => exact ⟨sized, same, nofun⟩
      | none =>
          have ends := Solver.ends_declare sized.consistent name sort
          have shared := SExpr.shared_symbol sized.consistent.shared (Symbol.text name)
          rw [declare_of_undeclared spellable known] at ends ⊢
          cases answered : Channel.acknowledge (.declare (Symbol.text name) sort)
              solver.channel with
          | error error channel =>
              have faults := Channel.ends_acknowledge (.declare (Symbol.text name) sort)
                solver.channel
              rw [answered, Action.ends_error] at faults
              rcases faults.2 with ⟨fault, rfl⟩
              rcases sized.grow shared.valid shared.grown channel with ⟨sizedNext, remembers⟩
              exact ⟨sizedNext, remembers, nofun⟩
          | ok answer channel =>
              rw [answered, Action.ends_ok] at ends
              exact sized.ends_told known ends.2.1 shared rfl rfl

section

variable {operator : Operator} {operands : List Expr}
  (rule : operator.Types (operands.map Expr.sort) sort)
  (typed : ∀ operand ∈ operands, solver.HasWidth operand.term operand.sort)

/-- The draft is what the application is lowered to at the widths that the sorts say: if the width
of the first operand is asked for, it is the one of its sort. -/
def IsDraft (build : Build) (operator : Operator) (operands : List Expr) (sort : SmtSort)
    (draft : Draft) : Prop :=
  ∀ operandWidth : Unit → Except Error Nat,
    (∀ width, (operands.map Expr.sort).head? = some (.bits width) →
      operandWidth () = .ok width.bits) →
    operator.lower build (operands.map fun operand => .term operand.term)
      (fun _ => widthOfResult operator sort) operandWidth = .ok draft

include typed

theorem Sized.widthOf_first (sized : solver.Sized)
    (first : (operands.map Expr.sort).head? = some (.bits width)) :
    solver.widthOf ((operands.map Expr.term).headD 0) = .ok width.bits := by
  cases operands with
  | nil => cases first
  | cons operand rest =>
      have has := typed operand List.mem_cons_self
      rw [Option.some.inj first] at has
      exact sized.widthOf has

theorem widthsOf_operands :
    Operator.WidthsOf ((operands.map fun operand => Draft.term operand.term).map
      fun draft => (draft.expand solver.terms).width? solver.declaredWidth?)
      (operands.map Expr.sort) := by
  rw [Operator.WidthsOf, List.map_map, List.forall₂_map_left_iff, List.forall₂_map_right_iff,
    List.forall₂_same]
  exact fun operand member => (typed operand member).width

include rule

/-- A typed application is drafted at the widths of its sorts, as a call of the width of its
result. -/
theorem Sized.exists_draft (sized : solver.Sized)
    (narrow : solver.build = .checked → operator.IsNarrow (operands.map Expr.sort)) :
    ∃ draft, IsDraft solver.build operator operands sort draft ∧
      solver.draft operator (operands.map Expr.term) sort = .ok draft ∧
      (draft.expand solver.terms).IsCall ∧
      ∀ width, sort = .bits width →
        (draft.expand solver.terms).width? solver.declaredWidth? = some width.bits := by
  have count : (operands.map fun operand => Draft.term operand.term).length =
      (operands.map Expr.sort).length := by simp
  have ofResult (width : Width) (isBits : sort = .bits width) :
      widthOfResult operator sort = .ok width.bits := by
    subst isBits
    rfl
  rcases rule.exists_lowered count narrow with ⟨draft, lowers⟩
  have isDraft : IsDraft solver.build operator operands sort draft := fun _ => lowers _ _ ofResult
  have drafted := isDraft (fun _ => solver.widthOf ((operands.map Expr.term).headD 0))
    fun _ => sized.widthOf_first typed
  have lowered := Operator.lower_eq_ok_iff.mp drafted
  refine ⟨draft, isDraft, ?_, lowered.isCall solver.terms, ?_⟩
  · rw [Solver.draft, List.map_map]
    exact drafted
  · rintro width rfl
    exact rule.width?_lowered (widthsOf_operands typed) lowered

/-- A program that checks its words gives up the overflow of a product that is too wide. -/
theorem Sized.apply_of_wide (sized : solver.Sized) (checks : solver.build = .checked)
    (wide : ¬ operator.IsNarrow (operands.map Expr.sort)) :
    apply operator (operands.map Expr.term) sort solver = .error .wordOverflow solver := by
  have count : (operands.map fun operand => Draft.term operand.term).length =
      (operands.map Expr.sort).length := by simp
  refine apply_of_undrafted ?_
  rw [Solver.draft, List.map_map, checks]
  exact rule.lower_of_wide count wide fun _ => sized.widthOf_first typed

theorem Sized.exists_applied (sized : solver.Sized)
    (narrow : solver.build = .checked → operator.IsNarrow (operands.map Expr.sort)) :
    ∃ draft term next, IsDraft solver.build operator operands sort draft ∧
      apply operator (operands.map Expr.term) sort solver = .ok term next ∧
      (draft.expand solver.terms).IsCall ∧
      solver.Records term sort (draft.expand solver.terms) next ∧ next.HasWidth term sort := by
  rcases sized.exists_draft rule typed narrow with ⟨draft, isDraft, drafted, isCall, width⟩
  have inside : draft.Inside solver.terms.size := by
    refine inside_of_draft (fun operand member => ?_) drafted
    rcases List.mem_map.mp member with ⟨expr, named, rfl⟩
    exact (typed expr named).inside
  have shared := draft.shared_share sized.consistent.shared inside
  -- A call is no literal, so that the width of a bit-vector is recorded in any case.
  have notLiteral : SExpr.literal? (SExpr.outline (draft.share solver.terms).2
      (draft.share solver.terms).1) = none := by
    rw [SExpr.literal?_outline shared.valid shared.inside, shared.ofShared_eq]
    exact isCall.literal?
  rcases apply_of_draft drafted with ⟨widths, applied, rfl | ⟨-, bits, pattern, literal⟩⟩
  · have keeps : solver.Keeps
        { solver with
          terms := (draft.share solver.terms).2
          widths := withWidth solver.widths (draft.share solver.terms).1 sort } :=
      ⟨shared.valid, shared.grown, rfl, rfl⟩
    have records : solver.Records _ sort (draft.expand solver.terms) _ :=
      ⟨shared, keeps.consistent sized.consistent rfl, rfl, id, .inl⟩
    exact ⟨draft, _, _, isDraft, applied, isCall, records, records.hasWidth width⟩
  · cases notLiteral.symm.trans literal

end

/-- Every request comes to a term of a known width, or to an error that is not about one. -/
theorem Sized.ends_request (sized : solver.Sized) {request : Request}
    (proper : request.Proper solver.HasWidth sort) :
    solver.EndsSized sort (request.run sort solver) := by
  cases request with
  | declare name => exact sized.ends_declare name sort
  | bitsLiteral width pattern =>
      rcases proper with ⟨rfl, fits⟩
      change solver.EndsSized _ (bitsLiteral width pattern solver)
      rw [bitsLiteral_of_fits fits]
      exact sized.ends_literal
        (SExpr.symbolLiteral?_bitsText width.pos width.lt_wordLimit fits) ⟨rfl, fits⟩
  | boolLiteral truth =>
      rcases proper with rfl
      exact sized.ends_literal (SExpr.symbolLiteral?_boolText truth) trivial
  | apply operator operands =>
      change solver.EndsSized sort (apply operator (operands.map Expr.term) sort solver)
      by_cases narrow : solver.build = .checked → operator.IsNarrow (operands.map Expr.sort)
      · rcases sized.exists_applied proper.1 proper.2 narrow with
          ⟨draft, term, next, -, applied, -, records, has⟩
        rw [applied]
        exact ⟨records.sized sized has, has, records.remembers sized⟩
      · rcases Classical.not_imp.mp narrow with ⟨checks, wide⟩
        rw [sized.apply_of_wide proper.1 proper.2 checks wide]
        exact ⟨sized, .refl sized.consistent.shared, nofun⟩
  | simplify operand =>
      rcases proper with ⟨rfl, has⟩
      exact ⟨sized, has, .refl sized.consistent.shared⟩

theorem keeps_widths : Engine.Keeps Sized HasWidth where
  request sized proper :=
    (sized.ends_request proper).imp
      (fun _ _ ends => ⟨ends.1, ends.2.1, fun _ _ has => has.mono ends.2.2⟩)
      fun _ _ ends => ⟨ends.1, fun _ _ has => has.mono ends.2.1⟩

/-- The term is written as a call. -/
def IsCall (solver : Solver) (term : Nat) : Prop :=
  term < solver.terms.size ∧ (SExpr.ofShared solver.terms term).IsCall

theorem IsCall.mono (isCall : solver.IsCall term) (grown : solver.terms.Extends next.terms) :
    next.IsCall term := by
  rw [IsCall, SExpr.ofShared_extends grown isCall.1]
  exact ⟨grown.lt_size isCall.1, isCall.2⟩

/-- No application is taken for a literal. -/
theorem IsCall.literal? (isCall : solver.IsCall term) (shared : solver.terms.WellFormed) :
    solver.literal? term = none := by
  rw [literal?_eq shared isCall.1]
  exact isCall.2.literal?

theorem Sized.isCall_of_applied (sized : solver.Sized) {operator : Operator}
    {operands : List Expr} (proper : (Request.apply operator operands).Proper solver.HasWidth sort)
    (applied : (Request.apply operator operands).run sort solver = .ok term next) :
    next.IsCall term := by
  change apply operator (operands.map Expr.term) sort solver = _ at applied
  have narrow (checks : solver.build = .checked) : operator.IsNarrow (operands.map Expr.sort) :=
    Classical.byContradiction fun wide => by
      rw [sized.apply_of_wide proper.1 proper.2 checks wide] at applied
      cases applied
  rcases sized.exists_applied proper.1 proper.2 narrow with
    ⟨draft, _, _, -, appliedToo, isCall, records, -⟩
  cases applied.symm.trans appliedToo
  refine ⟨records.shared.inside, ?_⟩
  rw [records.shared.ofShared_eq]
  exact isCall

end Solver

/-! ## Turns -/

/-- No width was found missing at the turn, and what an application made is a call. -/
structure Turn.FindsWidths (turn : Turn) (outcome : Outcome) (solver : Solver) : Prop where
  known : ∀ text, outcome ≠ .failed (.unknownWidth text)
  isCall : ∀ operator operands expr, turn = .build (.apply operator operands) →
    outcome = .made expr → solver.IsCall expr.term

theorem Turn.FindsWidths.mono {turn : Turn} {outcome : Outcome} {solver next : Solver}
    (knows : turn.FindsWidths outcome solver) (grown : solver.terms.Extends next.terms) :
    turn.FindsWidths outcome next where
  known := knows.known
  isCall operator operands expr applies made :=
    (knows.isCall operator operands expr applies made).mono grown

namespace Session

variable {session : Session Solver} {α : Type}

/-- What a turn does to the account of widths. -/
structure KeepsWidths (old : Session Solver) (turn : Turn) (outcome : Outcome)
    (new : Session Solver) : Prop where
  outcomes : new.outcomes = old.outcomes ++ [outcome]
  holds : new.Holds Solver.Sized Solver.HasWidth
  grown : old.context.engine.terms.Extends new.context.engine.terms
  knows : turn.FindsWidths outcome new.context.engine

theorem Holds.follow_findsWidths (holds : session.Holds Solver.Sized Solver.HasWidth)
    (call : Call) :
    let result := (call.plan session.context.id session.expr?).ending.follow session.context.id
      session.context.engine
    session.context.engine.terms.Extends result.1.terms ∧
      (Turn.build call).FindsWidths result.2 result.1 := by
  cases ending : (call.plan session.context.id session.expr?).ending with
  | skip | finish => exact ⟨.refl _, by simp [Ending.follow], by simp [Ending.follow]⟩
  | refuse error =>
      have refusal := (Call.isRefusal_of_refuse ending).2
      refine ⟨.refl _, fun text same => ?_, by simp [Ending.follow]⟩
      cases same
      exact refusal
  | ask request sort =>
      have proper := holds.proper ending
      have ends := holds.engine.ends_request proper
      simp only [Ending.follow]
      cases answered : request.run sort session.context.engine with
      | error error engine =>
          rw [answered] at ends
          rcases ends with ⟨-, remembers, known⟩
          refine ⟨remembers.grows.terms, fun text same => ?_, by simp⟩
          cases same
          exact known text rfl
      | ok term engine =>
          rw [answered] at ends
          rcases ends with ⟨-, -, remembers⟩
          refine ⟨remembers.grows.terms, by simp, fun operator operands expr applies made => ?_⟩
          cases applies
          cases made
          have asks := Call.asks_of_plan ending
          generalize (Call.plan _ _ _).registered = registered at asks
          cases asks
          exact holds.engine.isCall_of_applied proper answered

/-- Nothing changed but what was said to the solver, and no expression was made. -/
structure Talks (old : Session Solver) (outcome : Outcome) (channel : Channel)
    (new : Session Solver) : Prop where
  same : new = ⟨old.context.withChannel channel, old.outcomes ++ [outcome]⟩
  notMade : ∀ expr, outcome ≠ .made expr
  known : ∀ text, outcome ≠ .failed (.unknownWidth text)

theorem exists_talk_perform {action : Action (Context Solver) α} (talk : Action Channel α)
    {outcome : α → Outcome} (notMade : ∀ result expr, outcome result ≠ .made expr)
    (notFailed : ∀ result error, outcome result ≠ .failed error)
    (same : action session.context = Context.onEngine (Solver.onChannel talk) session.context)
    (faults : Action.Ends (fun _ _ => True) (fun error _ => ∃ fault, error = .solver fault)
      (talk session.context.engine.channel)) :
    ∃ result channel, session.Talks result channel (session.perform (outcome <$> action)) := by
  unfold perform
  rw [Action.map_apply, same, Context.onChannel_apply]
  cases answered : talk session.context.engine.channel with
  | ok result channel => exact ⟨_, channel, rfl, notMade result, fun text => notFailed result _⟩
  | error error channel =>
      rw [answered, Action.ends_error] at faults
      rcases faults with ⟨fault, rfl⟩
      exact ⟨_, channel, rfl, by simp, by simp⟩

theorem faults_acknowledge (command : Command) (channel : Channel) :
    Action.Ends (fun _ _ => True) (fun error _ => ∃ fault, error = .solver fault)
      (Channel.acknowledge command channel) :=
  (Channel.ends_acknowledge command channel).imp (fun _ _ _ => trivial) fun _ _ ends => ends.2

theorem exists_talk_assert (condition : Operand) :
    ∃ outcome channel, session.Talks outcome channel (session.turn (.assert condition)) := by
  simp only [Session.turn, Turn.action]
  cases session.expr? condition with
  | none => exact ⟨.skipped, session.context.engine.channel, rfl, by simp, by simp⟩
  | some expr =>
      have asserted := Context.assert_apply expr session.context
      by_cases own : expr.owner = session.context.id
      · rw [if_pos own] at asserted
        exact exists_talk_perform _ (by simp) (by simp) asserted (faults_acknowledge _ _)
      · rw [if_neg own] at asserted
        dsimp only
        unfold perform
        rw [Action.map_apply, asserted]
        exact ⟨_, session.context.engine.channel, rfl, by simp, by simp⟩

/-- A turn that makes no call and brings in no value is only talk. -/
theorem exists_talk {turn : Turn} (notBuild : ∀ call, turn ≠ .build call)
    (notModelValue : ∀ operand, turn ≠ .modelValue operand) :
    ∃ outcome channel, session.Talks outcome channel (session.turn turn) := by
  cases turn with
  | build call => exact absurd rfl (notBuild call)
  | push =>
      exact exists_talk_perform _ (by simp) (by simp) (Context.push_apply _)
        (faults_acknowledge _ _)
  | pop =>
      exact exists_talk_perform _ (by simp) (by simp) (Context.pop_apply _)
        (faults_acknowledge _ _)
  | check =>
      exact exists_talk_perform _ (by simp) (by simp) rfl
        ((Channel.ends_check _).imp (fun _ _ _ => trivial) fun _ _ ends => ends.2)
  | assert condition => exact exists_talk_assert condition
  | modelValue operand => exact absurd rfl (notModelValue operand)

theorem Talks.holds {next : Session Solver} {outcome : Outcome} {channel : Channel}
    (talks : session.Talks outcome channel next) {inv : Solver → Prop}
    {typed : Solver → Nat → SmtSort → Prop} (holds : session.Holds inv typed)
    (engine : inv next.context.engine)
    (kept : ∀ term sort, typed session.context.engine term sort →
      typed next.context.engine term sort) : next.Holds inv typed := by
  rcases talks with ⟨rfl, notMade, -⟩
  have earlier (expr : Expr) (member : .made expr ∈ session.outcomes ++ [outcome]) :
      .made expr ∈ session.outcomes := by
    rcases List.mem_append.mp member with before | last
    · exact before
    · exact absurd (List.mem_singleton.mp last).symm (notMade expr)
  exact
    { engine := engine
      own := fun expr member => holds.own expr (earlier expr member)
      exprs := fun expr member => kept _ _ (holds.exprs expr (earlier expr member)) }

theorem Talks.sized {next : Session Solver} {outcome : Outcome} {channel : Channel}
    (talks : session.Talks outcome channel next) (sized : session.context.engine.Sized) :
    next.context.engine.Sized ∧ session.context.engine.Remembers next.context.engine := by
  rcases talks with ⟨rfl, -, -⟩
  exact sized.grow sized.consistent.shared (.refl _) channel

/-- What a turn does to the account of widths, if it does not bring in a value from the solver. -/
theorem Holds.exists_keepsWidths (holds : session.Holds Solver.Sized Solver.HasWidth)
    {turn : Turn} (notModelValue : ∀ operand, turn ≠ .modelValue operand) :
    ∃ outcome, session.KeepsWidths turn outcome (session.turn turn) := by
  by_cases build : ∃ call, turn = .build call
  · rcases build with ⟨call, rfl⟩
    have holdsNext := holds.call Solver.keeps_widths call
    rcases holds.follow_findsWidths call with ⟨grown, finds⟩
    rw [turn_build]
    rw [call_eq] at holdsNext ⊢
    exact ⟨_, rfl, holdsNext, grown, finds⟩
  · have notBuild : ∀ call, turn ≠ .build call := fun call same => build ⟨call, same⟩
    rcases session.exists_talk notBuild notModelValue with ⟨outcome, channel, talks⟩
    rcases talks.sized holds.engine with ⟨sized, remembers⟩
    have holdsNext := talks.holds holds sized fun _ _ has => has.mono remembers
    exact ⟨outcome, congrArg Session.outcomes talks.same, holdsNext, remembers.grows.terms,
      talks.known, fun _ _ _ isBuild => absurd isBuild (notBuild _)⟩

/-! ## Dialogues -/

/-- The engine's account of widths is right, and at no turn a width was missing. -/
structure FindsWidths (turns : List Turn) (session : Session Solver) : Prop where
  holds : session.Holds Solver.Sized Solver.HasWidth
  turns : List.Forall₂ (fun turn outcome => turn.FindsWidths outcome session.context.engine)
    turns session.outcomes

variable {turns more : List Turn}

theorem FindsWidths.turn (knows : session.FindsWidths turns) {last : Turn}
    (notModelValue : ∀ operand, last ≠ .modelValue operand) :
    (session.turn last).FindsWidths (turns ++ [last]) := by
  rcases knows.holds.exists_keepsWidths notModelValue with ⟨outcome, keeps⟩
  refine ⟨keeps.holds, ?_⟩
  rw [keeps.outcomes]
  exact List.rel_append (knows.turns.imp fun _ _ earlier => earlier.mono keeps.grown)
    (.cons keeps.knows .nil)

theorem FindsWidths.isCall (knows : session.FindsWidths turns) {operator : Operator}
    {operands : List Operand} {expr : Expr}
    (came : session.CameTo turns (.build (.apply operator operands)) (.made expr)) :
    session.context.engine.IsCall expr.term :=
  ((List.forall₂_iff_zip.mp knows.turns).2 came).isCall _ _ _ rfl rfl

/-- The call makes a term of the sort, and writes it as the draft. -/
def Writes (session : Session Solver) (call : Call) (sort : SmtSort) (draft : Draft) : Prop :=
  ∃ term, (session.call call).outcomes =
      session.outcomes ++ [.made ⟨session.context.id, sort, term⟩] ∧
    SExpr.ofShared (session.call call).context.engine.terms term =
      draft.expand session.context.engine.terms

/-- A typed application of own expressions is made, and written at the widths of its sorts. Only a
program that checks its words gives up the overflow of a product that is too wide. -/
theorem Holds.exists_applied (holds : session.Holds Solver.Sized Solver.HasWidth)
    {operator : Operator} {operands : List Operand} {exprs : List Expr} {sort : SmtSort}
    (named : operands.mapM session.expr? = some exprs)
    (own : ∀ expr ∈ exprs, expr.owner = session.context.id)
    (typed : operator.resultSort (exprs.map Expr.sort) = .ok sort) :
    let build := session.context.engine.build
    ((build = .checked → operator.IsNarrow (exprs.map Expr.sort)) →
      ∃ draft, Solver.IsDraft build operator exprs sort draft ∧
        session.Writes (.apply operator operands) sort draft) ∧
    (build = .checked → ¬ operator.IsNarrow (exprs.map Expr.sort) →
      (session.call (.apply operator operands)).outcomes =
        session.outcomes ++ [.failed .wordOverflow]) := by
  have planned : ((Call.apply operator operands).plan session.context.id session.expr?).ending =
      .ask (.apply operator exprs) sort := by
    have allOwn : exprs.all (·.owner = session.context.id) = true := by simpa using own
    simp only [Call.plan, named, allOwn, typed, if_true]
  rcases holds.proper planned with ⟨rule, operandsTyped⟩
  constructor
  · intro narrow
    rcases holds.engine.exists_applied rule operandsTyped narrow with
      ⟨draft, term, next, isDraft, applied, -, records, -⟩
    have asked : (Request.apply operator exprs).run sort session.context.engine = .ok term next :=
      applied
    refine ⟨draft, isDraft, term, ?_⟩
    rw [call_eq, follow, planned]
    simp only [Ending.follow, asked, true_and]
    exact records.shared.ofShared_eq
  · intro checks wide
    have asked : (Request.apply operator exprs).run sort session.context.engine =
        .error .wordOverflow session.context.engine :=
      holds.engine.apply_of_wide rule operandsTyped checks wide
    rw [call_eq, follow, planned]
    simp only [Ending.follow, asked]

end Session

end BitTerms
