import BitTerms.Proofs.SExpr.Numerals
import BitTerms.Proofs.Solver.Replies

/-!
# Values of the model

The value of an expression in a model is read from the solver's reply, and is taken if it is
recognised as a literal of the same kind as the expression's sort. For truth values and integers
this is enough. Bit-vectors can be misfits: numerals that are written at another width, and
s-expressions that are recognised without being numerals. Exactly those replies give an expression
that is no literal of its sort.
-/

namespace BitTerms

/-! ## Literals and sorts -/

namespace SExpr

/-- The s-expression is a literal of exactly this sort: a truth value, the numeral of an integer, or
the numeral of a bit-vector that is written at the width of the sort and fits it. -/
inductive IsLiteral : SExpr → SmtSort → Value → Prop
  | bits {value : SExpr} {width : Width} {pattern : Nat}
      (numeral : IsBits value width.bits pattern) (fits : pattern < 2 ^ width.bits) :
      IsLiteral value (.bits width) (.bits width.bits pattern)
  | bool (truth : Bool) : IsLiteral (.symbol (Numeral.boolText truth)) .bool (.bool truth)
  | int {value : SExpr} {number : Int} (numeral : IsInt value number) :
      IsLiteral value .int (.int number)

/-- The s-expression is taken for a bit-vector literal but is none of this sort: it is written at
another width, or it is no numeral. -/
inductive Misfits : SExpr → SmtSort → Prop
  | width {value : SExpr} {width : Width} {spelled pattern : Nat} (small : spelled < wordLimit)
      (numeral : IsBits value spelled pattern) (other : spelled ≠ width.bits) :
      Misfits value (.bits width)
  | loose {value : SExpr} {width : Width} {spelled pattern : Nat} (small : spelled < wordLimit)
      (loose : IsLooseBits value spelled pattern) : Misfits value (.bits width)

variable {value : SExpr} {literal : Value} {sort : SmtSort}

theorem IsLiteral.literal?_eq (isLiteral : value.IsLiteral sort literal) :
    value.literal? = some literal := by
  cases isLiteral with
  | @bits _ width _ numeral _ => exact literal?_of_isBits width.lt_wordLimit numeral
  | bool truth => exact literal?_eq_bool_iff.mpr rfl
  | int numeral => exact literal?_eq_int_iff.mpr numeral

theorem IsLiteral.kind_eq (isLiteral : value.IsLiteral sort literal) :
    literal.kind = sort.kind := by
  cases isLiteral <;> rfl

theorem IsLiteral.hasSort (isLiteral : value.IsLiteral sort literal) : literal.HasSort sort := by
  cases isLiteral with
  | bits _ fits => exact ⟨rfl, fits⟩
  | bool | int => trivial

theorem Misfits.exists_literal (misfits : value.Misfits sort) :
    ∃ literal, value.literal? = some literal ∧ literal.kind = sort.kind := by
  cases misfits with
  | width small numeral other => exact ⟨_, literal?_of_isBits small numeral, rfl⟩
  | loose small loose => exact ⟨_, literal?_of_isLooseBits small loose, rfl⟩

/-- What is taken for a literal of the sort's kind is one of the sort unless it is a misfit. -/
theorem isLiteral_iff (spelled : value.literal? = some literal)
    (kind : literal.kind = sort.kind) : value.IsLiteral sort literal ↔ ¬ value.Misfits sort := by
  cases sort with
  | bool =>
      cases literal <;> cases kind
      cases literal?_eq_bool_iff.mp spelled
      exact iff_of_true (.bool _) nofun
  | int =>
      cases literal <;> cases kind
      exact iff_of_true (.int (literal?_eq_int_iff.mp spelled)) nofun
  | bits width =>
      cases literal with
      | bool | int => cases kind
      | bits spelledWidth pattern =>
          constructor
          · intro isLiteral misfits
            cases isLiteral with
            | bits numeral fits =>
                cases misfits with
                | width small numeralToo other =>
                    cases spelled.symm.trans (literal?_of_isBits small numeralToo)
                    exact other rfl
                | loose small loose =>
                    cases spelled.symm.trans (literal?_of_isLooseBits small loose)
                    exact loose.not_isBits numeral
          · intro fits
            rcases literal?_eq_bits_iff.mp spelled with ⟨small, either⟩
            have numeral : IsBits value spelledWidth pattern :=
              either.resolve_right fun loose => fits (.loose small loose)
            have same : spelledWidth = width.bits :=
              Decidable.not_not.mp fun different => fits (.width small numeral different)
            subst same
            exact .bits numeral (numeral.lt small)

end SExpr

/-! ## What is made of a reply -/

namespace Context

variable {context : Context Solver} {expr : Expr}

/-- What the model gives for an expression is a literal of exactly the expression's sort, and any
other reply is refused, with a report of what is wrong. -/
structure ModelKeepsSort (context : Context Solver) (expr : Expr) : Prop where
  made : ∀ result next, modelValue expr context = .ok result next →
    result.owner = context.id ∧ result.sort = expr.sort ∧
      ∃ literal, (SExpr.ofShared next.engine.terms result.term).IsLiteral expr.sort literal ∧
        next.literal? result = some literal
  refused : (∀ value channel literal, context.reply expr = .ok value channel →
      ¬ value.IsLiteral expr.sort literal) →
    ∃ error next, modelValue expr context = .error error next ∧ error.IsReported

theorem modelValue_of_unanswered (own : expr.owner = context.id) {error : Error}
    {channel : Channel} (unanswered : context.reply expr = .error error channel) :
    ∃ next, modelValue expr context = .error error next := by
  change Channel.value (context.engine.text expr.term) context.engine.channel = _ at unanswered
  rw [modelValue_apply, if_pos own, Action.bind_apply, onEngine_apply, Solver.modelValue_apply,
    unanswered]
  exact ⟨_, rfl⟩

/-- The value in a reply is taken as it is, or refused with a report. -/
theorem modelValue_of_answered (own : expr.owner = context.id) {value : SExpr} {channel : Channel}
    (replied : context.reply expr = .ok value channel) :
    modelValue expr context =
      if value.literal?.map Value.kind = some expr.sort.kind then
        .ok ⟨context.id, expr.sort, (value.share context.engine.terms).1⟩
          { context with
            engine :=
              { context.engine with channel, terms := (value.share context.engine.terms).2 } }
      else
        .error (.notLiteral value.text)
          { context with engine := { context.engine with channel } } := by
  change Channel.value (context.engine.text expr.term) context.engine.channel = _ at replied
  rw [modelValue_apply, if_pos own, Action.bind_apply, onEngine_apply, Solver.modelValue_apply,
    replied]
  by_cases accepted : value.literal?.map Value.kind = some expr.sort.kind
  · simp only [if_pos accepted]
    rfl
  · simp only [if_neg accepted]

/-- A literal of another kind is refused, and so is what is no literal. -/
theorem modelValue_of_other (own : expr.owner = context.id) {value : SExpr} {channel : Channel}
    (replied : context.reply expr = .ok value channel)
    (other : ∀ literal, value.literal? = some literal → literal.kind ≠ expr.sort.kind) :
    ∃ next, modelValue expr context = .error (.notLiteral value.text) next := by
  have refused : value.literal?.map Value.kind ≠ some expr.sort.kind := by
    intro kind
    rcases Option.map_eq_some_iff.mp kind with ⟨literal, spelled, same⟩
    exact other literal spelled same
  rw [modelValue_of_answered own replied, if_neg refused]
  exact ⟨_, rfl⟩

/-- A literal of the sort's kind is taken as it is. -/
theorem modelValue_of_literal (consistent : context.engine.Consistent)
    (own : expr.owner = context.id) {value : SExpr} {channel : Channel} {literal : Value}
    (replied : context.reply expr = .ok value channel) (spelled : value.literal? = some literal)
    (kind : literal.kind = expr.sort.kind) :
    ∃ result next, modelValue expr context = .ok result next ∧ result.owner = context.id ∧
      result.sort = expr.sort ∧ SExpr.ofShared next.engine.terms result.term = value ∧
      next.literal? result = some literal := by
  have shared := SExpr.shared_share value consistent.shared
  have accepted : value.literal?.map Value.kind = some expr.sort.kind := by
    rw [spelled, Option.map_some, kind]
  rw [modelValue_of_answered own replied, if_pos accepted]
  refine ⟨_, _, rfl, rfl, rfl, shared.ofShared_eq, ?_⟩
  change SExpr.literal? (SExpr.outline (value.share context.engine.terms).2
    (value.share context.engine.terms).1) = _
  rw [SExpr.literal?_outline shared.valid shared.inside, shared.ofShared_eq, spelled]

/-- A reply that is well formed and holds no misfit makes a literal of the sort, or a report. -/
theorem modelKeepsSort_of_fits (consistent : context.engine.Consistent)
    (own : expr.owner = context.id) (wellFormed : context.IsWellFormed expr)
    (fits : ∀ value channel, context.reply expr = .ok value channel →
      ¬ value.Misfits expr.sort) :
    context.ModelKeepsSort expr := by
  have ends := context.ends_reply expr
  cases replied : context.reply expr with
  | error error channel =>
      rcases modelValue_of_unanswered own replied with ⟨next, refused⟩
      rw [replied, Action.ends_error] at ends
      constructor
      · intro result other answered
        cases refused.symm.trans answered
      · exact fun _ => ⟨error, next, refused, ends.mpr wellFormed⟩
  | ok value channel =>
      by_cases taken : ∃ literal, value.literal? = some literal ∧ literal.kind = expr.sort.kind
      · rcases taken with ⟨literal, spelled, kind⟩
        have isLiteral := (SExpr.isLiteral_iff spelled kind).mpr (fits value channel replied)
        rcases modelValue_of_literal consistent own replied spelled kind with
          ⟨result, next, answered, owner, sort, stands, found⟩
        constructor
        · intro other otherNext answeredToo
          cases answered.symm.trans answeredToo
          exact ⟨owner, sort, literal, stands ▸ isLiteral, found⟩
        · intro refused
          exact absurd isLiteral (refused value channel literal replied)
      · rcases modelValue_of_other own replied fun literal spelled kind =>
            taken ⟨literal, spelled, kind⟩ with
          ⟨next, refused⟩
        constructor
        · intro result other answered
          cases refused.symm.trans answered
        · exact fun _ => ⟨_, next, refused, by simp⟩

theorem modelKeepsSort_iff (consistent : context.engine.Consistent)
    (own : expr.owner = context.id) :
    context.ModelKeepsSort expr ↔
      context.IsWellFormed expr ∧
        ∀ value channel, context.reply expr = .ok value channel → ¬ value.Misfits expr.sort := by
  refine ⟨fun keeps => ⟨?_, fun value channel replied misfits => ?_⟩,
    fun ⟨wellFormed, fits⟩ => modelKeepsSort_of_fits consistent own wellFormed fits⟩
  · have ends := context.ends_reply expr
    cases replied : context.reply expr with
    | ok value channel =>
        rw [replied, Action.ends_ok] at ends
        exact ends
    | error error channel =>
        rw [replied, Action.ends_error] at ends
        rcases modelValue_of_unanswered own replied with ⟨next, refused⟩
        rcases keeps.refused (by simp [replied]) with ⟨other, _, refusedToo, reported⟩
        cases refused.symm.trans refusedToo
        exact ends.mp reported
  · rcases misfits.exists_literal with ⟨literal, spelled, kind⟩
    rcases modelValue_of_literal consistent own replied spelled kind with
      ⟨result, next, answered, -, -, stands, -⟩
    rcases keeps.made result next answered with ⟨-, -, other, isLiteral, -⟩
    rw [stands] at isLiteral
    exact (SExpr.isLiteral_iff isLiteral.literal?_eq isLiteral.kind_eq).mp isLiteral misfits

end Context

/-! ## Dialogues -/

namespace Session

/-- A session that has declared a byte, with one reply to a question prepared. -/
def withByte (reply : String) : Session Solver :=
  (start 0 (Solver.opened .z3 [("get-value", [reply])])).converse [.build (.declareBits "x" 8)]

/-- The byte is declared, and the reply is still to come. -/
theorem withByte_eq (reply : String) :
    (withByte reply).outcomes = [.made ⟨0, .bits .byte, 0⟩] ∧
      (withByte reply).context.engine.channel =
        { peer := { replies := [("get-value", [reply])] }
          log := (Solver.opened .z3 []).channel.log.push
            (.declare (Symbol.text "x") (.bits .byte)) } := by
  have unprepared : Peer.takeReply "declare-const" [("get-value", [reply])] =
      (none, [("get-value", [reply])]) := rfl
  rcases exists_declared_byte 0 unprepared with ⟨next, called, -, -, -, channel⟩
  have same : withByte reply = ⟨next, [.made ⟨0, .bits .byte, 0⟩]⟩ := called
  rw [same]
  exact ⟨rfl, channel⟩

theorem receive_withByte {reply : String} (more : reply.toList.getLast? ≠ some Peer.lastMark)
    (term : String) :
    (withByte reply).context.engine.channel.peer.receive (.getValue term) =
      { replies := [("get-value", [])], unread := Peer.lines reply.toList } := by
  simp [(withByte_eq reply).2, Peer.receive, Peer.takeReply, Command.head, Peer.print, more]

theorem reply_withByte {reply : String} {answer value : SExpr}
    (more : reply.toList.getLast? ≠ some Peer.lastMark)
    (read : SExpr.read (Peer.lines reply.toList) = (some answer, []))
    (answered : Channel.answeredValue answer = .ok value) :
    ∃ channel, (withByte reply).context.reply ⟨0, .bits .byte, 0⟩ = .ok value channel := by
  unfold Context.reply Channel.value Channel.receive
  simp only [Action.bind_apply, Channel.send_apply, Action.modify_apply, Action.get_apply,
    receive_withByte more, read, Action.pure_apply, answered, Action.lift_ok_apply]
  exact ⟨_, rfl⟩

/-- In every dialogue with a solver, whatever it replies: the value of the model for an expression
is a literal of exactly the expression's sort, and every other reply is refused with a report,
exactly if the reply has a place for the value and does not hold there a bit-vector numeral of
another width or something that only passes for a numeral. -/
theorem modelKeepsSort_iff_fits (id : Nat) {preset : Preset} {peer : Option Peer} {build : Build}
    {solver : Solver} (started : Solver.start preset peer build = .ok solver) (turns : List Turn)
    (expr : Expr) (own : expr.owner = id) :
    let context := ((start id solver).converse turns).context
    context.ModelKeepsSort expr ↔
      context.IsWellFormed expr ∧
        ∀ value channel, context.reply expr = .ok value channel → ¬ value.Misfits expr.sort := by
  intro context
  have holds := holds_started id started
  have sameId : context.id = id := holds.id_converse turns
  exact Context.modelKeepsSort_iff (holds.converse turns).engine (own.trans sameId.symm)

theorem modelKeepsSort_of_five :
    Solver.start .z3 (some { replies := [("get-value", ["((x\n#x05\n))"])] }) =
        .ok (Solver.opened .z3 [("get-value", ["((x\n#x05\n))"])]) ∧
      (withByte "((x\n#x05\n))").context.ModelKeepsSort ⟨0, .bits .byte, 0⟩ := by
  have started := Solver.start_opened .z3
    (show Peer.takeReply "set-option" [("get-value", ["((x\n#x05\n))"])] = _ from rfl)
  have read : SExpr.read (Peer.lines "((x\n#x05\n))".toList) =
      (some (.list [.list [.symbol "x", .symbol "#x05"]]), []) := by rfl
  rcases reply_withByte (by decide +kernel) read rfl with ⟨next, expected⟩
  have wellFormed := (Context.ends_reply _ _).of_ok expected
  refine ⟨started, ?_⟩
  refine (modelKeepsSort_iff_fits 0 started [.build (.declareBits "x" 8)] ⟨0, .bits .byte, 0⟩
    rfl).mpr ⟨wellFormed, fun value channel replied misfits => ?_⟩
  cases expected.symm.trans replied
  have text : Numeral.bitsText 8 5 = "#x05" := by decide +kernel
  have numeral : SExpr.IsBits (.symbol "#x05") 8 5 :=
    text ▸ SExpr.isBits_bitsText (by decide) (by decide)
  have isLiteral : (SExpr.symbol "#x05").IsLiteral (.bits .byte) (.bits 8 5) :=
    .bits numeral (by decide)
  exact (SExpr.isLiteral_iff isLiteral.literal?_eq isLiteral.kind_eq).mp isLiteral misfits

theorem not_modelKeepsSort_of_narrow_reply :
    ¬ (withByte "((x\n#b1\n))").context.ModelKeepsSort ⟨0, .bits .byte, 0⟩ := by
  intro keeps
  have started := Solver.start_opened .z3
    (show Peer.takeReply "set-option" [("get-value", ["((x\n#b1\n))"])] = _ from rfl)
  have holds := holds_started 0 started
  have read : SExpr.read (Peer.lines "((x\n#b1\n))".toList) =
      (some (.list [.list [.symbol "x", .symbol "#b1"]]), []) := by rfl
  rcases reply_withByte (by decide +kernel) read rfl with ⟨channel, replied⟩
  have spelled : SExpr.literal? (.symbol "#b1") = some (.bits 1 1) := by decide +kernel
  rcases Context.modelValue_of_literal
      (holds.converse [.build (.declareBits "x" 8)]).engine (holds.id_converse _).symm replied
      spelled rfl with
    ⟨result, next, answered, -, -, stands, -⟩
  rcases keeps.made result next answered with ⟨-, -, literal, isLiteral, -⟩
  rw [stands] at isLiteral
  cases spelled.symm.trans isLiteral.literal?_eq
  exact absurd isLiteral.hasSort (by decide)

end Session

end BitTerms
