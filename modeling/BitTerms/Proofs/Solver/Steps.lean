import BitTerms.Proofs.Action
import BitTerms.Proofs.SExpr.Sharing
import BitTerms.Solver

/-!
# The steps of a solver session

Equations for the steps that build terms: what they do to the table of terms and to the accounts
of declared variables and of widths, and how the solver's answers come in.
-/

namespace BitTerms

/-! ## Answers -/

namespace Channel

theorem send_apply (command : Command) (channel : Channel) :
    send command channel =
      .ok () { peer := channel.peer.receive command, log := channel.log.push command } := rfl

theorem ends_receive (channel : Channel) :
    Action.Ends (fun _ next => next.log = channel.log)
      (fun error next => next.log = channel.log ∧ error = .solver .unreadable)
      (receive channel) := by
  unfold receive
  rw [Action.ends_bind, Action.get_apply, Action.ends_ok, Action.ends_bind, Action.modify_apply,
    Action.ends_ok]
  cases (SExpr.read channel.peer.unread).1 with
  | some answer => rfl
  | none => exact ⟨rfl, rfl⟩

/-- A command is sent, and acknowledged unless the solver is at fault. -/
theorem ends_acknowledge (command : Command) (channel : Channel) :
    Action.Ends (fun _ next => next.log = channel.log.push command)
      (fun error next => next.log = channel.log.push command ∧ ∃ fault, error = .solver fault)
      (acknowledge command channel) := by
  unfold acknowledge
  rw [Action.ends_bind, send_apply, Action.ends_ok, Action.ends_bind]
  refine (ends_receive _).imp (fun answer next sent => ?_) fun error next sent => ?_
  · split
    · exact sent
    · exact ⟨sent, _, rfl⟩
  · exact ⟨sent.1, _, sent.2⟩

theorem ends_check (channel : Channel) :
    Action.Ends (fun _ next => next.log = channel.log.push .checkSat)
      (fun error next => next.log = channel.log.push .checkSat ∧ ∃ fault, error = .solver fault)
      (check channel) := by
  unfold check
  rw [Action.ends_bind, send_apply, Action.ends_ok, Action.ends_bind]
  refine (ends_receive _).imp (fun answer next sent => ?_) fun error next sent => ?_
  · split <;> first | exact sent | exact ⟨sent, _, rfl⟩
  · exact ⟨sent.1, _, sent.2⟩

theorem ends_value (term : String) (channel : Channel) :
    Action.Ends (fun _ next => next.log = channel.log.push (.getValue term))
      (fun _ next => next.log = channel.log.push (.getValue term)) (value term channel) := by
  unfold value
  rw [Action.ends_bind, send_apply, Action.ends_ok, Action.ends_bind]
  refine (ends_receive _).imp (fun answer next sent => ?_) fun error next sent => sent.1
  cases answeredValue answer with
  | ok value => exact sent
  | error error => exact sent

/-- A solver that has no reply prepared for a command acknowledges it. -/
theorem acknowledge_unprepared (command : Command) {replies : List (String × List String)}
    (log : Array Command) (plain : command.plainReply = "success")
    (unprepared : Peer.takeReply command.head replies = (none, replies)) :
    acknowledge command { peer := { replies }, log } =
      .ok () { peer := { replies }, log := log.push command } := by
  have answered : ({ replies } : Peer).receive command = { replies, unread := ["success"] } := by
    simp only [Peer.receive, if_true, unprepared, Option.getD_none, plain]
    rfl
  have read : SExpr.read ["success"] = (some (.symbol "success"), []) := rfl
  unfold acknowledge receive
  simp only [Action.bind_apply, send_apply, Action.modify_apply, Action.get_apply, answered, read]
  rfl

theorem acknowledge_quiet (command : Command) (log : Array Command)
    (plain : command.plainReply = "success") :
    acknowledge command { log } = .ok () { log := log.push command } :=
  acknowledge_unprepared command log plain rfl

end Channel

namespace Solver

variable {solver : Solver} {α : Type}

/-- A new session has sent its options; it has declared nothing yet and has no terms. -/
theorem eq_of_start {preset : Preset} {peer : Option Peer} {build : Build} {solver : Solver}
    (started : start preset peer build = .ok solver) :
    ∃ channel, solver = { build, channel, levels := preset.levels } ∧
      channel.log = #[.setOption "print-success" "true", .setOption "produce-models" "true"] := by
  cases peer with
  | none => cases started
  | some peer =>
      have ends : Action.Ends
          (fun _ next => next.log =
            #[.setOption "print-success" "true", .setOption "produce-models" "true"])
          (fun _ _ => True) (Channel.greet { peer }) := by
        unfold Channel.greet
        rw [Action.ends_bind]
        refine (Channel.ends_acknowledge _ _).imp (fun _ next sent => ?_) fun _ _ _ => trivial
        refine (Channel.ends_acknowledge _ _).imp (fun _ last sentToo => ?_) fun _ _ _ => trivial
        rw [sentToo, sent]
        rfl
      simp only [start] at started
      cases greeted : Channel.greet { peer } with
      | error error channel =>
          rw [greeted] at started
          cases started
      | ok _ channel =>
          rw [greeted] at started ends
          cases started
          exact ⟨channel, rfl, ends⟩

/-- A new session with a solver that has these replies prepared. -/
def opened (preset : Preset) (replies : List (String × List String)) : Solver where
  channel :=
    { peer := { replies }
      log := #[.setOption "print-success" "true", .setOption "produce-models" "true"] }
  levels := preset.levels

theorem start_opened (preset : Preset) {replies : List (String × List String)}
    (unprepared : Peer.takeReply "set-option" replies = (none, replies)) :
    start preset (some { replies }) = .ok (opened preset replies) := by
  unfold start Channel.greet
  simp only [Action.bind_apply]
  rw [Channel.acknowledge_unprepared (.setOption _ _) _ rfl unprepared]
  dsimp only
  rw [Channel.acknowledge_unprepared (.setOption _ _) _ rfl unprepared]
  rfl

theorem onTerms_apply (change : Dag SExpr.Label → α × Dag SExpr.Label) (solver : Solver) :
    onTerms change solver =
      .ok (change solver.terms).1 { solver with terms := (change solver.terms).2 } := rfl

theorem onChannel_apply (action : Action Channel α) (solver : Solver) :
    onChannel action solver =
      match action solver.channel with
      | .ok result channel => .ok result { solver with channel }
      | .error error channel => .error error { solver with channel } := rfl

theorem symbol_apply (text : String) (solver : Solver) :
    symbol text solver =
      .ok (solver.terms.intern ⟨.symbol text, []⟩).1
        { solver with terms := (solver.terms.intern ⟨.symbol text, []⟩).2 } := rfl

def withWidth (widths : Std.HashMap Nat Width) (term : Nat) : SmtSort → Std.HashMap Nat Width
  | .bits width => widths.insert term width
  | .bool | .int => widths

theorem recordWidth_apply (term : Nat) (sort : SmtSort) (solver : Solver) :
    recordWidth term sort solver =
      .ok () { solver with widths := withWidth solver.widths term sort } := by
  cases sort <;> rfl

theorem bitsLiteral_of_fits {width : Width} {pattern : Nat} (fits : pattern < 2 ^ width.bits) :
    bitsLiteral width pattern solver = symbol (Numeral.bitsText width.bits pattern) solver := by
  rw [bitsLiteral, Action.bind_apply, checkNumeral_of_fits fits, Action.lift_ok_apply]

/-! ## Variables -/

theorem declare_of_unspellable {name : String} {sort : SmtSort}
    (unspellable : Symbol.isSpellable name = false) :
    declare name sort solver = .error (.unspellable name) solver := by
  simp [declare, unspellable, Action.bind_apply, Action.throw_apply]

theorem declare_of_declared {name : String} {sort existing : SmtSort} {term : Nat}
    (spellable : Symbol.isSpellable name = true)
    (declared : solver.declared[name]? = some (existing, term)) :
    declare name sort solver =
      if existing = sort then .ok term solver
      else .error (.redeclared name existing sort) solver := by
  simp only [declare, spellable, Bool.not_true, Bool.false_eq_true, if_false]
  rw [Action.bind_apply, Action.get_apply]
  dsimp only
  rw [declared]
  dsimp only
  split <;> rfl

/-- The state in which a variable's symbol is there and the solver has been told about it. -/
def introduced (solver : Solver) (name : String) (channel : Channel) : Solver :=
  { solver with
    channel
    terms := (solver.terms.intern ⟨.symbol (Symbol.text name), []⟩).2 }

theorem declare_of_undeclared {name : String} {sort : SmtSort}
    (spellable : Symbol.isSpellable name = true)
    (undeclared : solver.declared[name]? = none) :
    declare name sort solver =
      match Channel.acknowledge (.declare (Symbol.text name) sort) solver.channel with
      | .ok _ channel =>
        .ok (solver.terms.intern ⟨.symbol (Symbol.text name), []⟩).1
          { solver.introduced name channel with
            declared := solver.declared.insert name
              (sort, (solver.terms.intern ⟨.symbol (Symbol.text name), []⟩).1)
            widths := withWidth solver.widths
              (solver.terms.intern ⟨.symbol (Symbol.text name), []⟩).1 sort }
      | .error error channel => .error error (solver.introduced name channel) := by
  simp only [declare, spellable, Bool.not_true, Bool.false_eq_true, if_false]
  rw [Action.bind_apply, Action.get_apply]
  dsimp only
  rw [undeclared]
  dsimp only
  rw [Action.bind_apply, symbol_apply]
  dsimp only
  rw [Action.bind_apply, onChannel_apply]
  dsimp only
  cases Channel.acknowledge (.declare (Symbol.text name) sort) solver.channel with
  | error error channel => rfl
  | ok answer channel =>
      dsimp only
      rw [Action.bind_apply]
      unfold recordDeclared
      rw [Action.modify_apply]
      dsimp only
      rw [Action.bind_apply, recordWidth_apply]
      rfl

/-! ## Applications -/

theorem apply_of_undrafted {operator : Operator} {operands : List Nat} {result : SmtSort}
    {error : Error} (undrafted : solver.draft operator operands result = .error error) :
    apply operator operands result solver = .error error solver := by
  unfold apply
  rw [Action.bind_apply, Action.get_apply]
  dsimp only
  rw [Action.bind_apply, undrafted, Action.lift_error_apply]

theorem apply_of_draft {operator : Operator} {operands : List Nat} {result : SmtSort}
    {draft : Draft} (drafted : solver.draft operator operands result = .ok draft) :
    ∃ widths, apply operator operands result solver =
        .ok (draft.share solver.terms).1
          { solver with terms := (draft.share solver.terms).2, widths } ∧
      (widths = withWidth solver.widths (draft.share solver.terms).1 result ∨
        widths = solver.widths ∧ ∃ width pattern,
          SExpr.literal? (SExpr.outline (draft.share solver.terms).2
            (draft.share solver.terms).1) = some (.bits width pattern)) := by
  unfold apply
  rw [Action.bind_apply, Action.get_apply]
  dsimp only
  rw [Action.bind_apply, drafted, Action.lift_ok_apply]
  dsimp only
  rw [Action.bind_apply, onTerms_apply]
  dsimp only
  rw [Action.bind_apply, Action.get_apply]
  dsimp only
  unfold literal?
  dsimp only
  have recorded (next : Solver) (term : Nat) :
      (recordWidth term result >>= fun _ => pure term : Action Solver Nat) next =
        .ok term { next with widths := withWidth next.widths term result } := by
    rw [Action.bind_apply, recordWidth_apply]
    rfl
  cases SExpr.literal? (SExpr.outline (draft.share solver.terms).2
      (draft.share solver.terms).1) with
  | none => exact ⟨_, recorded _ _, .inl rfl⟩
  | some literal =>
      cases literal with
      | bits width pattern => exact ⟨_, rfl, .inr ⟨rfl, width, pattern, rfl⟩⟩
      | bool truth => exact ⟨_, recorded _ _, .inl rfl⟩
      | int number => exact ⟨_, recorded _ _, .inl rfl⟩

/-! ## Values of the model -/

theorem modelValue_apply (term : Nat) (sort : SmtSort) (solver : Solver) :
    modelValue term sort solver =
      match Channel.value (solver.text term) solver.channel with
      | .ok value channel =>
        if value.literal?.map Value.kind = some sort.kind then
          .ok (value.share solver.terms).1
            { solver with channel, terms := (value.share solver.terms).2 }
        else
          .error (.notLiteral value.text) { solver with channel }
      | .error error channel => .error error { solver with channel } := by
  unfold modelValue
  rw [Action.bind_apply, Action.get_apply]
  dsimp only
  rw [Action.bind_apply, onChannel_apply]
  cases Channel.value (solver.text term) solver.channel with
  | error error channel => rfl
  | ok value channel =>
      dsimp only
      cases value.literal? with
      | none => rfl
      | some literal =>
          by_cases same : literal.kind = sort.kind
          · simp only [same, if_true, Option.map_some]
            rfl
          · simp only [same, if_false, Option.map_some, Option.some.injEq]
            rfl

end Solver

end BitTerms
