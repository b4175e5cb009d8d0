import BitTerms.Proofs.Session.Simulation
import BitTerms.Proofs.TermTable.Requests
import BitTerms.Proofs.TermTable.Trees

/-!
# Room for more terms

A table has room for as many terms as there are machine words. A step that builds adds one term at
most, and a simplification at most one for every term below the one that it simplifies. So there is
room for a typed application as long as the table is not full, for a simplification as long as it is
not half full, and for fewer calls than there are words, whatever else they do but simplify.
-/

namespace BitTerms.TermTable

variable {table next : TermTable} {operator : Operator} {operands : List Nat} {sort : SmtSort}
  {term : Nat}

/-! ## What a step adds -/

/-- The step adds one term at most, and none where it fails. -/
abbrev AddsOne (table : TermTable) : EStateM.Result Error TermTable Nat → Prop :=
  Action.Ends (fun _ next => next.terms.size ≤ table.terms.size + 1)
    (fun _ next => next.terms = table.terms)

theorem addsOne_intern (label : TermLabel) (operands : List Nat) (table : TermTable) :
    table.AddsOne (intern label operands table) := by
  cases interned : intern label operands table with
  | error error next => exact congrArg terms (unchanged_of_intern interned).1
  | ok term next =>
      rcases intern_made interned with ⟨-, rfl, rfl⟩
      exact table.terms.size_intern_le _

theorem addsOne_fold (operator : Operator) (operands : List Nat) (sort : SmtSort)
    (table : TermTable) : table.AddsOne (fold operator operands sort table) := by
  rcases fold_cases operator operands sort table with
    ⟨label, -, isLiteral⟩ | ⟨error, failed⟩ | ⟨branch, chosen⟩ | applied
  · exact isLiteral ▸ addsOne_intern label [] table
  · exact failed ▸ rfl
  · exact chosen ▸ Nat.le_succ _
  · exact applied ▸ addsOne_intern ⟨.apply operator, sort⟩ operands table

theorem addsOne_simplifyNode (position : Nat) (label : TermLabel) (operands : List Nat)
    (table : TermTable) : table.AddsOne (simplifyNode position label operands table) := by
  rcases label with ⟨head, sort⟩
  cases head with
  | apply operator => exact table.addsOne_fold operator operands sort
  | _ => exact Nat.le_succ _

theorem addsOne_apply (operator : Operator) (operands : List Nat) (sort : SmtSort)
    (table : TermTable) : table.AddsOne (apply operator operands sort table) := by
  cases folding : table.folding with
  | true =>
      rw [apply_of_folding folding]
      exact table.addsOne_fold operator operands sort
  | false =>
      rw [apply_of_plain folding]
      exact table.addsOne_intern ⟨.apply operator, sort⟩ operands

theorem addsOne_declare (name : String) (sort : SmtSort) (table : TermTable) :
    table.AddsOne (declare name sort table) := by
  cases spellable : Symbol.isSpellable name with
  | false =>
      rw [declare_of_unspellable spellable]
      exact rfl
  | true =>
      rw [declare_of_spellable spellable]
      cases declared : table.sorts[name]? with
      | none =>
          rw [record_of_undeclared declared]
          exact addsOne_intern ⟨.variable name, sort⟩ [] _
      | some existing =>
          rw [record_of_declared declared]
          by_cases same : existing = sort
          · rw [if_pos same]
            exact addsOne_intern ⟨.variable name, sort⟩ [] table
          · rw [if_neg same]
            exact rfl

theorem addsOne_request {request : Request} (notSimplified : ∀ operand, request ≠ .simplify operand)
    (sort : SmtSort) (table : TermTable) : table.AddsOne (request.run sort table) := by
  cases request with
  | declare name => exact table.addsOne_declare name sort
  | bitsLiteral width pattern =>
      change table.AddsOne (bitsLiteral width pattern table)
      rw [bitsLiteral, Action.bind_apply]
      cases checkNumeral width pattern with
      | ok _ => exact table.addsOne_intern ⟨.bits pattern, .bits width⟩ []
      | error error => exact rfl
  | boolLiteral truth => exact table.addsOne_intern ⟨.bool truth, .bool⟩ []
  | apply operator operands => exact table.addsOne_apply operator (operands.map Expr.term) sort
  | simplify operand => exact absurd rfl (notSimplified operand)

/-! ## Single steps -/

/-- Where there is room for one more term, a typed application is made. -/
theorem Valid.exists_apply (valid : table.Valid) {sorts : List SmtSort}
    (sorted : table.HasSorts operands sorts) (rule : operator.Types sorts sort)
    (room : table.terms.size < wordLimit) :
    ∃ term next, apply operator operands sort table = .ok term next := by
  have builds := valid.builds_apply sorted rule
  have adds := table.addsOne_apply operator operands sort
  cases made : apply operator operands sort table with
  | ok term next => exact ⟨term, next, rfl⟩
  | error error next =>
      rw [made] at builds adds
      have full : wordLimit ≤ next.terms.size := builds.2.2
      rw [adds] at full
      exact absurd room (Nat.not_lt.mpr full)

/-- Simplification visits each term below another once, so it has room in a table that is not half
full. -/
theorem Valid.exists_simplify (valid : table.Valid) (inside : term < table.terms.size)
    (room : 2 * table.terms.size < wordLimit) :
    ∃ result next, simplify term table = .ok result next := by
  have found := Array.getElem?_eq_getElem inside
  have adds := valid.shared.bottomUp_adds (fun position label results state =>
    (state.addsOne_simplifyNode position label results).imp (fun _ _ => id)
      fun _ _ same => same ▸ Nat.le_succ _) inside table
  have ends := valid.builds_simplify (sort?_eq_some_iff.mpr ⟨_, found, rfl⟩)
  have notFull : Action.Ends (fun _ _ => True) (fun _ next => ¬ next.IsFull)
      (simplify term table) := by
    refine ends_simplify_iff.mpr (adds.imp (fun _ _ _ => trivial) fun _ next le full => ?_)
    have : wordLimit ≤ next.terms.size := full
    omega
  cases simplified : simplify term table with
  | ok result next => exact ⟨result, next, rfl⟩
  | error error next =>
      rw [simplified] at ends notFull
      exact absurd ends.2.2 notFull

/-! ## Sessions -/

/-- No call has found the table full. -/
abbrev HadRoom (session : Session TermTable) : Prop := .failed .tableFull ∉ session.outcomes

theorem HadRoom.noExcuse {session : Session TermTable} (hadRoom : HadRoom session) :
    session.NoExcuse (· = .tableFull) := by
  rintro error rfl
  exact hadRoom

/-- A call that does not simplify adds one term at most, and finds room as long as the table is not
full. -/
theorem Holds.hadRoom_call {base : TermTable} {session : Session TermTable}
    (holds : Holds base session) (hadRoom : HadRoom session) {call : Call}
    (notSimplified : ∀ operand, call ≠ .simplify operand)
    (room : session.context.engine.terms.size < wordLimit) :
    HadRoom (session.call call) ∧
      (session.call call).context.engine.terms.size ≤ session.context.engine.terms.size + 1 := by
  rw [Session.call_eq]
  simp only [HadRoom, Session.follow, List.mem_append, List.mem_singleton, not_or]
  cases ending : (call.plan session.context.id session.expr?).ending with
  | skip | finish => exact ⟨⟨hadRoom, by simp [Ending.follow]⟩, Nat.le_succ _⟩
  | refuse error =>
      refine ⟨⟨hadRoom, ?_⟩, Nat.le_succ _⟩
      rintro ⟨⟩
      exact (Call.isRefusal_of_refuse ending).2
  | ask request sort =>
      have adds := addsOne_request (Call.ne_simplify_of_asks notSimplified ending) sort
        session.context.engine
      have ends := holds.engine.valid.ends_request (holds.proper ending)
      simp only [Ending.follow]
      cases answered : request.run sort session.context.engine with
      | ok term next =>
          rw [answered] at adds
          exact ⟨⟨hadRoom, by simp⟩, adds⟩
      | error error next =>
          rw [answered] at adds ends
          have same : next.terms.size = session.context.engine.terms.size := congrArg Dag.size adds
          refine ⟨⟨hadRoom, ?_⟩, same ▸ Nat.le_succ _⟩
          rintro ⟨⟩
          have full : wordLimit ≤ next.terms.size := ends.full rfl
          omega

/-- A session of fewer calls than there are words has room, if it does not simplify. -/
theorem hadRoom_of_length (id : Nat) (folding : Bool) {calls : List Call}
    (notSimplified : ∀ operand, .simplify operand ∉ calls) (few : calls.length ≤ wordLimit) :
    HadRoom ((Session.start id ({ folding } : TermTable)).run calls) ∧
      ((Session.start id ({ folding } : TermTable)).run calls).context.engine.terms.size ≤
        calls.length := by
  induction calls using List.reverseRecOn with
  | nil => exact ⟨by simp [HadRoom, Session.run, Session.start], Nat.le_refl _⟩
  | append_singleton calls last induction =>
      rw [List.length_append, List.length_singleton] at few ⊢
      have lastNot (operand : Operand) : last ≠ .simplify operand :=
        fun same => notSimplified operand (by simp [same])
      rcases induction (fun operand member => notSimplified operand (by simp [member]))
        (Nat.le_of_succ_le few) with ⟨hadRoom, small⟩
      rw [Session.run_append]
      rcases (holds_run id folding calls).hadRoom_call hadRoom lastNot
        (Nat.lt_of_le_of_lt small few) with ⟨hadRoomNext, grown⟩
      exact ⟨hadRoomNext, Nat.le_trans grown (Nat.succ_le_succ small)⟩

end BitTerms.TermTable
