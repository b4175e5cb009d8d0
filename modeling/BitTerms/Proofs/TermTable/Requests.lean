import BitTerms.Proofs.Dag.Text
import BitTerms.Proofs.Session.Leaves
import BitTerms.Proofs.TermTable.Simplification
import Mathlib.Data.List.Induction

/-!
# Requests to a term table

What a request comes to, said once: a term of a valid table that extends the old one and has no
new variable but the one that was asked for, or an error that leaves the table as it was, or a full
table. So a session only ever adds to its table, and what a call asked for stays where the call
found it.
-/

namespace BitTerms.TermTable

variable {base table next : TermTable} {request : Request} {sort : SmtSort} {label : TermLabel}
  {name : String} {term : Nat}

/-! ## Leaves -/

def IsLeaf (table : TermTable) (term : Nat) (label : TermLabel) : Prop :=
  table.terms.nodes[term]? = some ⟨label, []⟩

theorem isLeaf_of_intern (shared : table.terms.WellFormed)
    (interned : table.terms.intern ⟨label, []⟩ = (term, next.terms)) : next.IsLeaf term label := by
  have stored := shared.nodes_intern ⟨label, []⟩
  rw [interned] at stored
  exact stored

theorem intern_of_declare (declared : declare name sort table = .ok term next) :
    table.terms.intern ⟨⟨.variable name, sort⟩, []⟩ = (term, next.terms) := by
  cases spellable : Symbol.isSpellable name with
  | false =>
      rw [declare_of_unspellable spellable] at declared
      cases declared
  | true =>
      rw [declare_of_spellable spellable] at declared
      cases known : table.sorts[name]? with
      | none =>
          rw [record_of_undeclared known] at declared
          have interned := intern_made declared
          rcases interned with ⟨-, rfl, rfl⟩
          rfl
      | some existing =>
          rw [record_of_declared known] at declared
          by_cases same : existing = sort
          · rw [if_pos same] at declared
            exact eq_of_intern declared
          · rw [if_neg same] at declared
            cases declared

/-- A leaf that is made is the node that was asked for. -/
theorem intern_of_leaf (asked : request.leaf? sort = some label)
    (proper : request.Proper (fun term sort => table.sort? term = some sort) sort)
    (made : request.run sort table = .ok term next) :
    table.terms.intern ⟨label, []⟩ = (term, next.terms) := by
  cases request with
  | declare name =>
      cases asked
      exact intern_of_declare made
  | bitsLiteral width pattern =>
      cases asked
      rcases proper with ⟨rfl, fits⟩
      change bitsLiteral width pattern table = _ at made
      rw [bitsLiteral_of_fits fits] at made
      exact eq_of_intern made
  | boolLiteral truth =>
      cases asked
      rcases proper with rfl
      exact eq_of_intern made
  | apply operator operands => cases asked
  | simplify operand => cases asked

/-- A literal that was asked for is made, unless the table is full. -/
theorem Valid.builds_literal (valid : table.Valid) (asked : request.leaf? sort = some label)
    {value : Value} (isLiteral : label.literal? = some value)
    (proper : request.Proper (fun term sort => table.sort? term = some sort) sort) :
    table.Builds (fun _ _ => True) (request.run sort table) := by
  cases request with
  | declare name =>
      cases asked
      cases isLiteral
  | bitsLiteral width pattern =>
      rcases proper with ⟨rfl, fits⟩
      exact Builds.imp (valid.builds_bitsLiteral fits) fun _ _ _ _ => trivial
  | boolLiteral truth =>
      rcases proper with rfl
      exact Builds.imp (valid.builds_boolLiteral truth) fun _ _ _ _ => trivial
  | apply operator operands => cases asked
  | simplify operand => cases asked

/-- The state excuses an error for it: there is no room for another term. -/
def Excuses (table : TermTable) (error : Error) : Prop := error = .tableFull ∧ table.IsFull

/-- A leaf that was asked for is in the table, and only a variable may be refused, unless the table
is full. -/
theorem Valid.ends_leaf (valid : table.Valid) (asked : request.leaf? sort = some label)
    (proper : request.Proper (fun term sort => table.sort? term = some sort) sort) :
    Action.Ends (fun term next => next.IsLeaf term label)
      (fun error next => label.literal? = none ∨ next.Excuses error) (request.run sort table) := by
  cases came : request.run sort table with
  | ok term next => exact isLeaf_of_intern valid.shared (intern_of_leaf asked proper came)
  | error error next =>
      cases isLiteral : label.literal? with
      | none => exact .inl rfl
      | some value =>
          have ends := valid.builds_literal asked isLiteral proper
          rw [came] at ends
          exact .inr ⟨ends.1, ends.2.2⟩

theorem hasLeaves : Engine.HasLeaves Valid IsLeaf fun _ => True where
  literal {table} term label found _ := by
    change table.literal? term = _
    rw [literal?, Dag.label?_eq found]
    rfl
  text found spelled := Dag.text_of_word found spelled
  unique valid found foundToo := valid.shared.position_eq found foundToo
  again {table} term pattern width valid fits found := by
    refine ⟨table, ?_⟩
    change bitsLiteral width pattern table = _
    rw [bitsLiteral_of_fits fits]
    exact intern_of_nodes valid.shared found

/-! ## What a request leaves -/

/-- The new table is valid and extends the old one, without new variables but the one that was
asked for. -/
structure Answered (request : Request) (sort : SmtSort) (old new : TermTable) : Prop where
  valid : new.Valid
  grown : old.Extends new
  recorded : ∀ {name : String} {other : SmtSort}, new.sorts[name]? = some other →
    old.sorts[name]? = some other ∨ request = .declare name ∧ other = sort

theorem Grows.answered (grows : table.Grows next) : Answered request sort table next where
  valid := grows.valid
  grown := grows.grown
  recorded found := .inl (grows.sameSorts ▸ found)

theorem HasSorts.of_exprs {exprs : List Expr}
    (sorted : ∀ expr ∈ exprs, table.sort? expr.term = some expr.sort) :
    table.HasSorts (exprs.map Expr.term) (exprs.map Expr.sort) := by
  rw [HasSorts, List.forall₂_map_left_iff, List.forall₂_map_right_iff, List.forall₂_same]
  exact sorted

theorem Records.answered (records : Records name sort table next) :
    Answered (.declare name) sort table next where
  valid := records.valid
  grown := records.grown
  recorded found := by
    rw [records.sorts] at found
    split at found
    case isTrue same => exact .inr ⟨same ▸ rfl, (Option.some.inj found).symm⟩
    case isFalse => exact .inl found

/-- What a request leaves where it fails: what was there, or a full table. -/
structure Failed (request : Request) (sort : SmtSort) (old : TermTable) (error : Error)
    (new : TermTable) : Prop where
  answered : Answered request sort old new
  full : error = .tableFull → new.IsFull
  unchanged : error ≠ .tableFull → new = old

theorem Valid.failed_self (valid : table.Valid) {error : Error} (other : error ≠ .tableFull) :
    Failed request sort table error table :=
  ⟨(Grows.refl valid).answered, fun isFull => absurd isFull other, fun _ => rfl⟩

theorem ends_of_builds {good : Nat → TermTable → Prop}
    {outcome : EStateM.Result Error TermTable Nat} (builds : table.Builds good outcome)
    (sorted : ∀ term next, table.Grows next → good term next → next.sort? term = some sort) :
    Action.Ends (fun term next => Answered request sort table next ∧ next.sort? term = some sort)
      (Failed request sort table) outcome :=
  Action.Ends.imp builds
    (fun term next ends => ⟨ends.1.answered, sorted term next ends.1 ends.2⟩)
    fun _ _ ends => ⟨ends.2.1.answered, fun _ => ends.2.2, fun other => absurd ends.1 other⟩

theorem Valid.ends_declare_request (valid : table.Valid) (name : String) (sort : SmtSort) :
    Action.Ends
      (fun term next => Answered (.declare name) sort table next ∧ next.sort? term = some sort)
      (Failed (.declare name) sort table) (declare name sort table) := by
  cases spellable : Symbol.isSpellable name with
  | false =>
      rw [declare_of_unspellable spellable]
      exact valid.failed_self (by simp)
  | true =>
      by_cases other : ∃ existing, table.sorts[name]? = some existing ∧ existing ≠ sort
      · rcases other with ⟨existing, declared, different⟩
        rw [declare_of_other spellable declared different]
        exact valid.failed_self (by simp)
      · have free : ∀ existing, table.sorts[name]? = some existing → existing = sort := by
          simpa using other
        exact (valid.ends_declare sort spellable free).imp
          (fun _ _ ends => ⟨ends.1.answered, ends.2.sort⟩)
          fun _ _ ends => ⟨ends.2.1.answered, fun _ => ends.2.2, fun other => absurd ends.1 other⟩

theorem Valid.ends_request (valid : table.Valid)
    (proper : request.Proper (fun term sort => table.sort? term = some sort) sort) :
    Action.Ends
      (fun term next => Answered request sort table next ∧ next.sort? term = some sort)
      (Failed request sort table) (request.run sort table) := by
  cases request with
  | declare name => exact valid.ends_declare_request name sort
  | bitsLiteral width pattern =>
      rcases proper with ⟨rfl, fits⟩
      exact ends_of_builds (valid.builds_bitsLiteral fits) fun _ _ _ stands => stands.sort
  | boolLiteral truth =>
      rcases proper with rfl
      exact ends_of_builds (valid.builds_boolLiteral truth) fun _ _ _ stands => stands.sort
  | apply operator operands =>
      rcases proper with ⟨rule, sorted⟩
      exact ends_of_builds (valid.builds_apply (HasSorts.of_exprs sorted) rule)
        fun _ _ _ stands => stands.sort
  | simplify operand =>
      rcases proper with ⟨rfl, sorted⟩
      exact ends_of_builds (valid.builds_simplify sorted)
        fun _ _ grows same => same.sort_eq (grows.grown.sort? sorted)

/-! ## What a session reaches -/

/-- A valid table that has grown from `base`, with a term for each of its variables unless it is
full. -/
structure Reached (base table : TermTable) : Prop where
  valid : table.Valid
  grown : base.Extends table
  named : ∀ {name : String} {sort : SmtSort}, table.sorts[name]? = some sort →
    (∃ term, table.IsLeaf term ⟨.variable name, sort⟩) ∨ table.IsFull

theorem reached_empty (folding : Bool) : Reached { folding } { folding } :=
  ⟨valid_empty folding, .refl _, by simp⟩

theorem Reached.refl (reached : Reached base table) : Reached table table :=
  ⟨reached.valid, .refl table, reached.named⟩

theorem Reached.step (reached : Reached base table) (answered : Answered request sort table next)
    (leaf : ∀ name, request = .declare name →
      (∃ term, next.IsLeaf term ⟨.variable name, sort⟩) ∨ next.IsFull) :
    Reached base next where
  valid := answered.valid
  grown := reached.grown.trans answered.grown
  named recorded := by
    rcases answered.recorded recorded with old | ⟨rfl, rfl⟩
    · rcases reached.named old with ⟨term, found⟩ | full
      · exact .inl ⟨term, answered.grown.terms.nodes found⟩
      · exact .inr (answered.grown.isFull full)
    · exact leaf _ rfl

theorem keeps_reached (base : TermTable) :
    Engine.Keeps (Reached base) fun table term sort => table.sort? term = some sort where
  request := by
    intro table request sort reached proper
    have ends := reached.valid.ends_request proper
    cases answered : request.run sort table with
    | error error next =>
        rw [answered, Action.ends_error] at ends
        refine ⟨?_, fun _ _ => ends.answered.grown.sort?⟩
        by_cases isFull : error = .tableFull
        · exact reached.step ends.answered fun _ _ => .inr (ends.full isFull)
        · rw [ends.unchanged isFull]
          exact reached
    | ok term next =>
        rw [answered, Action.ends_ok] at ends
        refine ⟨reached.step ends.1 ?_, ends.2, fun _ _ => ends.1.grown.sort?⟩
        rintro name rfl
        exact .inl ⟨term, isLeaf_of_intern reached.valid.shared (intern_of_declare answered)⟩

/-- The invariant of a session over a table that has grown from `base`. -/
abbrev Holds (base : TermTable) (session : Session TermTable) : Prop :=
  session.Holds (Reached base) fun table term sort => table.sort? term = some sort

theorem holds_run (id : Nat) (folding : Bool) (calls : List Call) :
    Holds { folding } ((Session.start id ({ folding } : TermTable)).run calls) :=
  (Session.holds_start id (reached_empty folding)).run (keeps_reached _) calls

theorem Holds.later {session : Session TermTable} (holds : Holds base session)
    (more : List Call) : Holds session.context.engine (session.run more) :=
  Session.Holds.run ⟨holds.engine.refl, holds.own, holds.exprs⟩ (keeps_reached _) more

theorem recalls_run (id : Nat) (folding : Bool) (calls : List Call) :
    ((Session.start id ({ folding } : TermTable)).run calls).Recalls IsLeaf Excuses Call.leaf?
      calls := by
  induction calls using List.reverseRecOn with
  | nil => exact Session.recalls_start id _
  | append_singleton calls last induction =>
      have holds := holds_run id folding calls
      rw [Session.run_append]
      generalize (Session.start id ({ folding } : TermTable)).run calls = session
        at holds induction ⊢
      rcases session.exists_outcome last with ⟨outcome, came⟩
      have grown := (holds.later [last]).engine.grown
      refine induction.append came (fun term label => ?_) (fun error excused => ?_)
        fun label asked => ?_
      · exact grown.terms.nodes
      · exact excused.imp_right grown.isFull
      · refine Session.shows_call asked came fun request planned isLeaf => ?_
        exact holds.engine.valid.ends_leaf isLeaf (holds.proper planned)

end BitTerms.TermTable
