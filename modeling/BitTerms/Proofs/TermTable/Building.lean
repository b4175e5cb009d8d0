import BitTerms.Proofs.Action
import BitTerms.Proofs.TermTable.Meaning

/-!
# Building terms

Every step that builds a term leaves a valid table that extends the one before, and gives a term
that stands for what was asked for: a literal, a variable or an application. A folded application
may be some other term, but it has the sort and the values of the application and no variables
that its operands do not have.
-/

namespace BitTerms.TermTable

variable {table next : TermTable} {assignment : Assignment} {term : Nat} {sort : SmtSort}

/-- The term has the sort and the values of the node, and its variables are among the node's. -/
structure StandsFor (table : TermTable) (term : Nat) (node : Dag.Node TermLabel) : Prop where
  sort : table.sort? term = some node.label.sort
  value : ∀ assignment, table.Respects assignment →
    table.value? assignment term =
      node.label.value? assignment (node.children.map (table.value? assignment))
  names : table.freeVariables term ⊆
    node.label.freeVariables (node.children.map table.freeVariables)

/-- The new table is valid and extends the old one, without new variables. -/
structure Grows (old new : TermTable) : Prop where
  valid : new.Valid
  grown : old.Extends new
  sameSorts : new.sorts = old.sorts

theorem Grows.refl (valid : table.Valid) : table.Grows table := ⟨valid, .refl table, rfl⟩

theorem Grows.trans {last : TermTable} (first : table.Grows next) (second : next.Grows last) :
    table.Grows last :=
  ⟨second.valid, first.grown.trans second.grown, second.sameSorts.trans first.sameSorts⟩

theorem Grows.respects (grows : Grows table next) :
    next.Respects assignment ↔ table.Respects assignment := by
  unfold Respects
  rw [grows.sameSorts]

theorem Valid.standsFor (valid : table.Valid) {node : Dag.Node TermLabel}
    (found : table.terms.nodes[term]? = some node) : table.StandsFor term node where
  sort := sort?_eq_some_iff.mpr ⟨node, found, rfl⟩
  value _ _ := valid.value?_eq found
  names := by
    rw [valid.freeVariables_eq found]
    exact List.Subset.refl _

/-! ## Full tables -/

/-- There are as many terms as positions fit into a machine word. -/
def IsFull (table : TermTable) : Prop := wordLimit ≤ table.terms.size

theorem Extends.isFull (grown : table.Extends next) (full : table.IsFull) : next.IsFull :=
  Nat.le_trans full grown.terms.size_le

/-- What comes of a step that builds: such a term, of a table that has grown, unless the table is
found to be full. -/
abbrev Builds (table : TermTable) (good : Nat → TermTable → Prop) :
    EStateM.Result Error TermTable Nat → Prop :=
  Action.Ends (fun term next => table.Grows next ∧ good term next)
    (fun error next => error = .tableFull ∧ table.Grows next ∧ next.IsFull)

theorem Builds.imp {good good' : Nat → TermTable → Prop}
    {outcome : EStateM.Result Error TermTable Nat} (builds : table.Builds good outcome)
    (imp : ∀ term next, table.Grows next → good term next → good' term next) :
    table.Builds good' outcome :=
  Action.Ends.imp builds (fun term next ends => ⟨ends.1, imp term next ends.1 ends.2⟩)
    fun _ _ => id

/-! ## Interning -/

theorem intern_apply (label : TermLabel) (operands : List Nat) (table : TermTable) :
    intern label operands table =
      if hasRoom table.terms ⟨label, operands⟩ then
        .ok (table.terms.intern ⟨label, operands⟩).1
          { table with terms := (table.terms.intern ⟨label, operands⟩).2 }
      else
        .error .tableFull table := by
  unfold intern
  rfl

theorem intern_of_nodes {label : TermLabel} {operands : List Nat}
    (shared : table.terms.WellFormed) (found : table.terms.nodes[term]? = some ⟨label, operands⟩) :
    intern label operands table = .ok term table := by
  have room : hasRoom table.terms ⟨label, operands⟩ = true := by
    rw [hasRoom, (shared.contains_iff _).mpr ⟨term, found⟩, Bool.or_true]
  rw [intern_apply, if_pos room, Dag.intern_of_index ((shared.index_iff _ _).mpr found)]

theorem intern_made {label : TermLabel} {operands : List Nat}
    (interned : intern label operands table = .ok term next) :
    hasRoom table.terms ⟨label, operands⟩ = true ∧
      (table.terms.intern ⟨label, operands⟩).1 = term ∧
      { table with terms := (table.terms.intern ⟨label, operands⟩).2 } = next := by
  rw [intern_apply] at interned
  split at interned
  case isTrue room =>
      cases interned
      exact ⟨room, rfl, rfl⟩
  case isFalse => cases interned

theorem eq_of_intern {label : TermLabel} {operands : List Nat}
    (interned : intern label operands table = .ok term next) :
    table.terms.intern ⟨label, operands⟩ = (term, next.terms) := by
  rcases intern_made interned with ⟨-, rfl, rfl⟩
  rfl

/-- Where nothing can be added, nothing has changed. -/
theorem unchanged_of_intern {label : TermLabel} {operands : List Nat} {error : Error}
    (failed : intern label operands table = .error error next) :
    next = table ∧ error = .tableFull ∧ table.IsFull := by
  rw [intern_apply] at failed
  split at failed
  case isTrue => cases failed
  case isFalse noRoom =>
      cases failed
      refine ⟨rfl, rfl, ?_⟩
      rw [hasRoom, Bool.or_eq_true, not_or, decide_eq_true_iff] at noRoom
      exact Nat.not_lt.mp noRoom.1

theorem nodes_of_intern {label : TermLabel} {operands : List Nat}
    (shared : table.terms.WellFormed) (interned : intern label operands table = .ok term next) :
    next.terms.nodes[term]? = some ⟨label, operands⟩ := by
  have stored := shared.nodes_intern ⟨label, operands⟩
  rwa [eq_of_intern interned] at stored

theorem extends_of_intern {label : TermLabel} {operands : List Nat}
    (interned : intern label operands table = .ok term next) :
    table.terms.Extends next.terms := by
  have grown := table.terms.extends_intern ⟨label, operands⟩
  rwa [eq_of_intern interned] at grown

theorem NodeValid.child_lt {node : Dag.Node TermLabel} (allowed : table.NodeValid node) :
    ∀ child ∈ node.children, child < table.terms.size := by
  intro child member
  cases allowed with
  | named | literal => simp at member
  | apply operator operands sorts sort sorted rule =>
      rcases exists_of_mem_left sorted member with ⟨sort, -, hasSort⟩
      exact lt_size_of_sort? hasSort

/-- A node that is there already, or that there is room for, leaves positions within words. -/
theorem Valid.size_intern_le (valid : table.Valid) {node : Dag.Node TermLabel}
    (room : hasRoom table.terms node = true) : (table.terms.intern node).2.size ≤ wordLimit := by
  rw [hasRoom, Bool.or_eq_true, decide_eq_true_iff] at room
  rcases room with below | present
  · exact Nat.le_trans (table.terms.size_intern_le node) below
  · rw [Dag.intern_of_contains present]
    exact valid.bounded

/-- A node that obeys the typing rules is added to a valid table, unless the table is full. -/
theorem Valid.builds_node (valid : table.Valid) {label : TermLabel} {operands : List Nat}
    (allowed : table.NodeValid ⟨label, operands⟩) :
    table.Builds (fun term next => next.terms.nodes[term]? = some ⟨label, operands⟩)
      (intern label operands table) := by
  cases interned : intern label operands table with
  | error error next =>
      rcases unchanged_of_intern interned with ⟨rfl, rfl, full⟩
      exact ⟨rfl, .refl valid, full⟩
  | ok term next =>
      rcases intern_made interned with ⟨room, rfl, rfl⟩
      have grown : table.Extends
          { table with terms := (table.terms.intern ⟨label, operands⟩).2 } :=
        ⟨table.terms.extends_intern _, id, rfl⟩
      refine ⟨⟨⟨valid.shared.intern allowed.child_lt, valid.size_intern_le room, ?_⟩, grown, rfl⟩,
        valid.shared.nodes_intern ⟨label, operands⟩⟩
      intro position node found
      rcases Dag.nodes_intern_cases table.terms ⟨label, operands⟩ found with old | rfl
      · exact (valid.node old).mono grown
      · exact allowed.mono grown

theorem Valid.builds_intern (valid : table.Valid) {label : TermLabel} {operands : List Nat}
    (allowed : table.NodeValid ⟨label, operands⟩) :
    table.Builds (fun term next => next.StandsFor term ⟨label, operands⟩)
      (intern label operands table) :=
  (valid.builds_node allowed).imp fun _ _ grows found => grows.valid.standsFor found

/-! ## Variables and literals -/

theorem declare_of_unspellable {name : String} (unspellable : Symbol.isSpellable name = false) :
    declare name sort table = .error (.unspellable name) table := by
  simp [declare, unspellable, Action.bind_apply, Action.throw_apply]

theorem record_of_declared {name : String} {existing : SmtSort}
    (declared : table.sorts[name]? = some existing) :
    record name sort table =
      if existing = sort then .ok () table else .error (.redeclared name existing sort) table := by
  simp only [record, Action.bind_apply, Action.get_apply, declared]
  split <;> rfl

theorem record_of_undeclared {name : String} (undeclared : table.sorts[name]? = none) :
    record name sort table =
      .ok () { table with sorts := table.sorts.insert name sort } := by
  simp only [record, Action.bind_apply, Action.get_apply, undeclared]
  rfl

theorem declare_of_spellable {name : String} (spellable : Symbol.isSpellable name = true) :
    declare name sort table =
      match record name sort table with
      | .ok _ next => TermTable.intern ⟨.variable name, sort⟩ [] next
      | .error error next => .error error next := by
  simp only [declare, spellable, Bool.not_true, Bool.false_eq_true, if_false]
  rw [Action.bind_apply]
  cases record name sort table <;> rfl

theorem declare_of_other {name : String} {existing : SmtSort}
    (spellable : Symbol.isSpellable name = true)
    (declared : table.sorts[name]? = some existing) (other : existing ≠ sort) :
    declare name sort table = .error (.redeclared name existing sort) table := by
  rw [declare_of_spellable spellable, record_of_declared declared, if_neg other]

/-- The new table is valid and extends the old one, and the variable has its sort there. -/
structure Records (name : String) (sort : SmtSort) (old new : TermTable) : Prop where
  valid : new.Valid
  grown : old.Extends new
  sorts : ∀ other, new.sorts[other]? = if name = other then some sort else old.sorts[other]?

theorem Records.grow {name : String} (records : Records name sort table next) {last : TermTable}
    (grows : next.Grows last) : Records name sort table last where
  valid := grows.valid
  grown := records.grown.trans grows.grown
  sorts other := by rw [grows.sameSorts, records.sorts]

theorem Valid.exists_record (valid : table.Valid) {name : String} (sort : SmtSort)
    (free : ∀ existing, table.sorts[name]? = some existing → existing = sort) :
    ∃ next, record name sort table = .ok () next ∧ Records name sort table next := by
  cases declared : table.sorts[name]? with
  | some existing =>
      rcases free existing declared with rfl
      refine ⟨table, ?_, valid, .refl table, fun other => ?_⟩
      · rw [record_of_declared declared, if_pos rfl]
      · split
        case isTrue same => rw [← same, declared]
        case isFalse => rfl
  | none =>
      have grown : table.Extends { table with sorts := table.sorts.insert name sort } := by
        refine ⟨Dag.Extends.refl _, fun {other otherSort} found => ?_, rfl⟩
        have different : name ≠ other := by
          rintro rfl
          rw [declared] at found
          cases found
        simp [Std.HashMap.getElem?_insert, different, found]
      refine ⟨_, record_of_undeclared declared,
        ⟨valid.shared, valid.bounded, fun found => (valid.node found).mono grown⟩, grown,
        fun other => ?_⟩
      simp only [Std.HashMap.getElem?_insert, beq_iff_eq]

/-- A variable that is free, or has the sort already, has it afterwards, and a term unless the table
is full. -/
theorem Valid.ends_declare (valid : table.Valid) {name : String} (sort : SmtSort)
    (spellable : Symbol.isSpellable name = true)
    (free : ∀ existing, table.sorts[name]? = some existing → existing = sort) :
    Action.Ends
      (fun term next => Records name sort table next ∧
        next.StandsFor term ⟨⟨.variable name, sort⟩, []⟩)
      (fun error next => error = .tableFull ∧ Records name sort table next ∧ next.IsFull)
      (declare name sort table) := by
  rcases valid.exists_record sort free with ⟨next, recorded, records⟩
  have declared : next.sorts[name]? = some sort := by rw [records.sorts, if_pos rfl]
  rw [declare_of_spellable spellable, recorded]
  exact Action.Ends.imp (records.valid.builds_intern (.named name sort declared))
    (fun _ _ ends => ⟨records.grow ends.1, ends.2⟩)
    fun _ _ ends => ⟨ends.1, records.grow ends.2.1, ends.2.2⟩

theorem bitsLiteral_of_fits {width : Width} {pattern : Nat} (fits : pattern < 2 ^ width.bits) :
    bitsLiteral width pattern table = intern ⟨.bits pattern, .bits width⟩ [] table := by
  rw [bitsLiteral, Action.bind_apply, checkNumeral_of_fits fits, Action.lift_ok_apply]

theorem Valid.builds_bitsLiteral (valid : table.Valid) {width : Width} {pattern : Nat}
    (fits : pattern < 2 ^ width.bits) :
    table.Builds (fun term next => next.StandsFor term ⟨⟨.bits pattern, .bits width⟩, []⟩)
      (bitsLiteral width pattern table) := by
  rw [bitsLiteral_of_fits fits]
  exact valid.builds_intern
    (.literal ⟨.bits pattern, .bits width⟩ (.bits width.bits pattern) rfl ⟨rfl, fits⟩)

theorem Valid.builds_boolLiteral (valid : table.Valid) (truth : Bool) :
    table.Builds (fun term next => next.StandsFor term ⟨⟨.bool truth, .bool⟩, []⟩)
      (boolLiteral truth table) :=
  valid.builds_intern (.literal ⟨.bool truth, .bool⟩ (.bool truth) rfl trivial)

/-! ## Applications -/

theorem Valid.application (valid : table.Valid) {operator : Operator} {operands : List Nat}
    (found : table.terms.nodes[term]? = some ⟨⟨.apply operator, sort⟩, operands⟩) :
    ∃ sorts, table.HasSorts operands sorts ∧ operator.Types sorts sort := by
  cases valid.node found with
  | literal label value spelled hasSort => cases spelled
  | apply operator operands sorts sort sorted rule => exact ⟨sorts, sorted, rule⟩

theorem Valid.literal_hasSort (valid : table.Valid) {value : Value}
    (literal : table.literal? term = some value) (sorted : table.sort? term = some sort) :
    value.HasSort sort := by
  rcases sort?_eq_some_iff.mp sorted with ⟨node, found, rfl⟩
  have spelled : node.label.literal? = some value := by
    simpa [literal?, Dag.label?, found] using literal
  cases valid.node found with
  | named | apply => simp [TermLabel.literal?] at spelled
  | literal label other spelledToo hasSort =>
      cases spelled.symm.trans spelledToo
      exact hasSort

/-- If all operands are literals, evaluation gives a literal for the application. -/
theorem Valid.exists_ofValue (valid : table.Valid) {operator : Operator} {operands : List Nat}
    {sorts : List SmtSort} (sorted : table.HasSorts operands sorts)
    (rule : operator.Types sorts sort) {values : List Value}
    (literals : operands.mapM table.literal? = some values) :
    ∃ value label, operator.evaluate values = .ok value ∧ TermLabel.ofValue value = .ok label ∧
      table.Builds (fun term next => next.StandsFor term ⟨⟨.apply operator, sort⟩, operands⟩)
        (intern label [] table) := by
  have spelled := mapM_eq_some_iff.mp literals
  have haveSorts : List.Forall₂ Value.HasSort values sorts :=
    forall₂_of_common spelled sorted fun _ _ _ => valid.literal_hasSort
  rcases rule.evaluate_hasSort haveSorts with ⟨value, evaluated, hasSort⟩
  rcases TermLabel.exists_ofValue hasSort with ⟨label, labelled, rfl, isLiteral⟩
  refine ⟨value, label, evaluated, labelled,
    (valid.builds_node (.literal label value isLiteral hasSort)).imp
      fun term next grows found => ?_⟩
  refine ⟨sort?_eq_some_iff.mpr ⟨_, found, rfl⟩, fun assignment respects => ?_, ?_⟩
  · have valued : operands.mapM (next.value? assignment) = some values :=
      mapM_eq_some_iff.mpr (spelled.imp fun operand value literal =>
        grows.valid.value?_literal (grows.grown.literal? literal))
    rw [grows.valid.value?_eq found, TermLabel.value?_of_literal? assignment _ isLiteral,
      TermLabel.value?_apply, valued]
    simp [evaluated, Except.toOption]
  · rw [grows.valid.freeVariables_eq found]
    simp only [List.map_nil, TermLabel.freeVariables_of_literal? isLiteral]
    exact List.nil_subset _

theorem chosen?_ite {condition left right branch : Nat}
    (chosen : table.chosen? .ite [condition, left, right] = some branch) :
    ∃ truth, table.literal? condition = some (.bool truth) ∧
      branch = if truth then left else right := by
  simp only [chosen?] at chosen
  cases known : table.literal? condition with
  | none =>
      rw [known] at chosen
      cases chosen
  | some value =>
      rw [known] at chosen
      cases value with
      | bool truth =>
          refine ⟨truth, rfl, ?_⟩
          cases truth <;> exact (Option.some.inj chosen).symm
      | bits | int => cases chosen

theorem Valid.chosen?_standsFor (valid : table.Valid) {operator : Operator} {operands : List Nat}
    {sorts : List SmtSort} (sorted : table.HasSorts operands sorts)
    (rule : operator.Types sorts sort) {branch : Nat}
    (chosen : table.chosen? operator operands = some branch) :
    table.StandsFor branch ⟨⟨.apply operator, sort⟩, operands⟩ := by
  cases rule with
  | ite =>
      rcases exists_three sorted with ⟨condition, left, right, rfl, -, hasLeft, hasRight⟩
      rcases chosen?_ite chosen with ⟨truth, known, rfl⟩
      refine ⟨?_, fun assignment respects => ?_, ?_⟩
      · cases truth with
        | false => exact hasRight
        | true => exact hasLeft
      · rcases valid.exists_value respects hasLeft with ⟨leftValue, leftFound, -⟩
        rcases valid.exists_value respects hasRight with ⟨rightValue, rightFound, -⟩
        rw [TermLabel.value?_apply]
        cases truth <;>
          simp [valid.value?_literal known, leftFound, rightFound, Operator.evaluate,
            Value.asBool, bind, Except.bind, pure, Except.pure, Except.toOption]
      · intro name member
        have inBranch : name ∈ table.freeVariables left ∨ name ∈ table.freeVariables right := by
          cases truth with
          | false => exact .inr member
          | true => exact .inl member
        simp only [TermLabel.freeVariables, List.map_cons, List.map_nil, List.flatten_cons,
          List.mem_append]
        exact .inr (inBranch.imp_right .inl)
  | _ => simp [chosen?] at chosen

theorem Valid.builds_fold (valid : table.Valid) {operator : Operator} {operands : List Nat}
    {sorts : List SmtSort} (sorted : table.HasSorts operands sorts)
    (rule : operator.Types sorts sort) :
    table.Builds (fun term next => next.StandsFor term ⟨⟨.apply operator, sort⟩, operands⟩)
      (fold operator operands sort table) := by
  simp only [fold, Action.bind_apply, Action.get_apply]
  cases literals : operands.mapM table.literal? with
  | some values =>
      rcases valid.exists_ofValue sorted rule literals with
        ⟨value, label, evaluated, labelled, built⟩
      dsimp only
      rw [Action.bind_apply, evaluated, Action.lift_ok_apply]
      dsimp only
      rw [Action.bind_apply, labelled, Action.lift_ok_apply]
      exact built
  | none =>
      cases chosen : table.chosen? operator operands with
      | some branch =>
          exact ⟨.refl valid, valid.chosen?_standsFor sorted rule chosen⟩
      | none => exact valid.builds_intern (.apply operator operands sorts sort sorted rule)

/-- An application that obeys the typing rules gives a term that stands for it. -/
theorem Valid.builds_apply (valid : table.Valid) {operator : Operator} {operands : List Nat}
    {sorts : List SmtSort} (sorted : table.HasSorts operands sorts)
    (rule : operator.Types sorts sort) :
    table.Builds (fun term next => next.StandsFor term ⟨⟨.apply operator, sort⟩, operands⟩)
      (apply operator operands sort table) := by
  simp only [apply, Action.bind_apply, Action.get_apply]
  split
  · exact valid.builds_fold sorted rule
  · exact valid.builds_intern (.apply operator operands sorts sort sorted rule)

end BitTerms.TermTable
