import BitTerms.Proofs.Dag.Text
import BitTerms.Proofs.TermTable.NormalForms

/-!
# Folding is simplification

The same calls made of two tables, one of which folds applications as they are built. Every term of
the folding table is the simplified term of the other: terms are built from simplified operands
there, and simplification has nothing left to do.
-/

namespace BitTerms.TermTable

variable {table next plain folded plainNext foldedNext : TermTable} {sort : SmtSort}
  {label : TermLabel} {operator : Operator} {operands : List Nat} {term left right : Nat}

/-! ## Tables of simplified terms -/

def Simplified (table : TermTable) : Prop :=
  ∀ (term : Nat) (tree : Tree TermLabel), table.terms.tree? term = some tree → tree.simplify = tree

theorem simplified_empty (folding : Bool) : Simplified { folding } := by
  intro term tree is
  have inside := (valid_empty folding).shared.lt_size_of_tree? is
  simp [Dag.size] at inside

/-- The terms of a table stay simplified when one more simplified term is added. -/
theorem Simplified.of_intern (simplified : table.Simplified) (valid : table.Valid)
    (validNext : next.Valid) {node : Dag.Node TermLabel}
    (interned : table.terms.intern node = (term, next.terms))
    (here : ∀ tree, next.terms.tree? term = some tree → tree.simplify = tree) :
    next.Simplified := by
  have grown := table.terms.extends_intern node
  have stored := valid.shared.nodes_intern node
  rw [interned] at grown stored
  intro other tree is
  have inside := validNext.shared.lt_size_of_tree? is
  have found : next.terms.nodes[other]? = some next.terms.nodes[other] :=
    Array.getElem?_eq_getElem inside
  have origin : (table.terms.intern node).2.nodes[other]? = some next.terms.nodes[other] := by
    rw [interned]
    exact found
  rcases Dag.nodes_intern_cases table.terms node origin with old | new
  · rw [grown.tree? (Dag.lt_size_of_nodes old)] at is
    exact simplified other tree is
  · rw [new] at found
    rw [validNext.shared.position_eq found stored] at is
    exact here tree is

theorem HasTrees.simplify_eq (simplified : table.Simplified) {trees : List (Tree TermLabel)}
    (are : table.terms.HasTrees operands trees) : ∀ tree ∈ trees, tree.simplify = tree := by
  intro tree member
  rcases exists_of_mem_right are member with ⟨operand, -, is⟩
  exact simplified operand tree is

theorem Simplified.of_leaf (simplified : table.Simplified) (valid : table.Valid)
    (validNext : next.Valid) (notApplied : ∀ operator, label.head ≠ .apply operator)
    (interned : table.terms.intern ⟨label, []⟩ = (term, next.terms)) : next.Simplified := by
  refine simplified.of_intern valid validNext interned fun tree is => ?_
  have found := isLeaf_of_intern valid.shared interned
  rw [validNext.shared.tree?_of_children found .nil] at is
  cases is
  exact Tree.simplify_of_head notApplied []

theorem Simplified.of_fold (simplified : table.Simplified) (valid : table.Valid)
    (validNext : next.Valid) {trees : List (Tree TermLabel)}
    (are : table.terms.HasTrees operands trees)
    (folded : fold operator operands sort table = .ok term next) : next.Simplified := by
  have here (tree : Tree TermLabel) (is : next.terms.tree? term = some tree) :
      tree.simplify = tree := by
    rw [valid.tree?_of_fold validNext are folded] at is
    cases is
    exact Tree.simplify_fold operator sort (HasTrees.simplify_eq simplified are)
  rcases fold_made folded with ⟨label, -, interned⟩ | rfl | interned
  · exact simplified.of_intern valid validNext (eq_of_intern interned) here
  · exact simplified
  · exact simplified.of_intern valid validNext (eq_of_intern interned) here

/-- There is nothing to simplify in a table of simplified terms. -/
theorem Simplified.stays (simplified : table.Simplified) (valid : table.Valid)
    (sorted : table.sort? term = some sort) : table.Stays term := by
  rcases valid.shared.exists_tree (lt_size_of_sort? sorted) with ⟨tree, is⟩
  exact ⟨tree, is, simplified term tree is⟩

theorem Simplified.simplify_self (simplified : table.Simplified) (valid : table.Valid)
    (sorted : table.sort? term = some sort) : simplify term table = .ok term table :=
  (simplified.stays valid sorted).simplify_self valid

/-! ## Folding beside building -/

/-- A table that folds has grown along with one that does not. -/
structure FoldsAlong (plain folded : TermTable) : Prop where
  plainValid : plain.Valid
  foldedValid : folded.Valid
  plainMode : plain.folding = false
  foldedMode : folded.folding = true
  sorts : ∀ name : String, plain.sorts[name]? = folded.sorts[name]?
  simplified : folded.Simplified

/-- Two terms of one sort, the right one of which has the simplified tree of the left one. -/
structure Corresponds (plain folded : TermTable) (left right : Nat) (sort : SmtSort) : Prop where
  leftSort : plain.sort? left = some sort
  rightSort : folded.sort? right = some sort
  simplifies : plain.SimplifiesTo left folded right

theorem foldsAlong_empty : FoldsAlong { folding := false } { folding := true } :=
  ⟨valid_empty false, valid_empty true, rfl, rfl, fun _ => rfl, simplified_empty true⟩

/-- Tables that have grown along go on to do so. -/
theorem FoldsAlong.grow (along : FoldsAlong plain folded) (plainValid : plainNext.Valid)
    (plainGrown : plain.Extends plainNext) (foldedValid : foldedNext.Valid)
    (foldedGrown : folded.Extends foldedNext)
    (sorts : ∀ name : String, plainNext.sorts[name]? = foldedNext.sorts[name]?)
    (simplified : foldedNext.Simplified) : FoldsAlong plainNext foldedNext :=
  ⟨plainValid, foldedValid, plainGrown.folding.trans along.plainMode,
    foldedGrown.folding.trans along.foldedMode, sorts, simplified⟩

theorem Corresponds.mono (along : FoldsAlong plain folded) (plainGrown : plain.Extends plainNext)
    (foldedGrown : folded.Extends foldedNext) (same : Corresponds plain folded left right sort) :
    Corresponds plainNext foldedNext left right sort := by
  rcases same.simplifies with ⟨tree, is, becomes⟩
  exact ⟨plainGrown.sort? same.leftSort, foldedGrown.sort? same.rightSort, tree,
    along.plainValid.shared.tree?_extends plainGrown.terms is,
    along.foldedValid.shared.tree?_extends foldedGrown.terms becomes⟩

/-- What two steps have to do that both make a term. -/
abbrev MadeAlong (plain folded : TermTable) (sort : SmtSort) (left right : Nat)
    (plainNext foldedNext : TermTable) : Prop :=
  FoldsAlong plainNext foldedNext ∧ Corresponds plainNext foldedNext left right sort ∧
    ∀ left right sort, Corresponds plain folded left right sort →
      Corresponds plainNext foldedNext left right sort

theorem FoldsAlong.made_leaf (along : FoldsAlong plain folded) (label : TermLabel)
    (notApplied : ∀ operator, label.head ≠ .apply operator)
    (plainValid : plainNext.Valid) (plainGrown : plain.Extends plainNext)
    (plainInterned : plain.terms.intern ⟨label, []⟩ = (left, plainNext.terms))
    (foldedValid : foldedNext.Valid) (foldedGrown : folded.Extends foldedNext)
    (foldedInterned : folded.terms.intern ⟨label, []⟩ = (right, foldedNext.terms))
    (sorts : ∀ name : String, plainNext.sorts[name]? = foldedNext.sorts[name]?) :
    MadeAlong plain folded label.sort left right plainNext foldedNext := by
  have leftLeaf := isLeaf_of_intern along.plainValid.shared plainInterned
  have rightLeaf := isLeaf_of_intern along.foldedValid.shared foldedInterned
  refine ⟨along.grow plainValid plainGrown foldedValid foldedGrown sorts
    (along.simplified.of_leaf along.foldedValid foldedValid notApplied foldedInterned), ?_,
    fun _ _ _ => .mono along plainGrown foldedGrown⟩
  refine ⟨sort?_eq_some_iff.mpr ⟨_, leftLeaf, rfl⟩, sort?_eq_some_iff.mpr ⟨_, rightLeaf, rfl⟩,
    .node label [], plainValid.shared.tree?_of_children leftLeaf .nil, ?_⟩
  rw [Tree.simplify_of_head notApplied]
  exact foldedValid.shared.tree?_of_children rightLeaf .nil

/-- Two steps end together, with a term each or with the same error, unless one of them finds its
table full. -/
abbrev EndAlong (plain folded : TermTable) (sort : SmtSort)
    (plainAction foldedAction : Action TermTable Nat) : Prop :=
  Action.EndTogether (MadeAlong plain folded sort)
    (fun plainNext foldedNext => FoldsAlong plainNext foldedNext ∧
      ∀ left right sort, Corresponds plain folded left right sort →
        Corresponds plainNext foldedNext left right sort)
    (· = .tableFull) (· = .tableFull) (plainAction plain) (foldedAction folded)

theorem FoldsAlong.ends_declare (along : FoldsAlong plain folded) (name : String) (sort : SmtSort) :
    EndAlong plain folded sort (declare name sort) (declare name sort) := by
  cases spellable : Symbol.isSpellable name with
  | false =>
      rw [EndAlong, declare_of_unspellable spellable, declare_of_unspellable spellable]
      exact .inr (.inr ⟨rfl, along, fun _ _ _ => id⟩)
  | true =>
      by_cases other : ∃ existing, plain.sorts[name]? = some existing ∧ existing ≠ sort
      · rcases other with ⟨existing, declared, different⟩
        rw [EndAlong, declare_of_other spellable declared different,
          declare_of_other spellable (along.sorts name ▸ declared) different]
        exact .inr (.inr ⟨rfl, along, fun _ _ _ => id⟩)
      · have free : ∀ existing, plain.sorts[name]? = some existing → existing = sort := by
          simpa using other
        refine Action.endTogether_of_ends
          ((along.plainValid.ends_declare sort spellable free).imp (fun _ _ => id)
            fun _ _ => And.left)
          ((along.foldedValid.ends_declare sort spellable (along.sorts name ▸ free)).imp
            (fun _ _ => id) fun _ _ => And.left) ?_
        rintro left plainNext right foldedNext plainMade foldedMade ⟨plainRecords, -⟩
          ⟨foldedRecords, -⟩
        refine along.made_leaf ⟨.variable name, sort⟩ (by simp) plainRecords.valid
          plainRecords.grown (intern_of_declare plainMade) foldedRecords.valid foldedRecords.grown
          (intern_of_declare foldedMade) fun other => ?_
        rw [plainRecords.sorts, foldedRecords.sorts, along.sorts]

/-- An application of corresponding operands is built on one side and folded on the other. -/
theorem FoldsAlong.ends_apply (along : FoldsAlong plain folded) {lefts rights : List Nat}
    {sorts : List SmtSort} (rule : operator.Types sorts sort)
    (leftSorts : plain.HasSorts lefts sorts) (rightSorts : folded.HasSorts rights sorts)
    (pairs : List.Forall₂ (plain.SimplifiesTo · folded ·) lefts rights) :
    EndAlong plain folded sort (apply operator lefts sort) (apply operator rights sort) := by
  rcases exists_simplified_trees pairs with ⟨trees, leftTrees, rightTrees⟩
  rw [EndAlong, apply_of_plain along.plainMode, apply_of_folding along.foldedMode]
  refine Action.endTogether_of_ends
    (Action.Ends.imp (along.plainValid.builds_node
      (.apply operator lefts sorts sort leftSorts rule)) (fun _ _ => id) fun _ _ => And.left)
    (Action.Ends.imp (along.foldedValid.builds_fold rightSorts rule) (fun _ _ => id)
      fun _ _ => And.left) ?_
  rintro left plainNext right foldedNext - foldedMade ⟨plainGrows, found⟩ ⟨foldedGrows, stands⟩
  have sortsNext (name : String) : plainNext.sorts[name]? = foldedNext.sorts[name]? := by
    rw [plainGrows.sameSorts, foldedGrows.sameSorts, along.sorts]
  refine ⟨along.grow plainGrows.valid plainGrows.grown foldedGrows.valid foldedGrows.grown sortsNext
    (along.simplified.of_fold along.foldedValid foldedGrows.valid rightTrees foldedMade), ?_,
    fun _ _ _ => .mono along plainGrows.grown foldedGrows.grown⟩
  refine ⟨sort?_eq_some_iff.mpr ⟨_, found, rfl⟩, stands.sort,
    .node ⟨.apply operator, sort⟩ trees, ?_, ?_⟩
  · exact plainGrows.valid.shared.tree?_of_children found
      (leftTrees.imp fun _ _ => along.plainValid.shared.tree?_extends plainGrows.grown.terms)
  · rw [Tree.simplify_apply]
    exact along.foldedValid.tree?_of_fold foldedGrows.valid rightTrees foldedMade

/-- Simplification of a folded term changes nothing, and that of the other term has the same tree
then. -/
theorem FoldsAlong.ends_simplify (along : FoldsAlong plain folded)
    (same : Corresponds plain folded left right sort) :
    EndAlong plain folded sort (simplify left) (simplify right) := by
  rw [EndAlong, along.simplified.simplify_self along.foldedValid same.rightSort]
  refine Action.endTogether_of_ends
    (Action.Ends.imp (along.plainValid.builds_simplified same.leftSort) (fun _ _ => id)
      fun _ _ => And.left)
    (show Action.Ends (fun term next => right = term ∧ folded = next) _ _ from ⟨rfl, rfl⟩) ?_
  rintro result plainNext term next - - ⟨plainGrows, meaning, tree, is, becomes⟩ ⟨rfl, rfl⟩
  have sortsNext (name : String) : plainNext.sorts[name]? = folded.sorts[name]? := by
    rw [plainGrows.sameSorts, along.sorts]
  refine ⟨along.grow plainGrows.valid plainGrows.grown along.foldedValid (.refl folded) sortsNext
    along.simplified, ?_, fun _ _ _ => .mono along plainGrows.grown (.refl folded)⟩
  rcases same.simplifies with ⟨other, isToo, simplified⟩
  cases is.symm.trans isToo
  refine ⟨meaning.sort_eq (plainGrows.grown.sort? same.leftSort), same.rightSort, tree.simplify,
    becomes, ?_⟩
  rw [Tree.simplify_simplify]
  exact simplified

theorem FoldsAlong.ends_literal (along : FoldsAlong plain folded) (label : TermLabel)
    {request : Request}
    (asked : request.leaf? label.sort = some label) {value : Value}
    (isLiteral : label.literal? = some value)
    (proper : ∀ table : TermTable,
      request.Proper (fun term sort => table.sort? term = some sort) label.sort) :
    EndAlong plain folded label.sort (request.run label.sort) (request.run label.sort) := by
  have notApplied (operator : Operator) : label.head ≠ .apply operator := by
    intro applied
    simp [TermLabel.literal?, applied] at isLiteral
  refine Action.endTogether_of_ends
    (Action.Ends.imp (along.plainValid.builds_literal asked isLiteral (proper plain))
      (fun _ _ => id) fun _ _ => And.left)
    (Action.Ends.imp (along.foldedValid.builds_literal asked isLiteral (proper folded))
      (fun _ _ => id) fun _ _ => And.left) ?_
  rintro left plainNext right foldedNext plainMade foldedMade ⟨plainGrows, -⟩ ⟨foldedGrows, -⟩
  refine along.made_leaf label notApplied plainGrows.valid plainGrows.grown
    (intern_of_leaf asked (proper plain) plainMade) foldedGrows.valid foldedGrows.grown
    (intern_of_leaf asked (proper folded) foldedMade) fun name => ?_
  rw [plainGrows.sameSorts, foldedGrows.sameSorts, along.sorts]

theorem simulates_folding :
    Engine.Simulates FoldsAlong Corresponds (fun _ => True) (· = .tableFull) (· = .tableFull) where
  request := by
    intro plain folded leftRequest rightRequest sort along matched proper _
    cases matched with
    | declare name => exact along.ends_declare name sort
    | bitsLiteral width pattern =>
        rcases proper with ⟨rfl, fits⟩
        exact along.ends_literal ⟨.bits pattern, .bits width⟩ rfl rfl
          fun _ => ⟨rfl, fits⟩
    | boolLiteral value =>
        rcases proper with rfl
        exact along.ends_literal ⟨.bool value, .bool⟩ rfl rfl fun _ => rfl
    | apply operator lefts rights pairs =>
        rcases proper with ⟨rule, -⟩
        have rightSorts : rights.map Expr.sort = lefts.map Expr.sort := by
          rw [← List.forall₂_eq_eq_eq, List.forall₂_map_left_iff, List.forall₂_map_right_iff]
          exact (pairs.imp fun _ _ pair => pair.1.symm).flip
        refine along.ends_apply rule (HasSorts.of_exprs fun left member => ?_) ?_ ?_
        · rcases exists_of_mem_left pairs member with ⟨right, -, -, pair⟩
          exact pair.leftSort
        · rw [← rightSorts]
          refine HasSorts.of_exprs fun right member => ?_
          rcases exists_of_mem_right pairs member with ⟨left, -, same, pair⟩
          rw [← same]
          exact pair.rightSort
        · rw [List.forall₂_map_left_iff, List.forall₂_map_right_iff]
          exact pairs.imp fun _ _ pair => pair.2.simplifies
    | simplify left right same pair =>
        rcases proper with ⟨rfl, -⟩
        exact along.ends_simplify pair

/-! ## Sessions -/

/-- The right expression, of a folding table, is what the left one, of a table that does not fold,
comes to when it is simplified: it has the same sort and the same tree, text and value. -/
structure IsSimplified (plain folded : Context TermTable) (left right : Expr) : Prop where
  sort : left.sort = right.sort
  simplified : Action.Ends
    (fun result next => result.sort = right.sort ∧
      (∃ tree, next.engine.terms.tree? result.term = some tree ∧
        folded.engine.terms.tree? right.term = some tree) ∧
      next.text result = folded.text right ∧ next.literal? result = folded.literal? right)
    RunsFull (Context.simplify left plain)

theorem text_eq_of_tree? (valid : plain.Valid) (validToo : folded.Valid) {tree : Tree TermLabel}
    (onLeft : plain.terms.tree? left = some tree)
    (onRight : folded.terms.tree? right = some tree) : plain.text left = folded.text right := by
  rw [text, text, Dag.text_eq, Dag.text_eq]
  exact Dag.fold_eq_of_tree? valid.shared validToo.shared _ onLeft onRight

theorem isSimplified_of_twins {plain folded : Context TermTable} {left right : Expr}
    (along : FoldsAlong plain.engine folded.engine)
    (twins : Session.Twins Corresponds plain folded left right) :
    IsSimplified plain folded left right := by
  rcases twins.term.simplifies with ⟨tree, is, onRight⟩
  refine ⟨twins.sort, Action.Ends.imp (along.plainValid.ends_simplify_expr twins.leftOwn is) ?_
    fun _ _ full => full⟩
  rintro result next ⟨⟨-, sort⟩, grows, -, becomes⟩
  refine ⟨sort.trans twins.sort, ⟨tree.simplify, becomes, onRight⟩, ?_, ?_⟩
  · exact text_eq_of_tree? grows.valid along.foldedValid becomes onRight
  · exact (grows.valid.literal?_tree becomes).trans (along.foldedValid.literal?_tree onRight).symm

/-- The same calls made of a table that does not fold and of one that does, neither of which runs
full: every call comes to the same, with the same error where it fails; the expressions that it
makes have the same sort, and the one of the folding table is the other one simplified. The same
widths are registered. In the folding table simplification changes nothing. -/
theorem folding_is_simplification (plainId foldedId : Nat) (calls : List Call) :
    let plain := (Session.start plainId ({ folding := false } : TermTable)).run calls
    let folded := (Session.start foldedId ({ folding := true } : TermTable)).run calls
    HadRoom plain → HadRoom folded →
      List.Forall₂ (Outcome.Matches (IsSimplified plain.context folded.context))
          plain.outcomes folded.outcomes ∧
        plain.context.widthList = folded.context.widthList ∧
        ∀ expr, .made expr ∈ folded.outcomes →
          Context.simplify expr folded.context = .ok expr folded.context := by
  intro plain folded plainRoom foldedRoom
  have matched : plain.Matches FoldsAlong Corresponds folded :=
    (Session.matches_start plainId foldedId foldsAlong_empty).run simulates_folding
      (Session.asks_of_forall _ calls fun _ => trivial) plainRoom.noExcuse foldedRoom.noExcuse
  refine ⟨?_, ?_, fun expr made => ?_⟩
  · exact matched.outcomes.imp fun _ _ outcomes =>
      outcomes.imp fun _ _ => isSimplified_of_twins matched.engines
  · exact congrArg Std.TreeSet.toList matched.widths
  · have holds := holds_run foldedId true calls
    have own : expr.owner = folded.context.id := holds.own expr made
    have stays := matched.engines.simplified.stays matched.engines.foldedValid
      (holds.exprs expr made)
    exact stays.simplify_expr matched.engines.foldedValid own

theorem outcomes_notTrueCalls (id : Nat) (folding : Bool) :
    ((Session.start id ({ folding } : TermTable)).run notTrueCalls).outcomes =
      [.made ⟨id, .bool, 0⟩, .made ⟨id, .bool, 1⟩] := by
  have typed : Operator.not.resultSort [.bool] = .ok .bool := rfl
  have evaluated : (Operator.not.evaluate [.bool true] >>= TermLabel.ofValue) =
      .ok ⟨.bool false, .bool⟩ := rfl
  cases folding <;>
    simp [notTrueCalls, Session.run, Session.start, Session.call_eq, Call.plan, Session.follow,
      Ending.follow, Request.run, Engine.boolLiteral, Engine.apply, boolLiteral, intern_apply,
      hasRoom, wordLimit, Dag.size, Dag.intern, apply, fold_apply, literal?, Dag.label?,
      TermLabel.literal?, Action.bind_apply, Action.get_apply, Session.expr?, typed, evaluated]

theorem folding_is_simplification_negation :
    let plain := (Session.start 0 ({ folding := false } : TermTable)).run notTrueCalls
    let folded := (Session.start 1 ({ folding := true } : TermTable)).run notTrueCalls
    HadRoom plain ∧ HadRoom folded ∧
      IsSimplified plain.context folded.context ⟨0, .bool, 1⟩ ⟨1, .bool, 1⟩ ∧
      Context.simplify ⟨1, .bool, 1⟩ folded.context = .ok ⟨1, .bool, 1⟩ folded.context := by
  intro plain folded
  have plainOutcomes : plain.outcomes = [.made ⟨0, .bool, 0⟩, .made ⟨0, .bool, 1⟩] :=
    outcomes_notTrueCalls 0 false
  have foldedOutcomes : folded.outcomes = [.made ⟨1, .bool, 0⟩, .made ⟨1, .bool, 1⟩] :=
    outcomes_notTrueCalls 1 true
  have plainRoom : HadRoom plain :=
    (hadRoom_of_length 0 false (by simp [notTrueCalls]) (by decide)).1
  have foldedRoom : HadRoom folded :=
    (hadRoom_of_length 1 true (by simp [notTrueCalls]) (by decide)).1
  rcases folding_is_simplification 0 1 notTrueCalls plainRoom foldedRoom with
    ⟨outcomes, -, simplifies⟩
  have pair := rel_getElem? outcomes 1
  rw [plainOutcomes, foldedOutcomes] at pair
  have made : .made ⟨1, .bool, 1⟩ ∈ folded.outcomes := by simp [foldedOutcomes]
  refine ⟨plainRoom, foldedRoom, ?_, simplifies ⟨1, .bool, 1⟩ made⟩
  cases pair with
  | some isSimplified => exact isSimplified

end BitTerms.TermTable
