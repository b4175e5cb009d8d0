import BitTerms.Proofs.Solver.Agreement
import BitTerms.Proofs.Solver.Transcription
import BitTerms.Proofs.TermTable.Folding

/-!
# The same text on both engines

The same calls made of a table that does not fold and of a context with a solver, without
simplification and with operators that have names of their own. Every term of the session is the
s-expression of the term that the table has for the same call.
-/

namespace BitTerms

/-! ## Calls -/

/-- The request is written the same way on both engines, and a variable has an admitted name. -/
def Request.IsPlain (names : String → Prop) : Request → Prop
  | .declare name => names name
  | .apply operator _ => operator.IsNative
  | .simplify _ => False
  | .bitsLiteral _ _ | .boolLiteral _ => True

/-- The call does not simplify, and an operator that it applies has a name of its own. -/
def Call.IsPlain : Call → Prop
  | .apply operator _ => operator.IsNative
  | .simplify _ => False
  | .bitsSort _ | .declare _ _ | .declareBits _ _ | .boolLiteral _ | .bitsLiteral _ _ => True

theorem Call.IsPlain.request {call : Call} (plain : call.IsPlain) {names : String → Prop}
    (named : ∀ name sort, call.declares? = some (name, sort) → names name) {id : Nat}
    {expr? : Operand → Option Expr} {request : Request} {sort : SmtSort}
    (asks : (call.plan id expr?).ending = .ask request sort) : request.IsPlain names := by
  have asked := asks_of_plan asks
  generalize (call.plan id expr?).registered = registered at asked
  cases asked with
  | declare name given => exact named name _ rfl
  | declareBits name bits width =>
      exact named name (.bits width) (declares?_eq_some_iff.mpr asks)
  | boolLiteral | bitsLiteral => trivial
  | apply operator operands => exact plain
  | simplify operand => exact plain.elim

namespace Solver

/-! ## Tables and sessions -/

/-- How a session stands to the table that is made from the same calls. -/
structure Mirrors (names : String → Prop) (table : TermTable) (solver : Solver) : Prop where
  mode : table.folding = false
  valid : table.Valid
  plain : ∀ {term : Nat} {node : Dag.Node TermLabel},
    table.terms.nodes[term]? = some node → node.label.IsPlain
  named : ∀ {name : String} {sort : SmtSort}, table.sorts[name]? = some sort → names name
  consistent : solver.Consistent
  tidy : SExpr.Tidy solver.terms
  sorts : ∀ name : String, (solver.declared[name]?).map Prod.fst = table.sorts[name]?

/-- The term of the session is the s-expression of the term of the table. -/
structure Spells (table : TermTable) (solver : Solver) (left right : Nat) (sort : SmtSort) :
    Prop where
  sorted : table.sort? left = some sort
  inside : right < solver.terms.size
  expr : SExpr.ofShared solver.terms right = table.expr left

variable {names : String → Prop} {table nextTable : TermTable} {solver next : Solver}
  {left right : Nat} {name : String} {sort : SmtSort}

theorem Spells.mono (spells : Spells table solver left right sort)
    (grownTable : table.Extends nextTable) (grown : solver.terms.Extends next.terms) :
    Spells nextTable next left right sort where
  sorted := grownTable.sort? spells.sorted
  inside := grown.lt_size spells.inside
  expr := by
    rw [SExpr.ofShared_extends grown spells.inside, spells.expr,
      grownTable.expr (TermTable.lt_size_of_sort? spells.sorted)]

/-- What two steps have to do that both make a term. -/
abbrev MadeAlike (names : String → Prop) (table : TermTable) (solver : Solver) (sort : SmtSort)
    (left right : Nat) (nextTable : TermTable) (next : Solver) : Prop :=
  Mirrors names nextTable next ∧ Spells nextTable next left right sort ∧
    ∀ left right sort, Spells table solver left right sort →
      Spells nextTable next left right sort

/-- A node is added to the table, and its s-expression to the session. -/
theorem Mirrors.made (mirrors : Mirrors names table solver) (node : Dag.Node TermLabel)
    (plain : node.label.IsPlain) (inside : ∀ child ∈ node.children, child < table.terms.size)
    (interned : table.terms.intern node = (left, nextTable.terms)) (valid : nextTable.Valid)
    (grown : table.Extends nextTable)
    (named : ∀ {name : String} {sort : SmtSort}, nextTable.sorts[name]? = some sort → names name)
    (shared : SExpr.Shared solver.terms next.terms right
      (node.label.expr (node.children.map table.expr)))
    (consistent : next.Consistent) (tidy : SExpr.Tidy next.terms)
    (sorts : ∀ name : String, (next.declared[name]?).map Prod.fst = nextTable.sorts[name]?) :
    MadeAlike names table solver node.label.sort left right nextTable next := by
  have found := mirrors.valid.shared.nodes_intern node
  rw [interned] at found
  have same : nextTable.expr left = node.label.expr (node.children.map table.expr) := by
    rw [TermTable.expr_eq valid.shared found]
    congr 1
    exact List.map_congr_left fun child member => grown.expr (inside child member)
  refine ⟨⟨grown.folding.trans mirrors.mode, valid, fun {term other} stored => ?_, named,
    consistent, tidy, sorts⟩, ⟨TermTable.sort?_eq_some_iff.mpr ⟨node, found, rfl⟩, shared.inside,
    shared.ofShared_eq.trans same.symm⟩, fun _ _ _ spells => spells.mono grown shared.grown⟩
  have origin : table.terms.nodes[term]? = some other ∨ other = node := by
    refine Dag.nodes_intern_cases table.terms node ?_
    rw [interned]
    exact stored
  rcases origin with old | rfl
  · exact mirrors.plain old
  · exact plain

/-- So it is for a node that is no new variable. -/
theorem Mirrors.made_silent (mirrors : Mirrors names table solver) (node : Dag.Node TermLabel)
    (plain : node.label.IsPlain) (inside : ∀ child ∈ node.children, child < table.terms.size)
    (interned : table.terms.intern node = (left, nextTable.terms)) (grows : table.Grows nextTable)
    (shared : SExpr.Shared solver.terms next.terms right
      (node.label.expr (node.children.map table.expr)))
    (tidy : SExpr.Tidy next.terms) (declared : next.declared = solver.declared) :
    MadeAlike names table solver node.label.sort left right nextTable next := by
  refine mirrors.made node plain inside interned grows.valid grows.grown (fun found => ?_) shared
    ⟨shared.valid, fun found => ?_⟩ tidy fun name => ?_
  · rw [grows.sameSorts] at found
    exact mirrors.named found
  · rw [declared] at found
    exact shared.grown.nodes (mirrors.consistent.declared found)
  · rw [declared, grows.sameSorts]
    exact mirrors.sorts name

/-! ## Requests -/

/-- Two steps end together, unless the table is full or the solver is at fault. -/
abbrev EndAlike (names : String → Prop) (table : TermTable) (solver : Solver) (sort : SmtSort)
    (onTable : Action TermTable Nat) (onSolver : Action Solver Nat) : Prop :=
  Action.EndTogether (MadeAlike names table solver sort)
    (fun nextTable next => Mirrors names nextTable next ∧
      ∀ left right sort, Spells table solver left right sort →
        Spells nextTable next left right sort)
    (· = .tableFull) (fun error => ∃ fault, error = .solver fault) (onTable table) (onSolver solver)

/-- Where the session makes a term, it is enough to know that both sides are alike if the table does
so, too. -/
theorem endAlike_of_builds {onTable : Action TermTable Nat} {onSolver : Action Solver Nat}
    {good : Nat → TermTable → Prop} (builds : table.Builds good (onTable table))
    (made : onSolver solver = .ok right next)
    (alike : ∀ left nextTable, onTable table = .ok left nextTable → table.Grows nextTable →
      MadeAlike names table solver sort left right nextTable next) :
    EndAlike names table solver sort onTable onSolver := by
  rw [EndAlike, made]
  refine Action.endTogether_of_ends (Action.Ends.imp builds (fun _ _ => id) fun _ _ => And.left)
    (show Action.Ends (fun term state => right = term ∧ next = state) _ _ from ⟨rfl, rfl⟩) ?_
  rintro left nextTable _ _ onLeft - ⟨grows, -⟩ ⟨rfl, rfl⟩
  exact alike left nextTable onLeft grows

theorem Mirrors.ends_literal (mirrors : Mirrors names table solver) (label : TermLabel)
    {request : Request} {value : Value} {word : String}
    (asked : request.leaf? label.sort = some label) (isLiteral : label.literal? = some value)
    (plain : label.IsPlain) (spelled : label.expr [] = .symbol word)
    (proper : request.Proper (fun term sort => table.sort? term = some sort) label.sort) :
    EndAlike names table solver label.sort (request.run label.sort) (symbol word) := by
  refine endAlike_of_builds (mirrors.valid.builds_literal asked isLiteral proper)
    (symbol_apply word solver) fun left nextTable made grows => ?_
  have interned := TermTable.intern_of_leaf asked proper made
  refine mirrors.made_silent ⟨label, []⟩ plain (by simp) interned grows ?_
    (mirrors.tidy.intern (.inr rfl)) rfl
  rw [List.map_nil, spelled]
  exact SExpr.shared_symbol mirrors.consistent.shared word

theorem Mirrors.made_variable (mirrors : Mirrors names table solver) (admitted : names name)
    (interned : table.terms.intern ⟨⟨.variable name, sort⟩, []⟩ = (left, nextTable.terms))
    (records : TermTable.Records name sort table nextTable)
    (keeps : solver.Keeps next) (consistent : next.Consistent)
    (declared : next.declared[name]? = some (sort, right)) (tidy : SExpr.Tidy next.terms)
    (sorts : ∀ name : String, (next.declared[name]?).map Prod.fst = nextTable.sorts[name]?) :
    MadeAlike names table solver sort left right nextTable next := by
  have found := consistent.declared declared
  have shared : SExpr.Shared solver.terms next.terms right (.symbol (Symbol.text name)) :=
    ⟨keeps.shared, keeps.terms, Dag.lt_size_of_nodes found, SExpr.ofShared_eq keeps.shared found⟩
  refine mirrors.made ⟨⟨.variable name, sort⟩, []⟩ trivial (by simp) interned records.valid
    records.grown (fun {other _} recorded => ?_) shared consistent tidy sorts
  rw [records.sorts] at recorded
  split at recorded
  case isTrue same => exact same ▸ admitted
  case isFalse => exact mirrors.named recorded

theorem Mirrors.ends_declare (mirrors : Mirrors names table solver) (admitted : names name)
    (sort : SmtSort) :
    EndAlike names table solver sort (TermTable.declare name sort) (declare name sort) := by
  have ends := Solver.ends_declare mirrors.consistent name sort
  rcases declare_together mirrors.valid mirrors.sorts name sort with
    ⟨error, refused, refusedToo⟩ | ⟨onTable, onSolver⟩
  · rw [EndAlike, refused, refusedToo]
    exact .inr (.inr ⟨rfl, mirrors, fun _ _ _ => id⟩)
  · rw [EndAlike]
    cases made : TermTable.declare name sort table with
    | error error nextTable =>
        rw [made] at onTable
        refine Action.endTogether_of_left ?_
        exact onTable
    | ok left nextTable =>
        rw [made] at onTable
        rcases onTable with ⟨records, -⟩
        have interned := TermTable.intern_of_declare made
        rcases onSolver with ⟨term, declared, known⟩ | ⟨channel, told⟩ | ⟨fault, next, refused⟩
        · rw [known] at ends ⊢
          rcases ends with ⟨keeps, consistent, -, -, -⟩
          exact mirrors.made_variable admitted interned records keeps consistent declared
            mirrors.tidy (sorts_of_declared mirrors.sorts records.sorts declared)
        · rw [told] at ends ⊢
          rcases ends with ⟨keeps, consistent, -, declared, -⟩
          exact mirrors.made_variable admitted interned records keeps consistent declared
            (mirrors.tidy.intern (.inr rfl)) (sorts_of_insert mirrors.sorts records.sorts _)
        · rw [refused]
          exact ⟨fault, rfl⟩

theorem Mirrors.ends_apply (mirrors : Mirrors names table solver) {operator : Operator}
    (native : operator.IsNative) {lefts rights : List Expr}
    (rule : operator.Types (lefts.map Expr.sort) sort)
    (pairs : List.Forall₂ (fun left right =>
      left.sort = right.sort ∧ Spells table solver left.term right.term left.sort) lefts rights) :
    EndAlike names table solver sort (TermTable.apply operator (lefts.map Expr.term) sort)
      (apply operator (rights.map Expr.term) sort) := by
  have sorted : table.HasSorts (lefts.map Expr.term) (lefts.map Expr.sort) := by
    refine TermTable.HasSorts.of_exprs fun left member => ?_
    rcases exists_of_mem_left pairs member with ⟨right, -, -, pair⟩
    exact pair.sorted
  have count : ((rights.map Expr.term).map Draft.term).length = operator.arity := by
    rw [List.length_map, List.length_map, ← pairs.length_eq, ← rule.length_eq, List.length_map]
  have drafted : solver.draft operator (rights.map Expr.term) sort =
      .ok (.native operator ((rights.map Expr.term).map .term)) :=
    native.lower_eq solver.build count _ _
  have inside : ∀ term ∈ rights.map Expr.term, term < solver.terms.size := by
    intro term member
    rcases List.mem_map.mp member with ⟨right, inRights, rfl⟩
    rcases exists_of_mem_right pairs inRights with ⟨left, -, -, pair⟩
    exact pair.inside
  have insideTable : ∀ term ∈ lefts.map Expr.term, term < table.terms.size := by
    intro term member
    rcases exists_of_mem_left sorted member with ⟨sort, -, hasSort⟩
    exact TermTable.lt_size_of_sort? hasSort
  have shared := (Draft.native operator ((rights.map Expr.term).map .term)).shared_share
    mirrors.consistent.shared (inside_of_draft inside drafted)
  have exprs : ((rights.map Expr.term).map .term).map (Draft.expand solver.terms) =
      (lefts.map Expr.term).map table.expr := by
    simp only [List.map_map]
    rw [← List.forall₂_eq_eq_eq, List.forall₂_map_left_iff, List.forall₂_map_right_iff]
    exact (pairs.imp fun _ _ pair => pair.2.expr).flip
  rw [Draft.expand_native, exprs] at shared
  rcases apply_of_draft drafted with ⟨widths, applied, -⟩
  refine endAlike_of_builds (mirrors.valid.builds_apply sorted rule) applied
    fun left nextTable made grows => ?_
  rw [TermTable.apply_of_plain mirrors.mode] at made
  exact mirrors.made_silent ⟨⟨.apply operator, sort⟩, lefts.map Expr.term⟩ native insideTable
    (TermTable.eq_of_intern made) grows shared (Draft.tidy_share _ mirrors.tidy) rfl

theorem Spells.text (mirrors : Mirrors names table solver)
    (spells : Spells table solver left right sort) : table.text left = solver.text right := by
  have inside := TermTable.lt_size_of_sort? spells.sorted
  rw [← TermTable.text_expr mirrors.valid.shared inside, ← spells.expr]
  exact SExpr.text_ofShared mirrors.consistent.shared spells.inside

end Solver

end BitTerms
