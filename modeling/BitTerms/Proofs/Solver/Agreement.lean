import BitTerms.Proofs.Session.Simulation
import BitTerms.Proofs.Solver.Expansions
import BitTerms.Proofs.Solver.Steps
import BitTerms.Proofs.TermTable.Sessions

/-!
# Lowering keeps the meaning

The same calls made of a term table and of a solver session lead to terms and s-expressions of the
same values. `Solver.Follows` says how a solver session stands to the table whose calls it follows:
it has declared the same variables, and every width it keeps account of is that of a value.
-/

namespace BitTerms

/-- Requests along which lowering is exact: no variable is named like a truth value, and no
overflow of a product is asked for at a width whose double exceeds a machine word. -/
def Request.Lowerable : Request → Prop
  | .declare name => name ≠ "true" ∧ name ≠ "false"
  | .apply (.overflows .mul _) operands =>
    ∀ operand ∈ operands, ∀ width, operand.sort = .bits width → width.bits < 2 ^ 31
  | _ => True

namespace Solver

/-- The value of a term of a solver session, read as an s-expression. -/
def value? (solver : Solver) (assignment : Assignment) (term : Nat) : Option Value :=
  (SExpr.ofShared solver.terms term).value? assignment

/-- The width of the term can be found, if it is a bit-vector. -/
def KnowsWidth (solver : Solver) (term : Nat) : SmtSort → Prop
  | .bits _ =>
    solver.widths[term]?.isSome ∨
      ∃ width pattern, solver.literal? term = some (.bits width pattern)
  | .bool | .int => True

structure IsVariable (solver : Solver) (name : String) (sort : SmtSort) (term : Nat) : Prop where
  inside : term < solver.terms.size
  symbol : SExpr.ofShared solver.terms term = .symbol (Symbol.text name)
  notTrue : name ≠ "true"
  notFalse : name ≠ "false"
  width : solver.KnowsWidth term sort

structure HasValues (table : TermTable) (solver : Solver) (term : Nat) (sort : SmtSort) :
    Prop where
  inside : term < solver.terms.size
  value : ∀ assignment, table.Respects assignment →
    ∃ value, solver.value? assignment term = some value ∧ value.HasSort sort

/-- The solver session has the variables of the table, and keeps account of no wrong width. -/
structure Follows (table : TermTable) (solver : Solver) : Prop where
  valid : table.Valid
  shared : solver.terms.WellFormed
  sorts : ∀ name : String, (solver.declared[name]?).map Prod.fst = table.sorts[name]?
  declared : ∀ {name : String} {sort : SmtSort} {term : Nat},
    solver.declared[name]? = some (sort, term) → solver.IsVariable name sort term
  widths : ∀ {term : Nat} {width : Width},
    solver.widths[term]? = some width → HasValues table solver term (.bits width)

/-- The term of the session has the values that the term of the table has. -/
structure Same (table : TermTable) (solver : Solver) (left right : Nat) (sort : SmtSort) :
    Prop where
  sorted : table.sort? left = some sort
  inside : right < solver.terms.size
  width : solver.KnowsWidth right sort
  value : ∀ assignment, table.Respects assignment →
    solver.value? assignment right = table.value? assignment left

section

variable {table nextTable : TermTable} {solver next : Solver} {assignment : Assignment}
  {name : String} {term left right : Nat}
  {sort : SmtSort} {width : Width}

/-! ## Growing sessions -/

/-- The new session has all terms of the old one, and knows all the widths that it knew. -/
structure Grows (old new : Solver) : Prop where
  before : old.terms.WellFormed
  shared : new.terms.WellFormed
  terms : old.terms.Extends new.terms
  widths : ∀ term : Nat, old.widths[term]?.isSome → new.widths[term]?.isSome

theorem Grows.value? (grows : solver.Grows next) (inside : term < solver.terms.size) :
    next.value? assignment term = solver.value? assignment term :=
  congrArg _ (SExpr.ofShared_extends grows.terms inside)

theorem literal?_eq (shared : solver.terms.WellFormed) (inside : term < solver.terms.size) :
    solver.literal? term = (SExpr.ofShared solver.terms term).literal? :=
  SExpr.literal?_outline shared inside

theorem Grows.knowsWidth (grows : solver.Grows next) (inside : term < solver.terms.size)
    (knows : solver.KnowsWidth term sort) : next.KnowsWidth term sort := by
  cases sort with
  | bits width =>
      rcases knows with recorded | ⟨bits, pattern, literal⟩
      · exact .inl (grows.widths term recorded)
      · refine .inr ⟨bits, pattern, ?_⟩
        rw [literal?_eq grows.shared (grows.terms.lt_size inside),
          SExpr.ofShared_extends grows.terms inside, ← literal?_eq grows.before inside, literal]
  | bool | int => trivial

theorem knowsWidth_of_bits {bits pattern : Nat} (sort : SmtSort)
    (literal : solver.literal? term = some (.bits bits pattern)) :
    solver.KnowsWidth term sort := by
  cases sort with
  | bits width => exact .inr ⟨bits, pattern, literal⟩
  | bool | int => trivial

theorem knowsWidth_of_literal? {value : Value} (literal : solver.literal? term = some value)
    (hasSort : value.HasSort sort) : solver.KnowsWidth term sort := by
  cases sort with
  | bits width =>
      rcases Value.hasSort_bits_iff.mp hasSort with ⟨pattern, rfl, -⟩
      exact knowsWidth_of_bits _ literal
  | bool | int => trivial

theorem IsVariable.mono (grows : solver.Grows next) {name : String}
    (isVariable : solver.IsVariable name sort term) : next.IsVariable name sort term where
  inside := grows.terms.lt_size isVariable.inside
  symbol := (SExpr.ofShared_extends grows.terms isVariable.inside).trans isVariable.symbol
  notTrue := isVariable.notTrue
  notFalse := isVariable.notFalse
  width := grows.knowsWidth isVariable.inside isVariable.width

theorem HasValues.mono (grownTable : table.Extends nextTable) (grows : solver.Grows next)
    (typed : HasValues table solver term sort) : HasValues nextTable next term sort where
  inside := grows.terms.lt_size typed.inside
  value assignment respects := by
    rw [grows.value? typed.inside]
    exact typed.value assignment (grownTable.respects respects)

theorem Same.mono (grownTable : table.Extends nextTable) (grows : solver.Grows next)
    (same : Same table solver left right sort) : Same nextTable next left right sort where
  sorted := grownTable.sort? same.sorted
  inside := grows.terms.lt_size same.inside
  width := grows.knowsWidth same.inside same.width
  value assignment respects := by
    rw [grows.value? same.inside, grownTable.value? (TermTable.lt_size_of_sort? same.sorted)]
    exact same.value assignment (grownTable.respects respects)

/-- What both sides keep at a step: the table stays valid, and whatever variable or width is new in
the session is right. -/
theorem Follows.step (follows : Follows table solver) (valid : nextTable.Valid)
    (grownTable : table.Extends nextTable) (grows : solver.Grows next)
    (sorts : ∀ name : String, (next.declared[name]?).map Prod.fst = nextTable.sorts[name]?)
    (declared : ∀ {name : String} {sort : SmtSort} {term : Nat},
      next.declared[name]? = some (sort, term) →
        solver.declared[name]? = some (sort, term) ∨ next.IsVariable name sort term)
    (widths : ∀ {term : Nat} {width : Width}, next.widths[term]? = some width →
      solver.widths[term]? = some width ∨ HasValues nextTable next term (.bits width)) :
    Follows nextTable next where
  valid := valid
  shared := grows.shared
  sorts := sorts
  declared found := (declared found).elim (fun old => (follows.declared old).mono grows) id
  widths found := (widths found).elim (fun old => (follows.widths old).mono grownTable grows) id

/-! ## Widths -/

theorem Same.exists_value (follows : Follows table solver)
    (same : Same table solver left right sort) (respects : table.Respects assignment) :
    ∃ value, solver.value? assignment right = some value ∧
      table.value? assignment left = some value ∧ value.HasSort sort := by
  rcases follows.valid.exists_value respects same.sorted with ⟨value, found, hasSort⟩
  exact ⟨value, (same.value assignment respects).trans found, found, hasSort⟩

theorem Same.widthOf (follows : Follows table solver)
    (same : Same table solver left right (.bits width)) :
    solver.widthOf right = .ok width.bits := by
  rcases table.exists_respects with ⟨assignment, respects⟩
  rcases same.exists_value follows respects with ⟨value, found, -, hasSort⟩
  unfold Solver.widthOf
  cases recorded : solver.widths[right]? with
  | some other =>
      rcases (follows.widths recorded).value assignment respects with
        ⟨otherValue, otherFound, otherSort⟩
      cases found.symm.trans otherFound
      cases hasSort.unique otherSort
      rfl
  | none =>
      rcases same.width with isRecorded | ⟨bits, pattern, literal⟩
      · simp [recorded] at isRecorded
      · rw [literal?_eq follows.shared same.inside] at literal
        rcases SExpr.eq_of_literal? literal found with rfl
        rw [literal?_eq follows.shared same.inside, literal]
        exact congrArg Except.ok hasSort.1

/-! ## Variables on both sides -/

section

variable (sorts : ∀ name : String, (solver.declared[name]?).map Prod.fst = table.sorts[name]?)
  (later : ∀ other, nextTable.sorts[other]? =
    if name = other then some sort else table.sorts[other]?)

include sorts later

theorem sorts_of_declared (declared : solver.declared[name]? = some (sort, term))
    (other : String) : (solver.declared[other]?).map Prod.fst = nextTable.sorts[other]? := by
  rw [sorts, later]
  split
  case isTrue same =>
      rw [← same, ← sorts, declared]
      rfl
  case isFalse => rfl

theorem sorts_of_insert (term : Nat) (other : String) :
    ((solver.declared.insert name (sort, term))[other]?).map Prod.fst =
      nextTable.sorts[other]? := by
  rw [later, Std.HashMap.getElem?_insert]
  by_cases same : name = other
  · simp [same]
  · simpa [same] using sorts other

end

/-- If both sides know the same variables, they refuse the same ones. For any other the table has a
term, unless it is full, and the session has one already, introduces it, or is told of a fault of
the solver. -/
theorem declare_together (valid : table.Valid)
    (sorts : ∀ name : String, (solver.declared[name]?).map Prod.fst = table.sorts[name]?)
    (name : String) (sort : SmtSort) :
    (∃ error, TermTable.declare name sort table = .error error table ∧
      declare name sort solver = .error error solver) ∨
    Action.Ends
      (fun left nextTable => TermTable.Records name sort table nextTable ∧
        nextTable.StandsFor left ⟨⟨.variable name, sort⟩, []⟩)
      (fun error _ => error = .tableFull) (TermTable.declare name sort table) ∧
    ((∃ term, solver.declared[name]? = some (sort, term) ∧
      declare name sort solver = .ok term solver) ∨
    (∃ channel, declare name sort solver =
      .ok (solver.terms.intern ⟨.symbol (Symbol.text name), []⟩).1
        { solver.introduced name channel with
          declared := solver.declared.insert name
            (sort, (solver.terms.intern ⟨.symbol (Symbol.text name), []⟩).1)
          widths := withWidth solver.widths
            (solver.terms.intern ⟨.symbol (Symbol.text name), []⟩).1 sort }) ∨
    ∃ fault next, declare name sort solver = .error (.solver fault) next) := by
  have known := sorts name
  cases spellable : Symbol.isSpellable name with
  | false =>
      exact .inl ⟨_, TermTable.declare_of_unspellable spellable, declare_of_unspellable spellable⟩
  | true =>
      have onTable (free : ∀ existing, table.sorts[name]? = some existing → existing = sort) :=
        (valid.ends_declare sort spellable free).imp (fun _ _ => id) fun _ _ => And.left
      cases declared : solver.declared[name]? with
      | none =>
          rw [declared] at known
          refine .inr ⟨onTable (by simp [← known]), .inr ?_⟩
          rw [declare_of_undeclared spellable declared]
          have ends := Channel.ends_acknowledge (.declare (Symbol.text name) sort) solver.channel
          cases answered : Channel.acknowledge (.declare (Symbol.text name) sort)
              solver.channel with
          | ok _ channel => exact .inl ⟨channel, rfl⟩
          | error error channel =>
              rw [answered, Action.ends_error] at ends
              rcases ends.2 with ⟨fault, rfl⟩
              exact .inr ⟨fault, _, rfl⟩
      | some entry =>
          rcases entry with ⟨existing, term⟩
          rw [declared] at known
          have declaring : declare name sort solver = _ := declare_of_declared spellable declared
          by_cases same : existing = sort
          · subst same
            exact .inr ⟨onTable (by simp [← known]), .inl ⟨term, rfl, declaring.trans (if_pos rfl)⟩⟩
          · exact .inl ⟨_, TermTable.declare_of_other spellable known.symm same,
              declaring.trans (if_neg same)⟩

/-! ## Requests -/

def Made (table : TermTable) (solver : Solver) (sort : SmtSort) (left right : Nat)
    (nextTable : TermTable) (next : Solver) : Prop :=
  Follows nextTable next ∧ Same nextTable next left right sort ∧
    ∀ left right sort, Same table solver left right sort → Same nextTable next left right sort

theorem grows_of_shared {expr : SExpr} {terms : Dag SExpr.Label}
    (follows : Follows table solver) (shared : SExpr.Shared solver.terms terms term expr)
    (sameTerms : next.terms = terms)
    (widths : ∀ term : Nat, solver.widths[term]?.isSome → next.widths[term]?.isSome) :
    solver.Grows next where
  before := follows.shared
  shared := sameTerms ▸ shared.valid
  terms := sameTerms ▸ shared.grown
  widths := widths

theorem Follows.made_literal (follows : Follows table solver) (label : TermLabel) {value : Value}
    {text : String} (spelled : label.literal? = some value)
    (read : SExpr.symbolLiteral? text = some value) (hasSort : value.HasSort label.sort)
    {left : Nat} (grows : table.Grows nextTable)
    (stands : nextTable.StandsFor left ⟨label, []⟩) :
    Made table solver label.sort left (solver.terms.intern ⟨.symbol text, []⟩).1 nextTable
      { solver with terms := (solver.terms.intern ⟨.symbol text, []⟩).2 } := by
  have shared := SExpr.shared_symbol follows.shared text
  have grown : solver.Grows
      { solver with terms := (solver.terms.intern ⟨.symbol text, []⟩).2 } :=
    grows_of_shared follows shared rfl fun _ => id
  refine ⟨follows.step grows.valid grows.grown grown ?_ .inl .inl, ?_,
    fun _ _ _ => .mono grows.grown grown⟩
  · intro name
    rw [grows.sameSorts]
    exact follows.sorts name
  · refine ⟨stands.sort, shared.inside, ?_, fun assignment respects => ?_⟩
    · refine knowsWidth_of_literal? ?_ hasSort
      rw [literal?_eq grown.shared shared.inside, shared.ofShared_eq]
      exact read
    · rw [stands.value assignment respects, TermLabel.value?_of_literal? assignment _ spelled]
      unfold Solver.value?
      rw [shared.ofShared_eq]
      exact SExpr.value?_of_symbolLiteral? read

theorem isSome_withWidth {widths : Std.HashMap Nat Width} (term : Nat) (sort : SmtSort)
    {other : Nat} (known : widths[other]?.isSome) :
    (withWidth widths term sort)[other]?.isSome := by
  cases sort with
  | bits width =>
      simp only [withWidth, Std.HashMap.getElem?_insert]
      split
      · rfl
      · exact known
  | bool | int => exact known

theorem getElem?_withWidth {widths : Std.HashMap Nat Width} {other : Nat}
    (found : (withWidth widths term sort)[other]? = some width) :
    widths[other]? = some width ∨ other = term ∧ sort = .bits width := by
  cases sort with
  | bits termWidth =>
      simp only [withWidth, Std.HashMap.getElem?_insert] at found
      split at found
      case isTrue same =>
          cases found
          exact .inr ⟨(eq_of_beq same).symm, rfl⟩
      case isFalse => exact .inl found
  | bool | int => exact .inl found

theorem knowsWidth_withWidth (widths : Std.HashMap Nat Width) (term : Nat) (sort : SmtSort)
    (recorded : solver.widths = withWidth widths term sort) : solver.KnowsWidth term sort := by
  cases sort with
  | bits width =>
      refine .inl ?_
      simp [recorded, withWidth]
  | bool | int => trivial

/-- The operands on both sides have the same values, of the operands' sorts. -/
theorem Follows.exists_values (follows : Follows table solver) {lefts rights : List Expr}
    (pairs : List.Forall₂ (fun left right =>
      left.sort = right.sort ∧ Same table solver left.term right.term left.sort) lefts rights)
    {assignment : Assignment} (respects : table.Respects assignment) :
    ∃ values, (lefts.map Expr.term).mapM (table.value? assignment) = some values ∧
      List.Forall₂ Value.HasSort values (lefts.map Expr.sort) ∧
      List.Forall₂ (Draft.Means solver.terms assignment) ((rights.map Expr.term).map .term)
        values := by
  obtain ⟨values, onLeft, onRight⟩ := exists_between
    (fun left value => table.value? assignment left.term = some value ∧
      value.HasSort left.sort)
    (fun value right => (Draft.term right.term).Means solver.terms assignment value)
    pairs fun left _ right pair => by
      rcases pair.2.exists_value follows respects with ⟨value, found, foundLeft, hasSort⟩
      exact ⟨value, ⟨foundLeft, hasSort⟩, pair.2.inside, found⟩
  refine ⟨values, ?_, ?_, ?_⟩
  · rw [mapM_eq_some_iff, List.forall₂_map_left_iff]
    exact onLeft.imp fun _ _ has => has.1
  · rw [List.forall₂_map_right_iff]
    exact onLeft.flip.imp fun _ _ has => has.2
  · rw [List.map_map, List.forall₂_map_left_iff]
    exact onRight.flip

/-- The draft of an application, with the value that evaluation gives to it. -/
theorem Follows.exists_drafted (follows : Follows table solver) {operator : Operator}
    {lefts rights : List Expr} (rule : operator.Types (lefts.map Expr.sort) sort)
    (pairs : List.Forall₂ (fun left right =>
      left.sort = right.sort ∧ Same table solver left.term right.term left.sort) lefts rights)
    (lowerable : (Request.apply operator lefts).Lowerable) {assignment : Assignment}
    (respects : table.Respects assignment) :
    ∃ draft value, solver.draft operator (rights.map Expr.term) sort = .ok draft ∧
      ((lefts.map Expr.term).mapM (table.value? assignment)).bind (fun values =>
        (operator.evaluate values).toOption) = some value ∧
      draft.Means solver.terms assignment value := by
  have ofResult (width : Width) (isBits : sort = .bits width) :
      Solver.widthOfResult operator sort = .ok width.bits := by
    subst isBits
    rfl
  have ofOperand (width : Width) (first : (lefts.map Expr.sort).head? = some (.bits width)) :
      solver.widthOf ((rights.map Expr.term).headD 0) = .ok width.bits := by
    cases pairs with
    | nil => cases first
    | cons pair _ =>
        have same := pair.2
        rw [Option.some.inj first] at same
        exact same.widthOf follows
  have narrow : operator.IsNarrow (lefts.map Expr.sort) := by
    rintro rfl width member
    rcases List.mem_map.mp member with ⟨left, inLefts, isBits⟩
    exact lowerable left inLefts width isBits
  rcases follows.exists_values pairs respects with ⟨values, found, sorted, means⟩
  rcases rule.exists_means (fun _ => Solver.widthOfResult operator sort)
      (fun _ => solver.widthOf _) ofResult ofOperand narrow sorted means with
    ⟨draft, value, lowered, evaluated, draftMeans⟩
  refine ⟨draft, value, lowered, ?_, draftMeans⟩
  rw [found]
  simp [evaluated, Except.toOption]

theorem Follows.exists_draft (follows : Follows table solver) {operator : Operator}
    {lefts rights : List Expr} (rule : operator.Types (lefts.map Expr.sort) sort)
    (pairs : List.Forall₂ (fun left right =>
      left.sort = right.sort ∧ Same table solver left.term right.term left.sort) lefts rights)
    (lowerable : (Request.apply operator lefts).Lowerable) :
    ∃ draft, solver.draft operator (rights.map Expr.term) sort = .ok draft ∧
      ∀ assignment, table.Respects assignment → ∃ value,
        ((lefts.map Expr.term).mapM (table.value? assignment)).bind (fun values =>
          (operator.evaluate values).toOption) = some value ∧
        draft.Means solver.terms assignment value := by
  -- The draft is the same for every assignment, so that any one of them shows that it exists.
  rcases table.exists_respects with ⟨assignment, respects⟩
  rcases follows.exists_drafted rule pairs lowerable respects with ⟨draft, -, isDraft, -⟩
  refine ⟨draft, isDraft, fun other respectsOther => ?_⟩
  rcases follows.exists_drafted rule pairs lowerable respectsOther with
    ⟨otherDraft, value, isDraftToo, found, means⟩
  cases isDraft.symm.trans isDraftToo
  exact ⟨value, found, means⟩

/-- The session has an s-expression for an application, which agrees with any term of the table that
stands for it. -/
theorem Follows.exists_applied (follows : Follows table solver) {operator : Operator}
    {lefts rights : List Expr} (rule : operator.Types (lefts.map Expr.sort) sort)
    (pairs : List.Forall₂ (fun left right =>
      left.sort = right.sort ∧ Same table solver left.term right.term left.sort) lefts rights)
    (lowerable : (Request.apply operator lefts).Lowerable) :
    ∃ right next, apply operator (rights.map Expr.term) sort solver = .ok right next ∧
      ∀ {left : Nat} {nextTable : TermTable}, table.Grows nextTable →
        nextTable.StandsFor left ⟨⟨.apply operator, sort⟩, lefts.map Expr.term⟩ →
          Made table solver sort left right nextTable next := by
  rcases follows.exists_draft rule pairs lowerable with ⟨draft, drafted, values⟩
  rcases table.exists_respects with ⟨assignment, respects⟩
  rcases values assignment respects with ⟨_, _, someMeans⟩
  have shared := draft.shared_share follows.shared someMeans.inside
  rcases apply_of_draft drafted with ⟨widths, applied, recorded⟩
  refine ⟨_, _, applied, fun {left nextTable} grows stands => ?_⟩
  generalize (draft.share solver.terms).1 = right at *
  generalize (draft.share solver.terms).2 = terms at *
  have grown : solver.Grows { solver with terms, widths } := by
    refine grows_of_shared follows shared rfl fun other known => ?_
    rcases recorded with rfl | ⟨rfl, -⟩
    · exact isSome_withWidth right sort known
    · exact known
  have same : Same nextTable { solver with terms, widths } left right sort := by
    refine ⟨stands.sort, shared.inside, ?_, fun assignment respects => ?_⟩
    · rcases recorded with rfl | ⟨rfl, width, pattern, literal⟩
      · exact knowsWidth_withWidth solver.widths right sort rfl
      · exact knowsWidth_of_bits sort literal
    · rcases values assignment (grows.respects.mp respects) with ⟨value, found, means⟩
      rcases Option.bind_eq_some_iff.mp found with ⟨operandValues, haveValues, evaluated⟩
      have kept : (lefts.map Expr.term).mapM (nextTable.value? assignment) =
          some operandValues := by
        rw [mapM_eq_some_iff, List.forall₂_map_left_iff] at haveValues ⊢
        refine imp_of_mem haveValues fun operand member value hasValue => ?_
        rcases exists_of_mem_left pairs member with ⟨_, -, pair⟩
        rw [grows.grown.value? (TermTable.lt_size_of_sort? pair.2.sorted), hasValue]
      rw [stands.value assignment respects, TermLabel.value?_apply, kept, Option.bind_some,
        evaluated]
      unfold Solver.value?
      rw [shared.ofShared_eq]
      exact means.value
  refine ⟨follows.step grows.valid grows.grown grown ?_ .inl ?_, same,
    fun _ _ _ => .mono grows.grown grown⟩
  · intro name
    rw [grows.sameSorts]
    exact follows.sorts name
  · intro other width found
    rcases recorded with rfl | ⟨rfl, -⟩
    · rcases getElem?_withWidth found with old | ⟨rfl, rfl⟩
      · exact .inl old
      · refine .inr ⟨same.inside, fun assignment respects => ?_⟩
        rcases grows.valid.exists_value respects same.sorted with ⟨value, hasValue, hasSort⟩
        exact ⟨value, (same.value assignment respects).trans hasValue, hasSort⟩
    · exact .inl found

theorem IsVariable.value (isVariable : solver.IsVariable name sort term) :
    solver.value? assignment term = some (assignment name) := by
  unfold Solver.value?
  rw [isVariable.symbol]
  exact SExpr.value?_text isVariable.notTrue isVariable.notFalse

theorem Grows.refl (shared : solver.terms.WellFormed) : solver.Grows solver :=
  ⟨shared, shared, .refl _, fun _ => id⟩

theorem Follows.made_declared (follows : Follows table solver)
    (declared : solver.declared[name]? = some (sort, term)) {left : Nat}
    (records : TermTable.Records name sort table nextTable)
    (stands : nextTable.StandsFor left ⟨⟨.variable name, sort⟩, []⟩) :
    Made table solver sort left term nextTable solver := by
  have isVariable := follows.declared declared
  have grows := Grows.refl follows.shared
  refine ⟨follows.step records.valid records.grown grows
    (sorts_of_declared follows.sorts records.sorts declared) .inl .inl, ?_,
    fun _ _ _ => .mono records.grown grows⟩
  refine ⟨stands.sort, isVariable.inside, isVariable.width, fun assignment respects => ?_⟩
  rw [stands.value assignment respects, isVariable.value]
  rfl

theorem Follows.made_undeclared (follows : Follows table solver)
    (notTrue : name ≠ "true") (notFalse : name ≠ "false") {left : Nat}
    (records : TermTable.Records name sort table nextTable)
    (stands : nextTable.StandsFor left ⟨⟨.variable name, sort⟩, []⟩) (channel : Channel) :
    Made table solver sort left (solver.terms.intern ⟨.symbol (Symbol.text name), []⟩).1 nextTable
      { solver.introduced name channel with
        declared := solver.declared.insert name
          (sort, (solver.terms.intern ⟨.symbol (Symbol.text name), []⟩).1)
        widths := withWidth solver.widths
          (solver.terms.intern ⟨.symbol (Symbol.text name), []⟩).1 sort } := by
  have shared := SExpr.shared_symbol follows.shared (Symbol.text name)
  unfold introduced
  generalize (solver.terms.intern ⟨.symbol (Symbol.text name), []⟩).1 = right at *
  generalize (solver.terms.intern ⟨.symbol (Symbol.text name), []⟩).2 = terms at *
  have grown : solver.Grows { solver with
      channel, terms
      declared := solver.declared.insert name (sort, right)
      widths := withWidth solver.widths right sort } :=
    grows_of_shared follows shared rfl fun _ => isSome_withWidth right sort
  have isVariable : IsVariable { solver with
      channel, terms
      declared := solver.declared.insert name (sort, right)
      widths := withWidth solver.widths right sort } name sort right :=
    ⟨shared.inside, shared.ofShared_eq, notTrue, notFalse, knowsWidth_withWidth _ right sort rfl⟩
  refine ⟨follows.step records.valid records.grown grown
    (sorts_of_insert follows.sorts records.sorts right) ?_ ?_, ?_,
    fun _ _ _ => .mono records.grown grown⟩
  · intro other otherSort otherTerm found
    rw [Std.HashMap.getElem?_insert] at found
    split at found
    case isTrue same =>
        cases found
        exact .inr (eq_of_beq same ▸ isVariable)
    case isFalse => exact .inl found
  · intro other width found
    rcases getElem?_withWidth found with old | ⟨rfl, rfl⟩
    · exact .inl old
    · refine .inr ⟨isVariable.inside, fun assignment respects => ?_⟩
      exact ⟨assignment name, isVariable.value,
        respects name _ (by rw [records.sorts, if_pos rfl])⟩
  · refine ⟨stands.sort, isVariable.inside, isVariable.width, fun assignment respects => ?_⟩
    rw [stands.value assignment respects, isVariable.value]
    rfl

/-- Two steps end together, unless the table is full or the solver is at fault. -/
abbrev EndAgreeing (table : TermTable) (solver : Solver) (sort : SmtSort)
    (onTable : Action TermTable Nat) (onSolver : Action Solver Nat) : Prop :=
  Action.EndTogether (Made table solver sort)
    (fun nextTable next => Follows nextTable next ∧
      ∀ left right sort, Same table solver left right sort → Same nextTable next left right sort)
    (· = .tableFull) (fun error => ∃ fault, error = .solver fault) (onTable table) (onSolver solver)

/-- Where the session makes a term, it is enough to know that both sides agree if the table does. -/
theorem endAgreeing_of_builds {onTable : Action TermTable Nat} {onSolver : Action Solver Nat}
    {good : Nat → TermTable → Prop} (builds : table.Builds good (onTable table))
    (made : onSolver solver = .ok right next)
    (agree : ∀ left nextTable, table.Grows nextTable → good left nextTable →
      Made table solver sort left right nextTable next) :
    EndAgreeing table solver sort onTable onSolver := by
  rw [EndAgreeing, made]
  refine Action.endTogether_of_ends (Action.Ends.imp builds (fun _ _ => id) fun _ _ => And.left)
    (show Action.Ends (fun term state => right = term ∧ next = state) _ _ from ⟨rfl, rfl⟩) ?_
  rintro left nextTable _ _ - - ⟨grows, isGood⟩ ⟨rfl, rfl⟩
  exact agree left nextTable grows isGood

/-- Both sides declare a variable together: they refuse the same names, and what they make has
the same values. -/
theorem Follows.declare_together (follows : Follows table solver) (name : String) (sort : SmtSort)
    (notTrue : name ≠ "true") (notFalse : name ≠ "false") :
    EndAgreeing table solver sort (TermTable.declare name sort) (declare name sort) := by
  rcases Solver.declare_together follows.valid follows.sorts name sort with
    ⟨error, refused, refusedToo⟩ | ⟨onTable, onSolver⟩
  · rw [EndAgreeing, refused, refusedToo]
    exact .inr (.inr ⟨rfl, follows, fun _ _ _ => id⟩)
  · rw [EndAgreeing]
    cases made : TermTable.declare name sort table with
    | error error nextTable =>
        rw [made] at onTable
        refine Action.endTogether_of_left ?_
        exact onTable
    | ok left nextTable =>
        rw [made] at onTable
        rcases onTable with ⟨records, stands⟩
        rcases onSolver with ⟨term, declared, known⟩ | ⟨channel, told⟩ | ⟨fault, next, refused⟩
        · rw [known]
          exact follows.made_declared declared records stands
        · rw [told]
          exact follows.made_undeclared notTrue notFalse records stands channel
        · rw [refused]
          exact ⟨fault, rfl⟩

theorem Follows.made_simplify (follows : Follows table solver) {result : Nat}
    (pair : Same table solver left right sort) (grows : table.Grows nextTable)
    (meaning : nextTable.SameMeaning left result) :
    Made table solver sort result right nextTable solver := by
  have grown := Grows.refl follows.shared
  have later := pair.mono grows.grown grown
  refine ⟨follows.step grows.valid grows.grown grown (fun name => ?_) .inl .inl, ?_,
    fun _ _ _ => .mono grows.grown grown⟩
  · rw [grows.sameSorts]
    exact follows.sorts name
  · refine ⟨meaning.sort_eq later.sorted, later.inside, later.width, fun assignment respects => ?_⟩
    rw [meaning.value assignment respects]
    exact later.value assignment respects

/-- A session follows the table whose calls it makes, unless the table is full or the solver is at
fault. -/
theorem simulates : Engine.Simulates Follows Same Request.Lowerable (· = .tableFull)
    fun error => ∃ fault, error = .solver fault where
  request := by
    intro table solver leftRequest rightRequest sort follows pair proper lowerable
    cases pair with
    | declare name =>
        exact follows.declare_together name sort lowerable.1 lowerable.2
    | bitsLiteral width pattern =>
        rcases proper with ⟨rfl, fits⟩
        refine endAgreeing_of_builds (follows.valid.builds_bitsLiteral fits)
          ((bitsLiteral_of_fits fits).trans (symbol_apply _ solver)) fun left nextTable => ?_
        exact follows.made_literal ⟨.bits pattern, .bits width⟩ rfl
          (SExpr.symbolLiteral?_bitsText width.pos width.lt_wordLimit fits) ⟨rfl, fits⟩
    | boolLiteral truth =>
        rcases proper with rfl
        refine endAgreeing_of_builds (follows.valid.builds_boolLiteral truth)
          (symbol_apply _ solver) fun left nextTable => ?_
        exact follows.made_literal ⟨.bool truth, .bool⟩ rfl
          (SExpr.symbolLiteral?_boolText truth) trivial
    | apply operator lefts rights pairs =>
        rcases proper with ⟨rule, -⟩
        have sorted : table.HasSorts (lefts.map Expr.term) (lefts.map Expr.sort) := by
          refine TermTable.HasSorts.of_exprs fun left member => ?_
          rcases exists_of_mem_left pairs member with ⟨right, -, pair⟩
          exact pair.2.sorted
        rcases follows.exists_applied rule pairs lowerable with ⟨right, next, applied, agree⟩
        exact endAgreeing_of_builds (follows.valid.builds_apply sorted rule) applied
          fun left nextTable => agree
    | simplify left right sameSort pair =>
        rcases proper with ⟨rfl, -⟩
        exact endAgreeing_of_builds (follows.valid.builds_simplify pair.sorted)
          (show Solver.simplify right.term solver = .ok right.term solver from rfl)
          fun result nextTable => follows.made_simplify pair

end

end Solver

end BitTerms
