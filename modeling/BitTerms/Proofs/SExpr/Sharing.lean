import BitTerms.Proofs.Dag.Text
import BitTerms.Proofs.Pointwise
import BitTerms.SExpr

/-!
# Shared s-expressions

An s-expression that is added to a table is found there again, with everything else left as it
was, and its literal is recognised from the outline just as from the whole s-expression. As long as
items stand below lists only, no s-expression is at two positions.
-/

namespace BitTerms.SExpr

/-! ## Outlines -/

def symbol? : SExpr → Option String
  | .symbol text => some text
  | .string _ | .list _ => none

theorem literal?_list (items : List SExpr) :
    literal? (.list items) =
      match items.map symbol? with
      | [some mark, some pattern, some width] =>
        if mark = "_" then do
          let pattern ← Numeral.indexedBits? pattern.toList
          let width ← Text.decimalWord? wordLimit width.toList
          return .bits width pattern
        else
          none
      | [some mark, some magnitude] =>
        if mark = "-" then do
          let magnitude ← Text.decimal? magnitude.toList
          return .int (-(magnitude : Int))
        else
          none
      | _ => none := by
  match items with
  | [] => rfl
  | [first] => cases first <;> rfl
  | [first, second] => cases first <;> cases second <;> rfl
  | [first, second, third] => cases first <;> cases second <;> cases third <;> rfl
  | first :: second :: third :: fourth :: rest =>
      cases first <;> cases second <;> cases third <;> rfl

theorem symbol?_build (label : Label) (left right : List SExpr) :
    (label.build left).symbol? = (label.build right).symbol? := by
  cases label <;> rfl

theorem ofShared_eq {shared : Dag Label} (valid : shared.WellFormed) {position : Nat}
    {node : Dag.Node Label} (found : shared.nodes[position]? = some node) :
    ofShared shared position = node.label.build (node.children.map (ofShared shared)) :=
  valid.fold_eq Label.build found

/-- The outline is enough to recognise a literal. -/
theorem literal?_outline {shared : Dag Label} (valid : shared.WellFormed) {position : Nat}
    (inside : position < shared.size) :
    literal? (outline shared position) = literal? (ofShared shared position) := by
  have found : shared.nodes[position]? = some shared.nodes[position] :=
    Array.getElem?_eq_getElem inside
  rw [ofShared_eq valid found]
  simp only [outline, Dag.label?_eq found, valid.children_eq found]
  cases label : shared.nodes[position].label with
  | symbol text => rfl
  | string raw => rfl
  | list =>
      simp only [Label.build, literal?_list, List.map_map]
      congr 1
      apply List.map_congr_left
      intro child member
      have childInside := Nat.lt_trans (valid.child_lt found child member) inside
      have childFound : shared.nodes[child]? = some shared.nodes[child] :=
        Array.getElem?_eq_getElem childInside
      simp only [Function.comp, Dag.label?_eq childFound, ofShared_eq valid childFound]
      exact symbol?_build _ _ _

/-! ## Adding to a table -/

theorem ofShared_extends {old new : Dag Label} (grown : old.Extends new) {position : Nat}
    (inside : position < old.size) : ofShared new position = ofShared old position :=
  grown.fold_eq Label.build position inside

/-- The new table has the s-expression at the position, and all that the old one has. -/
structure Shared (old new : Dag Label) (position : Nat) (expr : SExpr) : Prop where
  valid : new.WellFormed
  grown : old.Extends new
  inside : position < new.size
  ofShared_eq : ofShared new position = expr

structure AllShared (old new : Dag Label) (positions : List Nat) (exprs : List SExpr) : Prop where
  valid : new.WellFormed
  grown : old.Extends new
  places : List.Forall₂ (fun position expr => position < new.size ∧ ofShared new position = expr)
    positions exprs

theorem shared_intern {terms : Dag Label} (valid : terms.WellFormed) (node : Dag.Node Label)
    (inside : ∀ child ∈ node.children, child < terms.size) :
    Shared terms (terms.intern node).2 (terms.intern node).1
      (node.label.build (node.children.map (ofShared terms))) := by
  have validNext := valid.intern inside
  have found := valid.nodes_intern node
  refine ⟨validNext, terms.extends_intern node, Dag.lt_size_of_nodes found, ?_⟩
  rw [SExpr.ofShared_eq validNext found]
  congr 1
  apply List.map_congr_left
  intro child member
  exact ofShared_extends (terms.extends_intern node) (inside child member)

theorem shared_symbol {terms : Dag Label} (valid : terms.WellFormed) (text : String) :
    Shared terms (terms.intern ⟨.symbol text, []⟩).2 (terms.intern ⟨.symbol text, []⟩).1
      (.symbol text) :=
  shared_intern valid ⟨.symbol text, []⟩ (by simp)

theorem allShared_nil {terms : Dag Label} (valid : terms.WellFormed) :
    AllShared terms terms [] [] :=
  ⟨valid, .refl terms, .nil⟩

theorem Shared.cons {old middle new : Dag Label} {position : Nat} {positions : List Nat}
    {expr : SExpr} {exprs : List SExpr} (first : Shared old middle position expr)
    (rest : AllShared middle new positions exprs) :
    AllShared old new (position :: positions) (expr :: exprs) := by
  refine ⟨rest.valid, first.grown.trans rest.grown, .cons ⟨?_, ?_⟩ rest.places⟩
  · exact rest.grown.lt_size first.inside
  · rw [ofShared_extends rest.grown first.inside, first.ofShared_eq]

theorem AllShared.list {old new : Dag Label} {positions : List Nat} {exprs : List SExpr}
    (all : AllShared old new positions exprs) :
    Shared old (new.intern ⟨.list, positions⟩).2 (new.intern ⟨.list, positions⟩).1
      (.list exprs) := by
  have inside : ∀ position ∈ positions, position < new.size := by
    intro position member
    rcases exists_of_mem_left all.places member with ⟨expr, -, place⟩
    exact place.1
  have items : positions.map (ofShared new) = exprs := by
    rw [← List.forall₂_eq_eq_eq, List.forall₂_map_left_iff]
    exact all.places.imp fun _ _ place => place.2
  have shared := shared_intern all.valid ⟨.list, positions⟩ inside
  refine ⟨shared.valid, all.grown.trans shared.grown, shared.inside, ?_⟩
  rw [shared.ofShared_eq]
  exact congrArg SExpr.list items

mutual

/-- Adding an s-expression to a table gives its position there. -/
theorem shared_share (expr : SExpr) {terms : Dag Label} (valid : terms.WellFormed) :
    Shared terms (share expr terms).2 (share expr terms).1 expr := by
  cases expr with
  | symbol text => exact shared_symbol valid text
  | string raw => exact shared_intern valid ⟨.string raw, []⟩ (by simp)
  | list items => exact (allShared_shareAll items valid).list

theorem allShared_shareAll (exprs : List SExpr) {terms : Dag Label} (valid : terms.WellFormed) :
    AllShared terms (shareAll exprs terms).2 (shareAll exprs terms).1 exprs := by
  cases exprs with
  | nil => exact allShared_nil valid
  | cons first rest =>
      have here := shared_share first valid
      exact here.cons (allShared_shareAll rest here.valid)

end

/-! ## Telling apart -/

theorem texts_eq (exprs : List SExpr) : texts exprs = exprs.map text := by
  induction exprs with
  | nil => rfl
  | cons first rest induction => rw [texts, induction, List.map_cons]

theorem text_ofShared {shared : Dag Label} (valid : shared.WellFormed) {position : Nat}
    (inside : position < shared.size) :
    (ofShared shared position).text = shared.text Label.spelling position := by
  rw [Dag.text_eq]
  refine valid.map_fold (fun label items => ?_) inside
  cases label with
  | symbol | string => rfl
  | list =>
      rw [Label.build, text, texts_eq]
      rfl

/-- Nothing stands below a symbol or a string. -/
structure Tidy (shared : Dag Label) : Prop where
  bare : ∀ {position : Nat} {node : Dag.Node Label}, shared.nodes[position]? = some node →
    node.label = .list ∨ node.children = []

theorem Tidy.intern {shared : Dag Label} (tidy : Tidy shared) {node : Dag.Node Label}
    (allowed : node.label = .list ∨ node.children = []) : Tidy (shared.intern node).2 := by
  refine ⟨fun {position other} found => ?_⟩
  rcases Dag.nodes_intern_cases shared node found with old | rfl
  · exact tidy.bare old
  · exact allowed

end BitTerms.SExpr
