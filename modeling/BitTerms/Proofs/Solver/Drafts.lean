import BitTerms.Proofs.SExpr.Meaning
import BitTerms.Proofs.SExpr.Sharing
import BitTerms.Proofs.Solver.Lowering

/-!
# What drafts mean

A draft stands for an s-expression once the terms in it are looked up, and sharing it adds exactly
this s-expression to the table. `Draft.Means` gives its value, rule by rule.
-/

namespace BitTerms.Draft

/-! ## Drafts as s-expressions -/

mutual

/-- The s-expression that a draft stands for. -/
def expand (terms : Dag SExpr.Label) : Draft → SExpr
  | .term position => SExpr.ofShared terms position
  | .symbol text => .symbol text
  | .list items => .list (expandAll terms items)

def expandAll (terms : Dag SExpr.Label) : List Draft → List SExpr
  | [] => []
  | first :: rest => expand terms first :: expandAll terms rest

end

mutual

/-- All terms of a draft are in a table of the given size. -/
def Inside (size : Nat) : Draft → Prop
  | .term position => position < size
  | .symbol _ => True
  | .list items => AllInside size items

def AllInside (size : Nat) : List Draft → Prop
  | [] => True
  | first :: rest => Inside size first ∧ AllInside size rest

end

theorem expandAll_eq (terms : Dag SExpr.Label) (drafts : List Draft) :
    expandAll terms drafts = drafts.map (expand terms) := by
  induction drafts with
  | nil => rfl
  | cons first rest induction => rw [expandAll, List.map_cons, induction]

theorem allInside_iff {size : Nat} {drafts : List Draft} :
    AllInside size drafts ↔ ∀ draft ∈ drafts, draft.Inside size := by
  induction drafts with
  | nil => simp [AllInside]
  | cons first rest induction => simp [AllInside, induction]

theorem inside_call {size : Nat} {name : String} {operands : List Draft} :
    (call name operands).Inside size ↔ AllInside size operands := by
  simp [call, Inside, AllInside]

theorem inside_indices (size : Nat) (indices : List Nat) :
    AllInside size (indices.map (symbol <| toString ·)) := by
  refine allInside_iff.mpr fun draft member => ?_
  rcases List.mem_map.mp member with ⟨index, -, rfl⟩
  trivial

theorem inside_callIndexed {size : Nat} {name : String} {indices : List Nat}
    {operands : List Draft} :
    (callIndexed name indices operands).Inside size ↔ AllInside size operands :=
  ⟨fun inside => inside.2, fun inside => ⟨⟨trivial, trivial, inside_indices size indices⟩, inside⟩⟩

theorem inside_overflows {size : Nat} (operation : RingOp) (reading : Reading)
    (width sign top : Nat) {left right : Draft} (onLeft : left.Inside size)
    (onRight : right.Inside size) :
    (overflows operation reading width sign top left right).Inside size := by
  have widens (reading : Reading) (extra : Nat) :
      (widened operation reading extra left right).Inside size :=
    inside_call.mpr ⟨inside_callIndexed.mpr ⟨onLeft, trivial⟩,
      inside_callIndexed.mpr ⟨onRight, trivial⟩, trivial⟩
  cases operation <;> cases reading <;>
    simp [overflows, topBitsDiffer, equal, not, bit, extract, extend, inside_call,
      inside_callIndexed, AllInside, Inside, bits, widens, onLeft, onRight]

/-- An operator is written with no terms but its operands. -/
theorem inside_lowered {size : Nat} {build : Build} {operator : Operator} {operands : List Draft}
    {resultWidth operandWidth : Unit → Except Error Nat} {draft : Draft}
    (inside : AllInside size operands)
    (lowered : operator.Lowered build resultWidth operandWidth operands draft) :
    draft.Inside size := by
  cases lowered with
  | @rotate direction =>
      rcases inside with ⟨onValue, onAmount, -⟩
      cases direction <;>
        simp [rotate, inside_call, AllInside, bits, Inside, onValue, onAmount]
  | @toInt reading =>
      cases reading <;>
        simp [toInt, inside_call, AllInside, bits, number, Inside, inside.1]
  | @overflows operation reading _ _ width sign top =>
      exact inside_overflows operation reading width sign top inside.1 inside.2.1
  | quotientOverflows =>
      simp [quotientOverflows, isLeast, equal, inside_call, AllInside, bits, Inside, inside.1,
        inside.2.1]
  | negationOverflows =>
      simp [isLeast, equal, inside_call, AllInside, bits, Inside, inside.1]
  | native =>
      unfold native
      cases operator.indices with
      | nil => exact inside_call.mpr inside
      | cons first rest => exact inside_callIndexed.mpr inside

variable {old new : Dag SExpr.Label}

mutual

/-- A draft stands for the same in every later table. -/
theorem expand_extends (grown : old.Extends new) (draft : Draft) (inside : draft.Inside old.size) :
    draft.expand new = draft.expand old := by
  cases draft with
  | term position => exact SExpr.ofShared_extends grown inside
  | symbol text => rfl
  | list items =>
      rw [expand, expand, expandAll_extends grown items inside]

theorem expandAll_extends (grown : old.Extends new) (drafts : List Draft)
    (inside : AllInside old.size drafts) : expandAll new drafts = expandAll old drafts := by
  cases drafts with
  | nil => rfl
  | cons first rest =>
      rw [expandAll, expandAll, expand_extends grown first inside.1,
        expandAll_extends grown rest inside.2]

end

mutual

theorem Inside.mono {small large : Nat} (le : small ≤ large) (draft : Draft)
    (inside : draft.Inside small) : draft.Inside large := by
  cases draft with
  | term position => exact Nat.lt_of_lt_of_le inside le
  | symbol text => trivial
  | list items => exact AllInside.mono le items inside

theorem AllInside.mono {small large : Nat} (le : small ≤ large) (drafts : List Draft)
    (inside : AllInside small drafts) : AllInside large drafts := by
  cases drafts with
  | nil => trivial
  | cons first rest =>
      exact ⟨Inside.mono le first inside.1, AllInside.mono le rest inside.2⟩

end

mutual

theorem shared_share {terms : Dag SExpr.Label} (draft : Draft) (valid : terms.WellFormed)
    (inside : draft.Inside terms.size) :
    SExpr.Shared terms (draft.share terms).2 (draft.share terms).1 (draft.expand terms) := by
  cases draft with
  | term position => exact ⟨valid, .refl terms, inside, rfl⟩
  | symbol text => exact SExpr.shared_symbol valid text
  | list items => exact (allShared_shareAll items valid inside).list

theorem allShared_shareAll {terms : Dag SExpr.Label} (drafts : List Draft)
    (valid : terms.WellFormed) (inside : AllInside terms.size drafts) :
    SExpr.AllShared terms (shareAll drafts terms).2 (shareAll drafts terms).1
      (expandAll terms drafts) := by
  cases drafts with
  | nil => exact SExpr.allShared_nil valid
  | cons first rest =>
      have here := shared_share first valid inside.1
      have restInside : AllInside (first.share terms).2.size rest :=
        AllInside.mono here.grown.size_le rest inside.2
      have others := allShared_shareAll rest here.valid restInside
      rw [expandAll_extends here.grown rest inside.2] at others
      exact here.cons others

end

mutual

theorem tidy_share {terms : Dag SExpr.Label} (draft : Draft) (tidy : SExpr.Tidy terms) :
    SExpr.Tidy (draft.share terms).2 := by
  cases draft with
  | term position => exact tidy
  | symbol text => exact tidy.intern (.inr rfl)
  | list items => exact (tidy_shareAll items tidy).intern (.inl rfl)

theorem tidy_shareAll {terms : Dag SExpr.Label} (drafts : List Draft)
    (tidy : SExpr.Tidy terms) : SExpr.Tidy (shareAll drafts terms).2 := by
  cases drafts with
  | nil => exact tidy
  | cons first rest => exact tidy_shareAll rest (tidy_share first tidy)

end

/-! ## Values -/

/-- All terms of the draft are in the table, and it has the value. -/
structure Means (terms : Dag SExpr.Label) (assignment : Assignment) (draft : Draft)
    (value : Value) : Prop where
  inside : draft.Inside terms.size
  value : (draft.expand terms).value? assignment = some value

section

variable {terms : Dag SExpr.Label} {assignment : Assignment} {operands : List Draft}
  {values : List Value} {value : Value}

theorem means_symbol {text : String} (literal : SExpr.symbolLiteral? text = some value) :
    (symbol text).Means terms assignment value :=
  ⟨trivial, SExpr.value?_of_symbolLiteral? literal⟩

theorem means_list {head : Draft} (function : Function)
    (headInside : head.Inside terms.size) (named : (head.expand terms).function? = some function)
    (all : List.Forall₂ (Means terms assignment) operands values)
    (applied : function.value? values = some value) :
    (list (head :: operands)).Means terms assignment value := by
  constructor
  · refine ⟨headInside, allInside_iff.mpr fun operand member => ?_⟩
    rcases exists_of_mem_left all member with ⟨operandValue, -, means⟩
    exact means.inside
  · refine SExpr.value?_list named ?_ applied
    rw [expandAll_eq, List.forall₂_map_left_iff]
    exact all.imp fun _ _ means => means.value

theorem means_call (name : String) (function : Function)
    (named : Function.named name [] = some function)
    (all : List.Forall₂ (Means terms assignment) operands values)
    (applied : function.value? values = some value) :
    (call name operands).Means terms assignment value :=
  have inside : (symbol name).Inside terms.size := trivial
  means_list function inside named all applied

theorem mapM_index? (indices : List Nat) :
    (indices.map fun index => SExpr.symbol (toString index)).mapM SExpr.index? = some indices := by
  rw [List.mapM_map, mapM_eq_some_iff, List.forall₂_same]
  exact fun index _ => Text.decimal?_toString index

theorem means_callIndexed {name : String} {indices : List Nat} (function : Function)
    (named : Function.named name indices = some function)
    (all : List.Forall₂ (Means terms assignment) operands values)
    (applied : function.value? values = some value) :
    (callIndexed name indices operands).Means terms assignment value := by
  refine means_list function ?_ ?_ all applied
  · exact ⟨trivial, trivial, inside_indices terms.size indices⟩
  · have spelled : (expandAll terms (indices.map (symbol <| toString ·))).mapM SExpr.index? =
        some indices := by
      rw [expandAll_eq, List.map_map]
      exact mapM_index? indices
    simp only [expand, expandAll, SExpr.function?, spelled]
    exact named

theorem means_native {operator : Operator}
    (named : Function.named operator.name operator.indices = some (.native operator))
    (all : List.Forall₂ (Means terms assignment) operands values)
    (evaluated : operator.evaluate values = .ok value) :
    (native operator operands).Means terms assignment value := by
  have applied : (Function.native operator).value? values = some value := by
    simp [Function.value?, evaluated, Except.toOption]
  unfold native
  cases indices : operator.indices with
  | nil => exact means_call operator.name _ (indices ▸ named) all applied
  | cons first rest => exact means_callIndexed _ (indices ▸ named) all applied

end

end BitTerms.Draft
