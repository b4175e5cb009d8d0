import BitTerms.Proofs.Dag.BottomUp
import BitTerms.Proofs.TermTable.Building

/-!
# Simplification keeps the meaning

The walk over a term folds every application anew, on operands that were simplified before. What
it keeps for each node is a term of the same sort and the same values, and the table only grows
on the way.
-/

namespace BitTerms.TermTable

variable {table old new next : TermTable} {assignment : Assignment} {term result : Nat}
  {sort : SmtSort}

/-- The result has the sort and the values of the term, and no variable that the term does not
have. -/
structure SameMeaning (table : TermTable) (term result : Nat) : Prop where
  sort : ∃ sort, table.sort? term = some sort ∧ table.sort? result = some sort
  value : ∀ assignment, table.Respects assignment →
    table.value? assignment result = table.value? assignment term
  names : table.freeVariables result ⊆ table.freeVariables term

theorem SameMeaning.refl (sorted : table.sort? term = some sort) : table.SameMeaning term term :=
  ⟨⟨sort, sorted, sorted⟩, fun _ _ => rfl, List.Subset.refl _⟩

theorem SameMeaning.sort_eq (same : table.SameMeaning term result)
    (sorted : table.sort? term = some sort) : table.sort? result = some sort := by
  rcases same.sort with ⟨other, ofTerm, ofResult⟩
  rw [ofResult, ← ofTerm, sorted]

theorem SameMeaning.mono (grown : old.Extends new) (same : old.SameMeaning term result) :
    new.SameMeaning term result := by
  rcases same.sort with ⟨sort, ofTerm, ofResult⟩
  refine ⟨⟨sort, grown.sort? ofTerm, grown.sort? ofResult⟩, fun assignment respects => ?_, ?_⟩
  · rw [grown.value? (lt_size_of_sort? ofResult), grown.value? (lt_size_of_sort? ofTerm)]
    exact same.value assignment (grown.respects respects)
  · rw [grown.freeVariables (lt_size_of_sort? ofResult),
      grown.freeVariables (lt_size_of_sort? ofTerm)]
    exact same.names

theorem HasSorts.sameMeaning {operands results : List Nat} {sorts : List SmtSort}
    (sorted : table.HasSorts operands sorts)
    (same : List.Forall₂ table.SameMeaning operands results) : table.HasSorts results sorts :=
  forall₂_of_common same sorted fun _ _ _ pair hasSort => pair.sort_eq hasSort

/-- An application keeps its meaning when its operands are replaced by terms that mean the
same. -/
theorem StandsFor.sameMeaning (valid : table.Valid) {operator : Operator}
    {operands results : List Nat}
    (stands : table.StandsFor result ⟨⟨.apply operator, sort⟩, results⟩)
    (found : table.terms.nodes[term]? = some ⟨⟨.apply operator, sort⟩, operands⟩)
    (same : List.Forall₂ table.SameMeaning operands results) : table.SameMeaning term result := by
  refine ⟨⟨sort, sort?_eq_some_iff.mpr ⟨_, found, rfl⟩, stands.sort⟩,
    fun assignment respects => ?_, ?_⟩
  · have values :
        operands.map (table.value? assignment) = results.map (table.value? assignment) := by
      rw [← List.forall₂_eq_eq_eq, List.forall₂_map_left_iff, List.forall₂_map_right_iff]
      exact same.imp fun _ _ pair => (pair.value assignment respects).symm
    rw [stands.value assignment respects, valid.value?_eq found, values]
  · intro name member
    have inOperands := stands.names member
    rw [valid.freeVariables_eq found]
    simp only [TermLabel.freeVariables, List.mem_flatten, List.mem_map] at inOperands ⊢
    rcases inOperands with ⟨-, ⟨replaced, inResults, rfl⟩, member⟩
    rcases exists_of_mem_right same inResults with ⟨operand, inOperands, pair⟩
    exact ⟨_, ⟨operand, inOperands, rfl⟩, pair.names member⟩

/-- What a simplification fails with: the table that it started from has grown, and is full. -/
abbrev FillsUp (table : TermTable) (error : Error) (next : TermTable) : Prop :=
  error = .tableFull ∧ table.Grows next ∧ next.IsFull

/-- The visits of a simplification: what is kept for a node means the same as the node. -/
theorem sound_simplifyNode (table : TermTable) :
    table.terms.Sound (fun _ => True) simplifyNode (table.Grows ·)
      (fun position result state => state.SameMeaning position result) table.FillsUp where
  closed _ _ _ _ := trivial
  visit := by
    intro position node results state _ found grows same
    have stored := grows.grown.terms.nodes found
    cases grows.valid.node stored with
    | named name sort declared =>
        exact ⟨grows, SameMeaning.refl (sort?_eq_some_iff.mpr ⟨_, stored, rfl⟩), fun _ _ => id⟩
    | literal label value spelled sorted =>
        have kept : simplifyNode position label results state = .ok position state := by
          unfold TermLabel.literal? at spelled
          unfold simplifyNode
          split at spelled <;> simp_all [Action.pure_apply]
        rw [kept]
        exact ⟨grows, SameMeaning.refl (sort?_eq_some_iff.mpr ⟨_, stored, rfl⟩), fun _ _ => id⟩
    | apply operator operands sorts sort sorted rule =>
        refine Action.Ends.imp (grows.valid.builds_fold (sorted.sameMeaning same) rule) ?_ ?_
        · rintro result next ⟨growsNext, stands⟩
          refine ⟨grows.trans growsNext, ?_, fun _ _ => .mono growsNext.grown⟩
          exact stands.sameMeaning growsNext.valid (growsNext.grown.terms.nodes stored)
            (same.imp fun _ _ => .mono growsNext.grown)
        · rintro error next ⟨isFull, growsNext, full⟩
          exact ⟨isFull, grows.trans growsNext, full⟩

theorem ends_simplify_iff {made : Nat → TermTable → Prop} {failed : Error → TermTable → Prop} :
    Action.Ends made failed (simplify term table) ↔
      Action.Ends (fun outcome next => made (outcome.getD term) next) failed
        (table.terms.bottomUp simplifyNode term table) := by
  simp only [simplify, Action.bind_apply, Action.get_apply]
  cases table.terms.bottomUp simplifyNode term table <;> rfl

/-- A simplification comes to what the walk comes to, if that never misses a result. -/
theorem ends_simplify {good : Nat → TermTable → Prop} {failed : Error → TermTable → Prop}
    (walked : Action.Ends (fun outcome next => ∃ result, outcome = some result ∧ good result next)
      failed (table.terms.bottomUp simplifyNode term table)) :
    Action.Ends good failed (simplify term table) := by
  refine ends_simplify_iff.mpr (walked.imp ?_ fun _ _ => id)
  rintro outcome next ⟨result, rfl, isGood⟩
  exact isGood

/-- Simplification of a term comes to a term of the same meaning. -/
theorem Valid.builds_simplify (valid : table.Valid) (sorted : table.sort? term = some sort) :
    table.Builds (fun result next => next.SameMeaning term result) (simplify term table) :=
  ends_simplify (table.sound_simplifyNode.bottomUp valid.shared trivial (lt_size_of_sort? sorted)
    (.refl valid))

end BitTerms.TermTable
