import Mathlib.Data.List.Forall2

/-!
# Lists that agree place by place

`List.Forall₂` relates two lists of the same length place by place. A list of partial results is
complete exactly when it is so related to the list of its results.
-/

namespace BitTerms

variable {α β γ : Type}

theorem mapM_eq_some_iff {partial? : α → Option β} {inputs : List α} {results : List β} :
    inputs.mapM partial? = some results ↔
      List.Forall₂ (fun input result => partial? input = some result) inputs results := by
  induction inputs generalizing results with
  | nil =>
      rw [List.forall₂_nil_left_iff]
      exact ⟨fun same => (Option.some.inj same).symm, fun same => congrArg some same.symm⟩
  | cons first rest induction =>
      rw [List.mapM_cons, List.forall₂_cons_left_iff]
      constructor
      · intro all
        rcases Option.bind_eq_some_iff.mp all with ⟨result, found, others⟩
        rcases Option.bind_eq_some_iff.mp others with ⟨results, foundRest, same⟩
        cases same
        exact ⟨result, results, found, induction.mp foundRest, rfl⟩
      · rintro ⟨result, results, found, foundRest, rfl⟩
        rw [found, induction.mpr foundRest]
        rfl

theorem mapM_congr {partial? other? : α → Option β} {inputs : List α}
    (agree : ∀ input ∈ inputs, partial? input = other? input) :
    inputs.mapM partial? = inputs.mapM other? := by
  induction inputs with
  | nil => rfl
  | cons first rest induction =>
      rw [List.mapM_cons, List.mapM_cons, agree first List.mem_cons_self,
        induction fun input member => agree input (List.mem_cons_of_mem first member)]

/-- Two related lists have a list between them if every two related members have something
between them. -/
theorem exists_between {related : α → γ → Prop} (lower : α → β → Prop) (upper : β → γ → Prop)
    {first : List α} {last : List γ} (pairs : List.Forall₂ related first last)
    (between : ∀ left ∈ first, ∀ right, related left right →
      ∃ middle, lower left middle ∧ upper middle right) :
    ∃ middle, List.Forall₂ lower first middle ∧ List.Forall₂ upper middle last := by
  induction pairs with
  | nil => exact ⟨[], .nil, .nil⟩
  | @cons left right lefts rights here _ induction =>
      rcases between left List.mem_cons_self right here with ⟨middle, below, above⟩
      obtain ⟨others, belowRest, aboveRest⟩ := induction fun other member =>
        between other (List.mem_cons_of_mem left member)
      exact ⟨middle :: others, .cons below belowRest, .cons above aboveRest⟩

theorem exists_forall₂ {related : α → β → Prop} {members : List α}
    (each : ∀ member ∈ members, ∃ partner, related member partner) :
    ∃ partners, List.Forall₂ related members partners := by
  have same : List.Forall₂ (· = ·) members members := List.forall₂_eq_eq_eq ▸ rfl
  rcases exists_between related (fun _ _ => True) same
      fun member inside _ _ => (each member inside).imp fun _ found => ⟨found, trivial⟩ with
    ⟨partners, pairs, -⟩
  exact ⟨partners, pairs⟩

theorem exists_of_mem_left {related : α → β → Prop} {lefts : List α} {rights : List β}
    (pairs : List.Forall₂ related lefts rights) {left : α} (member : left ∈ lefts) :
    ∃ right ∈ rights, related left right := by
  rcases List.mem_iff_getElem.mp member with ⟨i, inside, rfl⟩
  have insideToo : i < rights.length := pairs.length_eq ▸ inside
  exact ⟨rights[i], List.getElem_mem insideToo, pairs.get inside insideToo⟩

theorem exists_of_mem_right {related : α → β → Prop} {lefts : List α} {rights : List β}
    (pairs : List.Forall₂ related lefts rights) {right : β} (member : right ∈ rights) :
    ∃ left ∈ lefts, related left right := by
  rcases List.mem_iff_getElem.mp member with ⟨i, inside, rfl⟩
  have insideToo : i < lefts.length := pairs.length_eq ▸ inside
  exact ⟨lefts[i], List.getElem_mem insideToo, pairs.get insideToo inside⟩

theorem imp_of_mem {first second : α → β → Prop} {lefts : List α} {rights : List β}
    (pairs : List.Forall₂ first lefts rights)
    (imp : ∀ left ∈ lefts, ∀ right, first left right → second left right) :
    List.Forall₂ second lefts rights := by
  induction pairs with
  | nil => exact .nil
  | @cons left right lefts rights here _ induction =>
      refine .cons (imp left List.mem_cons_self right here) (induction fun other member => ?_)
      exact imp other (List.mem_cons_of_mem left member)

theorem eq_of_map_eq {compute : α → β} {lefts rights : List α}
    (same : lefts.map compute = rights.map compute)
    (injective : ∀ left ∈ lefts, ∀ right ∈ rights, compute left = compute right → left = right) :
    lefts = rights := by
  have lengths : lefts.length = rights.length := by simpa using congrArg List.length same
  refine List.ext_getElem lengths fun i insideLeft insideRight => ?_
  refine injective _ (List.getElem_mem insideLeft) _ (List.getElem_mem insideRight) ?_
  simpa [insideLeft, insideRight] using congrArg (·[i]?) same

/-! ## Short lists -/

theorem exists_one {related : α → β → Prop} {lefts : List α} {right : β}
    (pairs : List.Forall₂ related lefts [right]) : ∃ left, lefts = [left] ∧ related left right := by
  rcases List.forall₂_cons_right_iff.mp pairs with ⟨left, rest, here, none, rfl⟩
  cases none
  exact ⟨left, rfl, here⟩

theorem exists_two {related : α → β → Prop} {lefts : List α} {first second : β}
    (pairs : List.Forall₂ related lefts [first, second]) :
    ∃ left right, lefts = [left, right] ∧ related left first ∧ related right second := by
  rcases List.forall₂_cons_right_iff.mp pairs with ⟨left, rest, here, others, rfl⟩
  rcases exists_one others with ⟨right, rfl, there⟩
  exact ⟨left, right, rfl, here, there⟩

theorem exists_three {related : α → β → Prop} {lefts : List α} {first second third : β}
    (pairs : List.Forall₂ related lefts [first, second, third]) :
    ∃ left middle right, lefts = [left, middle, right] ∧
      related left first ∧ related middle second ∧ related right third := by
  rcases List.forall₂_cons_right_iff.mp pairs with ⟨left, rest, here, others, rfl⟩
  rcases exists_two others with ⟨middle, right, rfl, there, last⟩
  exact ⟨left, middle, right, rfl, here, there, last⟩

/-! ## Joining pairs -/

theorem forall₂_of_common {first : α → β → Prop} {second : α → γ → Prop} {joint : β → γ → Prop}
    {members : List α} {lefts : List β} {rights : List γ}
    (onLeft : List.Forall₂ first members lefts) (onRight : List.Forall₂ second members rights)
    (join : ∀ member left right, first member left → second member right → joint left right) :
    List.Forall₂ joint lefts rights := by
  induction onLeft generalizing rights with
  | nil =>
      cases onRight
      exact .nil
  | cons here _ induction =>
      cases onRight with
      | cons hereToo others => exact .cons (join _ _ _ here hereToo) (induction others)

/-! ## Optional results -/

theorem rel_getElem? {related : α → β → Prop} {lefts : List α} {rights : List β}
    (pairs : List.Forall₂ related lefts rights) (index : Nat) :
    Option.Rel related lefts[index]? rights[index]? := by
  induction pairs generalizing index with
  | nil => exact .none
  | cons here _ induction =>
      cases index with
      | zero => exact .some here
      | succ index => exact induction index

theorem rel_mapM {related : β → γ → Prop} {left? : α → Option β} {right? : α → Option γ}
    (inputs : List α) (each : ∀ input ∈ inputs, Option.Rel related (left? input) (right? input)) :
    Option.Rel (List.Forall₂ related) (inputs.mapM left?) (inputs.mapM right?) := by
  induction inputs with
  | nil => exact .some .nil
  | cons first rest induction =>
      have others := induction fun input member => each input (List.mem_cons_of_mem first member)
      have here := each first List.mem_cons_self
      rw [List.mapM_cons, List.mapM_cons]
      generalize left? first = left, rest.mapM left? = lefts at here others ⊢
      generalize right? first = right, rest.mapM right? = rights at here others ⊢
      cases here with
      | none => exact .none
      | some here =>
          cases others with
          | none => exact .none
          | some there => exact .some (.cons here there)

end BitTerms
