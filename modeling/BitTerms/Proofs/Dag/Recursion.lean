import BitTerms.Dag.BottomUp
import BitTerms.Proofs.Action
import BitTerms.Proofs.Dag.Sharing
import BitTerms.Proofs.Pointwise

/-!
# The walk is the recursion

`Dag.recurse` computes the result for a tree in the plain way: first the results for the children,
from left to right, then the visit, and what has a result is not visited again. `Dag.bottomUp`
makes the same visits in the same order, so it has the same outcome and leaves the same state. In a
well-formed table it never comes to leave a node whose children have no results yet.
-/

namespace BitTerms.Dag

variable {α : Type} [DecidableEq α] [Hashable α] {ε σ ρ : Type}

/-- The result for the tree at a position, given the results for nodes that were met before. -/
def recurse [Inhabited ρ] (dag : Dag α) (visit : Nat → α → List ρ → EStateM ε σ ρ)
    (position : Nat) : StateT (Std.HashMap Nat ρ) (EStateM ε σ) ρ := do
  match (← get)[position]? with
  | some result => return result
  | none =>
    match dag.label? position with
    | some label =>
      let children ← (dag.children position).attach.mapM fun ⟨child, _⟩ =>
        dag.recurse visit child
      let result ← visit position label children
      modify (·.insert position result)
      return result
    | none => return default
termination_by position
decreasing_by exact lt_of_mem_children ‹_›

variable {dag : Dag α} {visit : Nat → α → List ρ → EStateM ε σ ρ} {position bound : Nat}
  {known results later last : Std.HashMap Nat ρ}

/-! ## The steps of the walk -/

section Steps

variable {rest : List Visit}

theorem walk_of_mem {step : Visit} (present : step.position ∈ results) :
    dag.walk visit (step :: rest) results = dag.walk visit rest results := by
  rw [walk.eq_def]
  exact if_pos (Std.HashMap.contains_iff_mem.mpr present)

theorem walk_enter (unknown : position ∉ results) :
    dag.walk visit (.enter position :: rest) results =
      dag.walk visit (entering results (dag.children position) ++ .leave position :: rest)
        results := by
  rw [walk.eq_def]
  exact if_neg (mt Std.HashMap.contains_iff_mem.mp unknown)

theorem walk_leave (unknown : position ∉ results) {label : α} {found : List ρ}
    (labelled : dag.label? position = some label)
    (stored : (dag.children position).mapM (results[·]?) = some found) :
    dag.walk visit (.leave position :: rest) results =
      visit position label found >>= fun result =>
        dag.walk visit rest (results.insert position result) := by
  rw [walk.eq_def]
  refine (if_neg (mt Std.HashMap.contains_iff_mem.mp unknown)).trans ?_
  dsimp only
  rw [labelled, stored]

end Steps

/-! ## What is remembered -/

/-- The later results are the earlier ones and others for positions below the bound. -/
structure Remembers (earlier later : Std.HashMap Nat ρ) (bound : Nat) : Prop where
  kept : ∀ {position : Nat} {result : ρ},
    earlier[position]? = some result → later[position]? = some result
  below : ∀ {position : Nat}, position ∈ later → position ∈ earlier ∨ position < bound

namespace Remembers

theorem refl (results : Std.HashMap Nat ρ) (bound : Nat) : Remembers results results bound :=
  ⟨id, .inl⟩

theorem trans (first : Remembers results later bound) (second : Remembers later last bound) :
    Remembers results last bound :=
  ⟨second.kept ∘ first.kept, fun member => (second.below member).elim first.below .inr⟩

theorem mono {wider : Nat} (remembers : Remembers results later bound) (le : bound ≤ wider) :
    Remembers results later wider :=
  ⟨remembers.kept, fun member => (remembers.below member).imp_right (Nat.lt_of_lt_of_le · le)⟩

theorem mem (remembers : Remembers results later bound) (present : position ∈ results) :
    position ∈ later := by
  have found := remembers.kept (Std.HashMap.getElem?_eq_some_getElem present)
  exact Std.HashMap.mem_iff_isSome_getElem?.mpr (Option.isSome_iff_exists.mpr ⟨_, found⟩)

theorem not_mem (remembers : Remembers results later position) (unknown : position ∉ results) :
    position ∉ later := fun member =>
  (remembers.below member).elim unknown (Nat.lt_irrefl position)

theorem insert (remembers : Remembers results later position) (unknown : position ∉ results)
    (result : ρ) : Remembers results (later.insert position result) (position + 1) := by
  constructor
  · intro other value found
    have different : position ≠ other := by
      rintro rfl
      rw [Std.HashMap.getElem?_eq_none unknown] at found
      cases found
    rw [Std.HashMap.getElem?_insert, if_neg (by simpa using different)]
    exact remembers.kept found
  · intro other member
    rcases Std.HashMap.mem_insert.mp member with equal | member
    · exact .inr (Nat.lt_succ_of_le (Nat.le_of_eq (eq_of_beq equal).symm))
    · exact (remembers.mono (Nat.le_succ position)).below member

end Remembers

variable [Inhabited ρ]

/-! ## The recursion, part by part -/

theorem recurse_of_some {result : ρ} (present : results[position]? = some result) :
    (dag.recurse visit position).run results = pure (result, results) := by
  rw [recurse, StateT.run_bind, StateT.run_get, pure_bind, present, StateT.run_pure]

theorem WellFormed.recurse_of_none (valid : dag.WellFormed) {node : Node α}
    (unknown : results[position]? = none) (found : dag.nodes[position]? = some node) :
    (dag.recurse visit position).run results =
      (node.children.mapM (dag.recurse visit)).run results >>= fun outcome =>
        visit position node.label outcome.1 >>= fun result =>
          pure (result, outcome.2.insert position result) := by
  have plain : (dag.children position).attach.mapM (fun ⟨child, _⟩ => dag.recurse visit child) =
      node.children.mapM (dag.recurse visit) := by
    rw [List.mapM_subtype fun _ _ => rfl, List.unattach_attach, valid.children_eq found]
  rw [recurse, StateT.run_bind, StateT.run_get, pure_bind, unknown, label?_eq found]
  dsimp only
  rw [plain]
  simp only [StateT.run_bind, StateT.run_monadLift, StateT.run_modify, StateT.run_pure,
    bind_assoc, pure_bind]
  rfl

theorem run_recurse_cons (first : Nat) (rest : List Nat) :
    ((first :: rest).mapM (dag.recurse visit)).run results =
      (dag.recurse visit first).run results >>= fun outcome =>
        (rest.mapM (dag.recurse visit)).run outcome.2 >>= fun others =>
          pure (outcome.1 :: others.1, others.2) := by
  rw [List.mapM_cons]
  simp only [StateT.run_bind, StateT.run_pure]

/-- When the recursion comes back from a position, its result is remembered, and otherwise only
results for positions before. -/
def Records (dag : Dag α) (visit : Nat → α → List ρ → EStateM ε σ ρ) (position : Nat) : Prop :=
  ∀ {results : Std.HashMap Nat ρ} {outcome : ρ × Std.HashMap Nat ρ} {state next : σ},
    (dag.recurse visit position).run results state = .ok outcome next →
      outcome.2[position]? = some outcome.1 ∧ Remembers results outcome.2 (position + 1)

theorem Records.mapM {children : List Nat} (each : ∀ child ∈ children, dag.Records visit child)
    (below : ∀ child ∈ children, child < bound) {outcome : List ρ × Std.HashMap Nat ρ}
    {state next : σ}
    (ran : (children.mapM (dag.recurse visit)).run results state = .ok outcome next) :
    children.mapM (outcome.2[·]?) = some outcome.1 ∧ Remembers results outcome.2 bound := by
  induction children generalizing results outcome state with
  | nil =>
      cases ran
      exact ⟨rfl, .refl _ _⟩
  | cons first rest induction =>
      rw [run_recurse_cons] at ran
      rcases Action.bind_eq_ok_iff.mp ran with ⟨here, middle, ranFirst, ran⟩
      rcases Action.bind_eq_ok_iff.mp ran with ⟨others, last, ranRest, done⟩
      cases done
      rcases each first List.mem_cons_self ranFirst with ⟨isResult, remembers⟩
      rcases induction (fun child member => each child (List.mem_cons_of_mem first member))
        (fun child member => below child (List.mem_cons_of_mem first member)) ranRest with
        ⟨areResults, remembersRest⟩
      refine ⟨?_, (remembers.mono (below first List.mem_cons_self)).trans remembersRest⟩
      rw [List.mapM_cons, remembersRest.kept isResult, areResults]
      rfl

theorem WellFormed.records (valid : dag.WellFormed) (inside : position < dag.size) :
    dag.Records visit position := by
  induction position using Nat.strongRecOn with
  | ind position induction =>
      intro results outcome state next ran
      have found : dag.nodes[position]? = some dag.nodes[position] :=
        Array.getElem?_eq_getElem inside
      have below := valid.child_lt found
      cases known : results[position]? with
      | some present =>
          rw [recurse_of_some known] at ran
          cases ran
          exact ⟨known, .refl _ _⟩
      | none =>
          rw [valid.recurse_of_none known found] at ran
          rcases Action.bind_eq_ok_iff.mp ran with ⟨children, middle, ranChildren, ran⟩
          rcases Action.bind_eq_ok_iff.mp ran with ⟨result, last, -, done⟩
          cases done
          have unknown : position ∉ results := by simpa using known
          rcases Records.mapM (fun child member => induction child (below child member)
            (Nat.lt_trans (below child member) inside)) below ranChildren with ⟨-, remembers⟩
          exact ⟨Std.HashMap.getElem?_insert_self, remembers.insert unknown _⟩

/-! ## The walk takes the steps of the recursion -/

/-- Coming to a node is taking the recursion's steps for it, whatever is left to do behind it. -/
def Follows (dag : Dag α) (visit : Nat → α → List ρ → EStateM ε σ ρ) (position : Nat) : Prop :=
  ∀ (rest : List Visit) (results : Std.HashMap Nat ρ),
    dag.walk visit (.enter position :: rest) results =
      (dag.recurse visit position).run results >>= fun outcome =>
        dag.walk visit rest outcome.2

/-- Children that had a result when their parent was entered are passed by. The recursion comes to
them, and finds the result. -/
theorem Follows.entering {children : List Nat} {rest : List Visit}
    (follows : ∀ child ∈ children, dag.Follows visit child)
    (records : ∀ child ∈ children, dag.Records visit child)
    (grown : ∀ position ∈ known, position ∈ results) :
    dag.walk visit (entering known children ++ rest) results =
      (children.mapM (dag.recurse visit)).run results >>= fun outcome =>
        dag.walk visit rest outcome.2 := by
  induction children generalizing results with
  | nil =>
      rw [List.mapM_nil, StateT.run_pure, pure_bind]
      rfl
  | cons first others induction =>
      have inRest {results : Std.HashMap Nat ρ} := @induction results
        (fun child member => follows child (List.mem_cons_of_mem first member))
        (fun child member => records child (List.mem_cons_of_mem first member))
      rw [run_recurse_cons]
      by_cases passed : first ∈ known
      · have skipped : entering known (first :: others) = Dag.entering known others := by
          simp [Dag.entering, passed]
        have present := Std.HashMap.getElem?_eq_some_getElem (grown first passed)
        rw [skipped, recurse_of_some present, inRest grown]
        simp only [pure_bind, bind_assoc]
      · have entered : Dag.entering known (first :: others) ++ rest =
            .enter first :: (Dag.entering known others ++ rest) := by
          simp [Dag.entering, passed]
        rw [entered, follows first List.mem_cons_self, bind_assoc]
        funext state
        refine Action.bind_congr fun outcome next ran => ?_
        have remembers := (records first List.mem_cons_self ran).2
        rw [inRest fun position member => remembers.mem (grown position member)]
        simp only [pure_bind, bind_assoc]

theorem WellFormed.follows (valid : dag.WellFormed) (inside : position < dag.size) :
    dag.Follows visit position := by
  induction position using Nat.strongRecOn with
  | ind position induction =>
      intro rest results
      have found : dag.nodes[position]? = some dag.nodes[position] :=
        Array.getElem?_eq_getElem inside
      have below := valid.child_lt found
      have records : ∀ child ∈ dag.nodes[position].children, dag.Records visit child :=
        fun child member => valid.records (Nat.lt_trans (below child member) inside)
      have follows : ∀ child ∈ dag.nodes[position].children, dag.Follows visit child :=
        fun child member =>
          induction child (below child member) (Nat.lt_trans (below child member) inside)
      cases known : results[position]? with
      | some present =>
          have member : position ∈ results :=
            Std.HashMap.mem_iff_isSome_getElem?.mpr (Option.isSome_iff_exists.mpr ⟨_, known⟩)
          rw [walk_of_mem member, recurse_of_some known, pure_bind]
      | none =>
          have unknown : position ∉ results := by simpa using known
          rw [walk_enter unknown, valid.children_eq found, Follows.entering follows records
            fun _ => id, valid.recurse_of_none known found, bind_assoc]
          funext state
          refine Action.bind_congr fun outcome next ran => ?_
          rcases Records.mapM records below ran with ⟨stored, remembers⟩
          rw [← valid.children_eq found] at stored
          rw [walk_leave (remembers.not_mem unknown) (label?_eq found) stored]
          simp only [pure_bind, bind_assoc]

/-- The walk comes to what the recursion comes to when nothing is remembered yet: to the same
result or error, in the same state. -/
theorem WellFormed.bottomUp_eq (valid : dag.WellFormed) (inside : position < dag.size) :
    dag.bottomUp visit position = some <$> (dag.recurse visit position).run' {} := by
  have recursed : some <$> (dag.recurse visit position).run' {} =
      (dag.recurse visit position).run {} >>= fun outcome => pure (some outcome.1) := by
    rw [StateT.run'_eq, map_eq_pure_bind, map_eq_pure_bind]
    simp only [bind_assoc, pure_bind]
  rw [bottomUp, valid.follows inside, recursed, bind_assoc]
  funext state
  refine Action.bind_congr fun outcome next ran => ?_
  have isResult := (valid.records inside ran).1
  rw [walk, pure_bind, Option.bind_some, isResult]

end BitTerms.Dag
