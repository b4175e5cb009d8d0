import BitTerms.Dag

/-!
# Walking a shared tree from the bottom up

`Dag.bottomUp` visits every node below a position once, children first and from left to right,
and hands each visit the results for the children. The visits may change a state and may fail.
What is left to do is kept as a list, so that the depth of the tree does not matter.
-/

namespace BitTerms.Dag

variable {α : Type} [DecidableEq α] [Hashable α] {ε σ ρ : Type}

/-- A step of the walk: to come to a node, or to leave it with the results for its children at
hand. -/
inductive Visit where
  | enter (position : Nat)
  | leave (position : Nat)

def Visit.position : Visit → Nat
  | .enter position | .leave position => position

/-- A bound on the steps of the walk that a visit leads to. -/
def Visit.cost (dag : Dag α) : Visit → Nat
  | .enter position => dag.weight position
  | .leave _ => 1

/-- What has to be done to come to some nodes that have no results yet, one after the other. -/
def entering (results : Std.HashMap Nat ρ) (positions : List Nat) : List Visit :=
  (positions.filter (!results.contains ·)).map .enter

private theorem sum_cost_entering_le (dag : Dag α) (results : Std.HashMap Nat ρ)
    (positions : List Nat) :
    ((entering results positions).map (Visit.cost dag)).sum ≤
      (positions.map fun position => dag.weight position + 1).sum := by
  unfold entering
  induction positions with
  | nil => simp
  | cons first rest induction =>
    cases known : results.contains first <;>
      simp only [known, List.filter_cons, Bool.not_true, Bool.not_false, Bool.false_eq_true,
        if_true, if_false, List.map_cons, List.sum_cons, Visit.cost] at induction ⊢ <;>
      omega

/-- Takes the steps of a walk, given the results for the nodes left so far. A node that has its
result is passed by. The walk breaks off at a node that it would have to leave before there are
results for all its children. -/
def walk (dag : Dag α) (visit : Nat → α → List ρ → EStateM ε σ ρ) :
    List Visit → Std.HashMap Nat ρ → EStateM ε σ (Option (Std.HashMap Nat ρ))
  | [], results => pure (some results)
  | step :: rest, results =>
    if results.contains step.position then
      dag.walk visit rest results
    else
      match step with
      | .enter position =>
        dag.walk visit (entering results (dag.children position) ++ .leave position :: rest)
          results
      | .leave position =>
        match dag.label? position, (dag.children position).mapM (results[·]?) with
        | some label, some children => do
          let result ← visit position label children
          dag.walk visit rest (results.insert position result)
        | _, _ => pure none
termination_by pending => (pending.map (Visit.cost dag)).sum
decreasing_by
  · have := dag.weight_eq step.position
    cases step <;> simp only [List.map_cons, List.sum_cons, Visit.cost, Visit.position] at * <;>
      omega
  · have := sum_cost_entering_le dag results (dag.children position)
    simp only [List.map_append, List.sum_append, List.map_cons, List.sum_cons, Visit.cost,
      dag.weight_eq position]
    omega
  · simp [Visit.cost]

/-- The result for the tree at a position, from one visit to each node below it. There is none
only if the table has no such position. -/
def bottomUp (dag : Dag α) (visit : Nat → α → List ρ → EStateM ε σ ρ) (position : Nat) :
    EStateM ε σ (Option ρ) := do
  let results ← dag.walk visit [.enter position] {}
  return results.bind (·[position]?)

end BitTerms.Dag
