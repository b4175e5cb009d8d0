import Mathlib.Data.Finset.Card
import Mathlib.Data.Finset.Range
import BitTerms.Proofs.Dag.Recursion

/-!
# Rules for walks from the bottom up

If every visit keeps an invariant of the state and makes a good result from good results for the
children, then a walk over a well-formed table that does not fail ends with a good result for its
root. It is enough to know this of the visits to a part of the table that has the children of its
nodes. And if every visit adds at most one to a measure of the state, then the walk adds at most as
much as there are positions up to its root. The rules are shown for the recursion, whose steps the
walk takes.
-/

namespace BitTerms.Dag

open BitTerms.Action

variable {α : Type} [DecidableEq α] [Hashable α] {ε σ ρ : Type}

/-! ## Good results -/

/-- What the first rule asks of the visits to a part of the table. A result that was good once stays
good. -/
structure Sound (dag : Dag α) (part : Nat → Prop) (visit : Nat → α → List ρ → EStateM ε σ ρ)
    (Inv : σ → Prop) (Good : Nat → ρ → σ → Prop) (Failed : ε → σ → Prop) : Prop where
  closed : ∀ {position : Nat} {node : Node α}, part position →
    dag.nodes[position]? = some node → ∀ child ∈ node.children, part child
  visit : ∀ {position : Nat} {node : Node α} {results : List ρ} {state : σ}, part position →
    dag.nodes[position]? = some node → Inv state →
    List.Forall₂ (fun child result => Good child result state) node.children results →
    Ends
      (fun result next => Inv next ∧ Good position result next ∧
        ∀ earlier found, Good earlier found state → Good earlier found next)
      Failed (visit position node.label results state)

def AllGood (Good : Nat → ρ → σ → Prop) (results : Std.HashMap Nat ρ) (state : σ) : Prop :=
  ∀ position result, results[position]? = some result → Good position result state

theorem AllGood.insert {Good : Nat → ρ → σ → Prop} {results : Std.HashMap Nat ρ} {state : σ}
    (good : AllGood Good results state) {position : Nat} {result : ρ}
    (goodResult : Good position result state) :
    AllGood Good (results.insert position result) state := by
  intro other value present
  rw [Std.HashMap.getElem?_insert] at present
  split at present
  case isTrue equal =>
      cases present
      rw [← eq_of_beq equal]
      exact goodResult
  case isFalse => exact good other value present

variable [Inhabited ρ] {dag : Dag α} {part : Nat → Prop} {visit : Nat → α → List ρ → EStateM ε σ ρ}
  {Inv : σ → Prop} {Good : Nat → ρ → σ → Prop} {Failed : ε → σ → Prop}

/-- The recursion ends with a good result for the position, and remembers good results only, unless
a visit fails. -/
def Reaches (dag : Dag α) (visit : Nat → α → List ρ → EStateM ε σ ρ) (Inv : σ → Prop)
    (Good : Nat → ρ → σ → Prop) (Failed : ε → σ → Prop) (position : Nat) : Prop :=
  ∀ {results : Std.HashMap Nat ρ} {state : σ}, Inv state → AllGood Good results state →
    Ends
      (fun outcome next => Inv next ∧ Good position outcome.1 next ∧ AllGood Good outcome.2 next ∧
        ∀ earlier found, Good earlier found state → Good earlier found next)
      Failed ((dag.recurse visit position).run results state)

theorem Reaches.mapM {children : List Nat}
    (each : ∀ child ∈ children, dag.Reaches visit Inv Good Failed child)
    {results : Std.HashMap Nat ρ} {state : σ} (inv : Inv state)
    (good : AllGood Good results state) :
    Ends
      (fun outcome next => Inv next ∧
        List.Forall₂ (fun child result => Good child result next) children outcome.1 ∧
        AllGood Good outcome.2 next ∧
        ∀ earlier found, Good earlier found state → Good earlier found next)
      Failed ((children.mapM (dag.recurse visit)).run results state) := by
  induction children generalizing results state with
  | nil => exact ⟨inv, .nil, good, fun _ _ => id⟩
  | cons first rest induction =>
      rw [run_recurse_cons, ends_bind]
      refine (each first List.mem_cons_self inv good).imp ?_ fun _ _ => id
      rintro outcome middle ⟨invMiddle, goodFirst, goodMiddle, later⟩
      rw [ends_bind]
      refine (induction (fun child member => each child (List.mem_cons_of_mem first member))
        invMiddle goodMiddle).imp ?_ fun _ _ => id
      rintro others next ⟨invNext, goodRest, goodNext, last⟩
      exact ⟨invNext, .cons (last first outcome.1 goodFirst) goodRest, goodNext,
        fun earlier found isGood => last earlier found (later earlier found isGood)⟩

theorem Sound.reaches (sound : dag.Sound part visit Inv Good Failed) (valid : dag.WellFormed)
    {position : Nat} (isPart : part position) (inside : position < dag.size) :
    dag.Reaches visit Inv Good Failed position := by
  induction position using Nat.strongRecOn with
  | ind position induction =>
      intro results state inv good
      have found : dag.nodes[position]? = some dag.nodes[position] :=
        Array.getElem?_eq_getElem inside
      have below := valid.child_lt found
      have arePart := sound.closed isPart found
      cases known : results[position]? with
      | some result =>
          rw [recurse_of_some known]
          exact ⟨inv, good position result known, good, fun _ _ => id⟩
      | none =>
          rw [valid.recurse_of_none known found, ends_bind]
          refine (Reaches.mapM (fun child member => induction child (below child member)
            (arePart child member) (Nat.lt_trans (below child member) inside)) inv good).imp ?_
            fun _ _ => id
          rintro outcome middle ⟨invMiddle, goodChildren, goodMiddle, later⟩
          rw [ends_bind]
          refine (sound.visit isPart found invMiddle goodChildren).imp ?_ fun _ _ => id
          rintro result next ⟨invNext, goodResult, last⟩
          have goodNext : AllGood Good outcome.2 next :=
            fun other value present => last other value (goodMiddle other value present)
          exact ⟨invNext, goodResult, goodNext.insert goodResult,
            fun earlier found isGood => last earlier found (later earlier found isGood)⟩

/-- A walk that does not fail comes to a good result: it never misses one. -/
theorem Sound.bottomUp (sound : dag.Sound part visit Inv Good Failed) (valid : dag.WellFormed)
    {position : Nat} (isPart : part position) (inside : position < dag.size) {state : σ}
    (inv : Inv state) :
    Ends
      (fun outcome next => ∃ result, outcome = some result ∧ Inv next ∧
        Good position result next)
      Failed (dag.bottomUp visit position state) := by
  have nothing : AllGood Good ({} : Std.HashMap Nat ρ) state := by simp [AllGood]
  rw [valid.bottomUp_eq inside, ends_map, StateT.run'_eq, ends_map]
  refine (sound.reaches valid isPart inside inv nothing).imp ?_ fun _ _ => id
  rintro outcome next ⟨invNext, good, -, -⟩
  exact ⟨outcome.1, rfl, invNext, good⟩

/-! ## How much a walk adds -/

/-- How many results for positions below the bound are still to come. -/
def pending (results : Std.HashMap Nat ρ) (bound : Nat) : Nat :=
  ((Finset.range bound).filter (· ∉ results)).card

omit [Inhabited ρ] in
theorem pending_le (results : Std.HashMap Nat ρ) (bound : Nat) : pending results bound ≤ bound :=
  (Finset.card_filter_le _ _).trans_eq (Finset.card_range bound)

omit [Inhabited ρ] in
theorem pending_insert_lt {results : Std.HashMap Nat ρ} {position bound : Nat}
    (below : position < bound) (unknown : position ∉ results) (result : ρ) :
    pending (results.insert position result) bound < pending results bound := by
  have fewer : (Finset.range bound).filter (· ∉ results.insert position result) ⊆
      (Finset.range bound).filter (· ∉ results) :=
    Finset.monotone_filter_right _ fun other _ absent =>
      mt (fun present => Std.HashMap.mem_insert.mpr (.inr present)) absent
  refine Finset.card_lt_card ((Finset.ssubset_iff_of_subset fewer).mpr ⟨position, ?_, ?_⟩)
  · exact Finset.mem_filter.mpr ⟨Finset.mem_range.mpr below, unknown⟩
  · exact fun member => (Finset.mem_filter.mp member).2 Std.HashMap.mem_insert_self

/-- Whatever the recursion adds to a measure of the state, that many results have come. -/
def Adds (dag : Dag α) (visit : Nat → α → List ρ → EStateM ε σ ρ) (measure : σ → Nat)
    (bound position : Nat) : Prop :=
  ∀ (results : Std.HashMap Nat ρ) (state : σ),
    Ends
      (fun outcome next =>
        measure next + pending outcome.2 bound ≤ measure state + pending results bound)
      (fun _ next => measure next ≤ measure state + pending results bound)
      ((dag.recurse visit position).run results state)

variable {measure : σ → Nat} {bound : Nat}

theorem Adds.mapM {children : List Nat}
    (each : ∀ child ∈ children, dag.Adds visit measure bound child)
    (results : Std.HashMap Nat ρ) (state : σ) :
    Ends
      (fun outcome next =>
        measure next + pending outcome.2 bound ≤ measure state + pending results bound)
      (fun _ next => measure next ≤ measure state + pending results bound)
      ((children.mapM (dag.recurse visit)).run results state) := by
  induction children generalizing results state with
  | nil => exact Nat.le_refl _
  | cons first rest induction =>
      rw [run_recurse_cons, ends_bind]
      refine (each first List.mem_cons_self results state).imp (fun outcome middle here => ?_)
        fun _ _ => id
      rw [ends_bind]
      exact (induction (fun child member => each child (List.mem_cons_of_mem first member))
        outcome.2 middle).imp (fun _ _ => (Nat.le_trans · here)) fun _ _ => (Nat.le_trans · here)

theorem WellFormed.adds (valid : dag.WellFormed)
    (adds : ∀ position label results state, Ends (fun _ next => measure next ≤ measure state + 1)
      (fun _ next => measure next ≤ measure state + 1) (visit position label results state))
    {position : Nat} (inside : position < dag.size) (below : position < bound) :
    dag.Adds visit measure bound position := by
  induction position using Nat.strongRecOn with
  | ind position induction =>
      intro results state
      have found : dag.nodes[position]? = some dag.nodes[position] :=
        Array.getElem?_eq_getElem inside
      have earlier := valid.child_lt found
      cases known : results[position]? with
      | some result =>
          rw [recurse_of_some known]
          exact Nat.le_refl _
      | none =>
          have children := Adds.mapM (fun child member => induction child (earlier child member)
            (Nat.lt_trans (earlier child member) inside)
            (Nat.lt_trans (earlier child member) below)) results state
          rw [valid.recurse_of_none known found, ends_bind]
          cases ran : (dag.nodes[position].children.mapM (dag.recurse visit)).run results state with
          | error error next =>
              rw [ran] at children
              exact children
          | ok outcome middle =>
              rw [ran] at children
              have records := Records.mapM (fun child member =>
                valid.records (Nat.lt_trans (earlier child member) inside)) earlier ran
              have unknown : position ∉ outcome.2 := records.2.not_mem (by simpa using known)
              have fewer (result : ρ) := pending_insert_lt below unknown result
              rw [ends_ok, ends_bind]
              refine (adds position dag.nodes[position].label outcome.1 middle).imp
                (fun result next le => ?_) fun _ next le => ?_
              · change measure next + pending (outcome.2.insert position result) bound ≤ _
                have := fewer result
                have : measure middle + pending outcome.2 bound ≤ _ := children
                omega
              · have := fewer default
                have : measure middle + pending outcome.2 bound ≤ _ := children
                omega

/-- A walk adds at most one for every position up to its root. -/
theorem WellFormed.bottomUp_adds (valid : dag.WellFormed)
    (adds : ∀ position label results state, Ends (fun _ next => measure next ≤ measure state + 1)
      (fun _ next => measure next ≤ measure state + 1) (visit position label results state))
    {position : Nat} (inside : position < dag.size) (state : σ) :
    Ends (fun _ next => measure next ≤ measure state + (position + 1))
      (fun _ next => measure next ≤ measure state + (position + 1))
      (dag.bottomUp visit position state) := by
  have bounded := pending_le ({} : Std.HashMap Nat ρ) (position + 1)
  rw [valid.bottomUp_eq inside, ends_map, StateT.run'_eq, ends_map]
  refine (valid.adds adds inside (Nat.lt_succ_self position) {} state).imp
    (fun _ _ le => ?_) fun _ _ le => Nat.le_trans le (Nat.add_le_add_left bounded _)
  exact Nat.le_trans (Nat.le_of_add_right_le le) (Nat.add_le_add_left bounded _)

end BitTerms.Dag
