import BitTerms.Proofs.TermTable.Folding
import BitTerms.Proofs.TermTable.Sessions

/-!
# Simplification is a recursion

Terms are simplified by a walk that keeps a list of what is left to do, in the table that the walk
adds to. It comes to the same term in the same table as the recursion that one would write down:
leaves stay, and an application is folded when its operands are simplified. So what a term is
simplified to is determined by its tree, whatever else the table holds.
-/

namespace BitTerms.TermTable

variable {table : TermTable} {term : Nat}

/-- Simplifies a term after its operands, from left to right. What was simplified already is not
simplified again. -/
def simplifyByRecursion (term : Nat) : Action TermTable Nat := do
  let table ← get
  (table.terms.recurse simplifyNode term).run' {}

/-- The walk does not break off, and it does what the recursion does, also where the table runs
full. -/
theorem Valid.walks_as_recursion (valid : table.Valid) (inside : term < table.terms.size) :
    (∃ result next, table.terms.bottomUp simplifyNode term table = .ok (some result) next ∧
      simplify term table = .ok result next ∧
      simplifyByRecursion term table = .ok result next) ∨
    ∃ next, table.terms.bottomUp simplifyNode term table = .error .tableFull next ∧
      simplify term table = .error .tableFull next ∧
      simplifyByRecursion term table = .error .tableFull next ∧ next.IsFull := by
  have recursed : table.terms.bottomUp simplifyNode term table =
      (some <$> simplifyByRecursion term) table := by
    rw [valid.shared.bottomUp_eq inside, Action.map_apply, Action.map_apply, simplifyByRecursion,
      Action.bind_apply, Action.get_apply]
  have ends := table.sound_simplifyNode.bottomUp valid.shared trivial inside (.refl valid)
  rw [recursed, Action.ends_map] at ends
  simp only [simplify, Action.bind_apply, Action.get_apply, recursed, Action.map_apply]
  cases ran : simplifyByRecursion term table with
  | ok result next => exact .inl ⟨result, next, rfl, rfl, rfl⟩
  | error error next =>
      rw [ran] at ends
      rcases ends with ⟨rfl, -, full⟩
      exact .inr ⟨next, rfl, rfl, rfl, full⟩

/-- In every state that a session reaches, the walk of a simplification ends without missing a
result, in the term and the table that the recursion ends in, or where the recursion finds the table
full. In any two sessions, expressions of one tree are simplified to expressions of one tree, which
have the same text and the same value. -/
theorem simplification_is_recursion (id : Nat) (folding : Bool) (calls : List Call) :
    let context := ((Session.start id ({ folding } : TermTable)).run calls).context
    let table := context.engine
    (∀ term, term < table.terms.size →
      (∃ result next, table.terms.bottomUp simplifyNode term table = .ok (some result) next ∧
        simplify term table = .ok result next ∧
        simplifyByRecursion term table = .ok result next) ∨
      ∃ next, table.terms.bottomUp simplifyNode term table = .error .tableFull next ∧
        simplify term table = .error .tableFull next ∧
        simplifyByRecursion term table = .error .tableFull next ∧ next.IsFull) ∧
    ∀ (otherId : Nat) (otherFolding : Bool) (otherCalls : List Call) (expr other : Expr)
      (tree : Tree TermLabel),
      let otherContext :=
        ((Session.start otherId ({ folding := otherFolding } : TermTable)).run otherCalls).context
      expr.owner = id → other.owner = otherId →
      table.terms.tree? expr.term = some tree →
      otherContext.engine.terms.tree? other.term = some tree →
        Action.Ends
          (fun result next => Action.Ends
            (fun otherResult otherNext =>
              next.engine.terms.tree? result.term = some tree.simplify ∧
              otherNext.engine.terms.tree? otherResult.term = some tree.simplify ∧
              next.text result = otherNext.text otherResult ∧
              next.literal? result = otherNext.literal? otherResult)
            RunsFull (Context.simplify other otherContext))
          RunsFull (Context.simplify expr context) := by
  intro context table
  have valid : table.Valid := valid_run id folding calls
  refine ⟨fun term inside => valid.walks_as_recursion inside, ?_⟩
  intro otherId otherFolding otherCalls expr other tree otherContext own otherOwn is isToo
  have sameId : context.id = id := Session.id_run _ calls
  have otherSameId : otherContext.id = otherId := Session.id_run _ otherCalls
  refine Action.Ends.imp (valid.ends_simplify_expr (own.trans sameId.symm) is) ?_
    fun _ _ full => full
  rintro result next ⟨-, grows, -, becomes⟩
  refine Action.Ends.imp ((valid_run otherId otherFolding otherCalls).ends_simplify_expr
    (otherOwn.trans otherSameId.symm) isToo) ?_ fun _ _ full => full
  rintro otherResult otherNext ⟨-, otherGrows, -, otherBecomes⟩
  refine ⟨becomes, otherBecomes, ?_, ?_⟩
  · exact text_eq_of_tree? grows.valid otherGrows.valid becomes otherBecomes
  · exact (grows.valid.literal?_tree becomes).trans
      (otherGrows.valid.literal?_tree otherBecomes).symm

/-- The same negation in a session that made another constant before. -/
theorem simplification_is_recursion_negation :
    let context := ((Session.start 0 ({} : TermTable)).run notTrueCalls).context
    let otherContext := ((Session.start 1 ({} : TermTable)).run
      [.boolLiteral false, .boolLiteral true, .apply .not [.made 1]]).context
    let tree : Tree TermLabel := .node ⟨.apply .not, .bool⟩ [.node ⟨.bool true, .bool⟩ []]
    1 < context.engine.terms.size ∧
      context.engine.terms.tree? 1 = some tree ∧ otherContext.engine.terms.tree? 2 = some tree ∧
      (∃ result next, simplify 1 context.engine = .ok result next ∧
        simplifyByRecursion 1 context.engine = .ok result next) ∧
      ∃ result next otherResult otherNext,
        Context.simplify ⟨0, .bool, 1⟩ context = .ok result next ∧
        Context.simplify ⟨1, .bool, 2⟩ otherContext = .ok otherResult otherNext ∧
        next.text result = otherNext.text otherResult ∧
        next.literal? result = otherNext.literal? otherResult := by
  intro context otherContext tree
  have node (terms : Dag TermLabel) (operand : Nat) {term : Nat} (valid : terms.WellFormed)
      (leaf : terms.nodes[operand]? = some ⟨⟨.bool true, .bool⟩, []⟩)
      (found : terms.nodes[term]? = some ⟨⟨.apply .not, .bool⟩, [operand]⟩) :
      terms.tree? term = some tree :=
    valid.tree?_of_children found (.cons (valid.tree?_of_children leaf .nil) .nil)
  have typed : Operator.not.resultSort [.bool] = .ok .bool := rfl
  have otherNodes : otherContext.engine.terms.nodes =
      #[⟨⟨.bool false, .bool⟩, []⟩, ⟨⟨.bool true, .bool⟩, []⟩,
        ⟨⟨.apply .not, .bool⟩, [1]⟩] := by
    simp [otherContext, Session.run, Session.start, Session.call_eq, Call.plan, Session.follow,
      Ending.follow, Request.run, Engine.boolLiteral, Engine.apply, boolLiteral, intern_apply,
      hasRoom, wordLimit, Dag.size, Dag.intern, apply, Action.bind_apply, Action.get_apply,
      Session.expr?, typed]
  have is : context.engine.terms.tree? 1 = some tree :=
    node _ 0 (valid_run 0 false _).shared (by rw [nodes_notTrueCalls]; rfl)
      (by rw [nodes_notTrueCalls]; rfl)
  have isToo : otherContext.engine.terms.tree? 2 = some tree :=
    node _ 1 (valid_run 1 false _).shared (by rw [otherNodes]; rfl) (by rw [otherNodes]; rfl)
  have inside : 1 < context.engine.terms.size := (valid_run 0 false _).shared.lt_size_of_tree? is
  have room : 2 * context.engine.terms.size < wordLimit := by
    rw [Dag.size, nodes_notTrueCalls]
    decide
  have otherRoom : 2 * otherContext.engine.terms.size < wordLimit := by
    rw [Dag.size, otherNodes]
    decide
  rcases simplification_is_recursion 0 false notTrueCalls with ⟨recursion, together⟩
  rcases exists_simplify_run 0 false notTrueCalls ⟨0, .bool, 1⟩ rfl inside room with
    ⟨expr, exprNext, ofExpr⟩
  rcases exists_simplify_run 1 false [.boolLiteral false, .boolLiteral true, .apply .not [.made 1]]
      ⟨1, .bool, 2⟩ rfl ((valid_run 1 false _).shared.lt_size_of_tree? isToo) otherRoom with
    ⟨other, otherNext, ofOther⟩
  have ends := together 1 false [.boolLiteral false, .boolLiteral true, .apply .not [.made 1]]
    ⟨0, .bool, 1⟩ ⟨1, .bool, 2⟩ tree rfl rfl is isToo
  rcases (ends.of_ok ofExpr).of_ok ofOther with ⟨-, -, texts, literals⟩
  refine ⟨inside, is, isToo, ?_, expr, exprNext, other, otherNext, ofExpr, ofOther, texts, literals⟩
  rcases recursion 1 inside with ⟨result, next, -, simplified, recursed⟩ | ⟨next, -, failed, -, -⟩
  · exact ⟨result, next, simplified, recursed⟩
  · rcases (valid_run 0 false notTrueCalls).exists_simplify inside room with
      ⟨result, next, simplified⟩
    cases failed.symm.trans simplified

end BitTerms.TermTable
