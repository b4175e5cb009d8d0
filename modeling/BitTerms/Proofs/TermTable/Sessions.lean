import BitTerms.Proofs.TermTable.Room

/-!
# Sessions over a term table

Every session over a term table, folding or not, keeps the table valid. So what holds of valid
tables holds in every state that a session reaches; in particular every term can be simplified
there, to a term of the same meaning.
-/

namespace BitTerms.TermTable

/-- Every session leads to a valid table. -/
theorem valid_run (id : Nat) (folding : Bool) (calls : List Call) :
    ((Session.start id ({ folding } : TermTable)).run calls).context.engine.Valid :=
  (holds_run id folding calls).engine.valid

/-- The one way in which a typed step can fail: there is no room for one more term. -/
abbrev RunsFull (error : Error) (context : Context TermTable) : Prop :=
  error = .tableFull ∧ context.engine.IsFull

/-- In a table that is not half full there is room for any simplification. -/
theorem exists_simplify_run (id : Nat) (folding : Bool) (calls : List Call) (expr : Expr)
    (own : expr.owner = id) :
    let context := ((Session.start id ({ folding } : TermTable)).run calls).context
    expr.term < context.engine.terms.size → 2 * context.engine.terms.size < wordLimit →
      ∃ result next, Context.simplify expr context = .ok result next := by
  intro context inside room
  have sameId : context.id = id :=
    Session.id_run (Session.start id ({ folding } : TermTable)) calls
  rcases (valid_run id folding calls).exists_simplify inside room with ⟨term, table, simplified⟩
  have succeeds : Action.Ends (fun _ _ => True) (fun _ _ => False)
      (Context.simplify expr context) := by
    refine (Context.ends_simplify_iff (own.trans sameId.symm)).mpr ?_
    change Action.Ends _ _ (simplify expr.term context.engine)
    rw [simplified]
    trivial
  cases outcome : Context.simplify expr context with
  | ok result next => exact ⟨result, next, rfl⟩
  | error error next =>
      rw [outcome] at succeeds
      exact succeeds.elim

/-- In every state that a session reaches, every term can be simplified, unless the table runs full
on the way, which it does not do if it was not half full. The result has the term's sort, its value
under every assignment that respects the sorts of the variables, and no variable that the term does
not have. -/
theorem simplify_keeps_meaning (id : Nat) (folding : Bool) (calls : List Call) (expr : Expr)
    (own : expr.owner = id)
    (sorted : ((Session.start id ({ folding } : TermTable)).run calls).context.engine.sort?
      expr.term = some expr.sort) :
    let context := ((Session.start id ({ folding } : TermTable)).run calls).context
    Action.Ends
      (fun result next => result.owner = id ∧ result.sort = expr.sort ∧
        next.engine.sort? result.term = some expr.sort ∧
        next.engine.freeVariables result.term ⊆ context.engine.freeVariables expr.term ∧
        ∀ assignment, context.engine.Respects assignment →
          ∃ value, value.HasSort expr.sort ∧
            context.engine.value? assignment expr.term = some value ∧
            next.engine.value? assignment result.term = some value)
      RunsFull (Context.simplify expr context) ∧
    (2 * context.engine.terms.size < wordLimit →
      ∃ result next, Context.simplify expr context = .ok result next) := by
  intro context
  have sameId : context.id = id :=
    Session.id_run (Session.start id ({ folding } : TermTable)) calls
  have isOwn : expr.owner = context.id := own.trans sameId.symm
  have valid : context.engine.Valid := valid_run id folding calls
  have inside : expr.term < context.engine.terms.size := lt_size_of_sort? sorted
  refine ⟨(Context.ends_simplify_iff isOwn).mpr ?_,
    exists_simplify_run id folding calls expr own inside⟩
  refine Action.Ends.imp (valid.builds_simplify sorted) ?_ fun _ _ ends => ⟨ends.1, ends.2.2⟩
  rintro result next ⟨grows, same⟩
  refine ⟨sameId, rfl, same.sort_eq (grows.grown.sort? sorted), ?_, fun assignment respects => ?_⟩
  · rw [← grows.grown.freeVariables inside]
    exact same.names
  · rcases valid.exists_value respects sorted with ⟨value, found, hasSort⟩
    refine ⟨value, hasSort, found, ?_⟩
    rw [← found, ← grows.grown.value? inside]
    exact same.value assignment (grows.respects.mpr respects)

theorem simplify_keeps_meaning_choice :
    let context := ((Session.start 0 ({} : TermTable)).run
      [.boolLiteral true, .declareBits "x" 8, .declareBits "y" 8,
        .apply .ite [.made 0, .made 1, .made 2]]).context
    let assignment : Assignment := fun name => .bits 8 name.length
    context.engine.sort? 3 = some (.bits .byte) ∧ context.engine.Respects assignment ∧
      ∃ result next value, Context.simplify ⟨0, .bits .byte, 3⟩ context = .ok result next ∧
        context.engine.value? assignment 3 = some value ∧
        next.engine.value? assignment result.term = some value := by
  intro context assignment
  have eight : Width.ofNat 8 = .ok .byte := rfl
  have spellableX : Symbol.isSpellable "x" = true := by decide +kernel
  have spellableY : Symbol.isSpellable "y" = true := by decide +kernel
  have reached : context.engine.sort? 3 = some (.bits .byte) ∧ context.engine.terms.size = 4 ∧
      context.engine.sorts =
        (({} : Std.HashMap String SmtSort).insert "x" (.bits .byte)).insert "y" (.bits .byte) := by
    simp [context, Session.run, Session.start, Session.call_eq, Call.plan, Plan.ofWidth, eight,
      Session.follow, Ending.follow, Request.run, Engine.declare, Engine.boolLiteral,
      Engine.apply, boolLiteral, declare_of_spellable, spellableX, spellableY,
      record_of_undeclared, intern_apply, hasRoom, wordLimit, Dag.size, Dag.intern, apply,
      Action.bind_apply, Action.get_apply, Session.expr?, sort?, Dag.label?, Operator.resultSort]
  rcases reached with ⟨sorted, size, sorts⟩
  have respects : context.engine.Respects assignment := by
    intro name sort declared
    rw [sorts] at declared
    simp only [Std.HashMap.getElem?_insert, Std.HashMap.getElem?_empty] at declared
    have isByte : (name = "x" ∨ name = "y") ∧ sort = .bits .byte := by
      grind
    rcases isByte with ⟨rfl | rfl, rfl⟩ <;> decide +kernel
  rcases simplify_keeps_meaning 0 false _ ⟨0, .bits .byte, 3⟩ rfl sorted with ⟨ends, succeeds⟩
  have room : 2 * context.engine.terms.size < wordLimit := by
    rw [size]
    decide
  rcases succeeds room with ⟨result, next, simplified⟩
  rcases ends.of_ok simplified with ⟨-, -, -, -, values⟩
  rcases values assignment respects with ⟨value, -, before, after⟩
  exact ⟨sorted, respects, result, next, value, simplified, before, after⟩

end BitTerms.TermTable
