import BitTerms.Proofs.Session

/-!
# Widths are registered

Whatever the engine, a session keeps account of the width of every bit-vector that it made: a call
registers the sort that it asks the engine for, except for simplification, which gives a term of a
sort that was registered before.
-/

namespace BitTerms

variable {σ : Type}

/-! ## Plans -/

namespace Plan

variable {widths : Std.TreeSet Nat} {width : Width} {sort : SmtSort} {bits : Nat}
  {registered : List SmtSort}

theorem mem_register (widths : Std.TreeSet Nat) (width : Width) :
    width.bits ∈ register widths (.bits width) :=
  Std.TreeSet.mem_insert_self

theorem register_mono (known : bits ∈ widths) (sort : SmtSort) : bits ∈ register widths sort := by
  cases sort with
  | bits width => exact Std.TreeSet.mem_insert.mpr (.inr known)
  | bool | int => exact known

theorem register_of_mem (known : width.bits ∈ widths) :
    register widths (.bits width) = widths := by
  rcases widths with ⟨⟨⟨inner, balanced⟩⟩⟩
  have contained : inner.contains width.bits = true := known
  -- An insertion looks for the element first, and gives back the set that it found it in.
  simp only [register, Std.TreeSet.insert, Std.TreeMap.insertIfNew, Std.DTreeMap.insertIfNew,
    Std.DTreeMap.Internal.Impl.insertIfNew, contained]
  rfl

theorem register_eq_iff :
    register widths sort = widths ↔ ∀ width, sort = .bits width → width.bits ∈ widths := by
  cases sort with
  | bool | int => simp [register]
  | bits width =>
      constructor
      · rintro same other ⟨⟩
        rw [← same]
        exact mem_register widths width
      · exact fun known => register_of_mem (known width rfl)

theorem register_register (widths : Std.TreeSet Nat) (sort : SmtSort) :
    register (register widths sort) sort = register widths sort := by
  rw [register_eq_iff]
  rintro width rfl
  exact mem_register widths width

theorem foldl_register_mono (registered : List SmtSort) (known : bits ∈ widths) :
    bits ∈ registered.foldl register widths := by
  induction registered generalizing widths with
  | nil => exact known
  | cons sort rest induction => exact induction (register_mono known sort)

theorem mem_foldl_register (member : .bits width ∈ registered) :
    width.bits ∈ registered.foldl register widths := by
  induction registered generalizing widths with
  | nil => cases member
  | cons sort rest induction =>
      cases member with
      | head => exact foldl_register_mono rest (mem_register widths width)
      | tail _ member => exact induction member

end Plan

namespace Call

variable {call : Call} {id : Nat} {expr? : Operand → Option Expr} {request : Request}
  {sort : SmtSort} {width : Width}

theorem register_of_ask (asked : (call.plan id expr?).ending = .ask request sort)
    (notSimplify : ∀ operand, request ≠ .simplify operand) (widths : Std.TreeSet Nat) :
    (call.plan id expr?).registered.foldl Plan.register widths = Plan.register widths sort := by
  have asks := asks_of_plan asked
  generalize (call.plan id expr?).registered = registered at asks ⊢
  cases asks with
  | declare | boolLiteral | bitsLiteral | apply => rfl
  | declareBits name bits width => exact Plan.register_register widths (.bits width)
  | simplify operand expr => exact absurd rfl (notSimplify expr)

/-- A call registers the width that it asks for, or has an expression of that width simplified. -/
theorem registers (planned : (call.plan id expr?).ending = .ask request (.bits width)) :
    .bits width ∈ (call.plan id expr?).registered ∨
      ∃ operand expr, expr? operand = some expr ∧ expr.owner = id ∧ expr.sort = .bits width := by
  have asks := asks_of_plan planned
  generalize (call.plan id expr?).registered = registered at asks ⊢
  generalize asked : SmtSort.bits width = sort at asks ⊢
  cases asks with
  | boolLiteral => cases asked
  | declare | declareBits | bitsLiteral | apply => simp
  | simplify operand expr named own => exact .inr ⟨operand, expr, named, own, rfl⟩

end Call

/-! ## Sessions -/

namespace Session

/-- The width of every bit-vector that was made is kept account of. -/
def Registers (session : Session σ) : Prop :=
  ∀ expr, .made expr ∈ session.outcomes → ∀ width, expr.sort = .bits width →
    width.bits ∈ session.context.widths

variable [Engine σ]

theorem Registers.call {session : Session σ} (registers : session.Registers) (call : Call) :
    (session.call call).Registers := by
  rw [call_eq]
  intro expr member width sort
  rcases List.mem_append.mp member with earlier | last
  · exact Plan.foldl_register_mono _ (registers expr earlier width sort)
  · have same := List.mem_singleton.mp last
    cases planned : (call.plan session.context.id session.expr?).ending with
    | skip | finish | refuse => simp [planned, Ending.follow] at same
    | ask request given =>
        have isGiven : given = .bits width := by
          rw [planned] at same
          simp only [Ending.follow] at same
          cases answered : request.run given session.context.engine with
          | ok term engine =>
              rw [answered] at same
              cases same
              exact sort
          | error error engine =>
              rw [answered] at same
              cases same
        rw [isGiven] at planned
        rcases call.registers planned with registered | ⟨operand, earlier, named, own, sorted⟩
        · exact Plan.mem_foldl_register registered
        · exact Plan.foldl_register_mono _
            (registers earlier (made_of_expr? named own) width sorted)

theorem Registers.run {session : Session σ} (registers : session.Registers) (calls : List Call) :
    (session.run calls).Registers := by
  induction calls generalizing session with
  | nil => exact registers
  | cons call rest induction => exact induction (registers.call call)

theorem registers_run (id : Nat) (engine : σ) (calls : List Call) :
    ((start id engine).run calls).Registers :=
  Registers.run (by simp [Registers, start]) calls

end Session

end BitTerms
