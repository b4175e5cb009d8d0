import BitTerms.Proofs.Repertoire
import Mathlib.Data.List.Induction

/-!
# Several contexts at once

Moves are made in the contexts of a workspace in any order, and what one context made can be handed
to another. A context that is handed an expression of another one refuses it before it does
anything else. So nothing that happens elsewhere reaches a context: it is left as if its own moves
had been the only ones, and whatever is read off it is the same.
-/

namespace BitTerms

variable {σ ι τ : Type}

/-! ## Moves -/

/-- A step of the context under a position. -/
structure Move (ι : Type) where
  place : Nat
  step : ι

/-- A workspace with what came of the moves made so far, in whichever context. -/
structure Assembly (σ : Type) where
  workspace : Workspace σ
  outcomes : List Outcome := []

namespace Assembly

def start (engines : List σ) : Assembly σ := { workspace := .ofEngines engines }

/-- A move can be handed what any earlier move made. -/
def expr? (assembly : Assembly σ) : Operand → Option Expr
  | .made move =>
    match assembly.outcomes[move]? with
    | some (.made expr) => some expr
    | _ => none
  | .foreign sort term => some { owner := assembly.workspace.contexts.size, sort, term }

def perform [Inhabited σ] (assembly : Assembly σ) (place : Nat)
    (action : Action (Context σ) Outcome) : Assembly σ :=
  match Workspace.onContext place action assembly.workspace with
  | .ok outcome workspace => ⟨workspace, assembly.outcomes ++ [outcome]⟩
  | .error error workspace => ⟨workspace, assembly.outcomes ++ [.failed error]⟩

theorem expr?_made_iff {assembly : Assembly σ} {move : Nat} {expr : Expr} :
    assembly.expr? (.made move) = some expr ↔ assembly.outcomes[move]? = some (.made expr) :=
  Session.made_at_iff

end Assembly

namespace Repertoire

def move [Inhabited σ] (repertoire : Repertoire σ ι) (assembly : Assembly σ) (move : Move ι) :
    Assembly σ :=
  assembly.perform move.place (repertoire.action assembly.expr? move.step)

/-- Moves made one after the other in new contexts. -/
def run [Inhabited σ] (repertoire : Repertoire σ ι) (engines : List σ) (moves : List (Move ι)) :
    Assembly σ :=
  moves.foldl repertoire.move (.start engines)

/-- A move of another context is not made. It only takes its number, so that later moves name the
same results as before. -/
def moveAlone (repertoire : Repertoire σ ι) (session : Session σ) (move : Move ι) : Session σ :=
  session.perform <|
    if move.place = session.context.id then
      repertoire.action session.expr? move.step
    else
      pure .skipped

/-- The moves of one context alone. -/
def alone (repertoire : Repertoire σ ι) (id : Nat) (engine : σ) (moves : List (Move ι)) :
    Session σ :=
  moves.foldl repertoire.moveAlone (.start id engine)

end Repertoire

/-! ### One move -/

namespace Assembly

variable [Inhabited σ] {assembly : Assembly σ} {place : Nat} {context : Context σ}

theorem perform_of_found (found : assembly.workspace.contexts[place]? = some context)
    (action : Action (Context σ) Outcome) :
    assembly.perform place action =
      ⟨⟨assembly.workspace.contexts.setIfInBounds place (context.settle action).1⟩,
        assembly.outcomes ++ [(context.settle action).2]⟩ := by
  rcases Array.getElem?_eq_some_iff.mp found with ⟨inRange, rfl⟩
  unfold perform Workspace.onContext Context.settle
  simp only [dif_pos inRange, Array.swapAt]
  cases action assembly.workspace.contexts[place] <;> simp [Array.setIfInBounds_def, inRange]

theorem perform_of_missing (missing : assembly.workspace.contexts[place]? = none)
    (action : Action (Context σ) Outcome) :
    assembly.perform place action =
      ⟨assembly.workspace, assembly.outcomes ++ [.failed .unknownContext]⟩ := by
  have outside : ¬ place < assembly.workspace.contexts.size := by
    simpa using missing
  unfold perform Workspace.onContext
  simp only [dif_neg outside]

/-- An action that leaves its context as it is leaves the workspace as it is. -/
theorem perform_of_kept (found : assembly.workspace.contexts[place]? = some context)
    {action : Action (Context σ) Outcome} {outcome : Outcome}
    (kept : context.settle action = (context, outcome)) :
    assembly.perform place action = ⟨assembly.workspace, assembly.outcomes ++ [outcome]⟩ := by
  rw [perform_of_found found, kept]
  rcases Array.getElem?_eq_some_iff.mp found with ⟨inRange, rfl⟩
  rw [Array.setIfInBounds_def, dif_pos inRange, Array.set_getElem_self]

end Assembly

/-! ### Contexts under their positions -/

namespace Assembly

/-- There is a number of contexts, each under its own position. -/
structure Arranged (count : Nat) (assembly : Assembly σ) : Prop where
  size : assembly.workspace.contexts.size = count
  id : ∀ {place : Nat} {context : Context σ},
    assembly.workspace.contexts[place]? = some context → context.id = place

theorem start_found {engines : List σ} {place : Nat} {engine : σ}
    (given : engines[place]? = some engine) :
    (start engines).workspace.contexts[place]? = some { id := place, engine } := by
  simp [start, Workspace.ofEngines, given]

theorem arranged_start (engines : List σ) : (start engines).Arranged engines.length := by
  refine ⟨by simp [start, Workspace.ofEngines], fun {place context} found => ?_⟩
  simp only [start, Workspace.ofEngines, List.getElem?_toArray, List.getElem?_mapIdx,
    Option.map_eq_some_iff] at found
  rcases found with ⟨engine, -, rfl⟩
  rfl

theorem Arranged.exists_context {count : Nat} {assembly : Assembly σ}
    (arranged : assembly.Arranged count) {place : Nat} (inRange : place < count) :
    ∃ context, assembly.workspace.contexts[place]? = some context ∧ context.id = place := by
  have inside : place < assembly.workspace.contexts.size := arranged.size ▸ inRange
  have found := Array.getElem?_eq_getElem inside
  exact ⟨_, found, arranged.id found⟩

theorem Arranged.move [Inhabited σ] {count : Nat} {assembly : Assembly σ}
    (arranged : assembly.Arranged count) (repertoire : Repertoire σ ι) (move : Move ι) :
    (repertoire.move assembly move).Arranged count := by
  unfold Repertoire.move
  cases found : assembly.workspace.contexts[move.place]? with
  | none =>
      rw [perform_of_missing found]
      exact ⟨arranged.size, arranged.id⟩
  | some context =>
      rw [perform_of_found found]
      have kept := repertoire.keeps context assembly.expr? move.step
      refine ⟨by simpa using arranged.size, fun {place other} here => ?_⟩
      rw [Array.getElem?_setIfInBounds] at here
      split at here
      case isFalse elsewhere => exact arranged.id here
      case isTrue same =>
          split at here
          case isFalse => cases here
          case isTrue =>
              cases here
              rw [kept.1, ← same]
              exact arranged.id found

end Assembly

/-! ### One context and the others -/

/-- A session that is one context of the whole: it has what its moves made there, and nothing of
what was made elsewhere. -/
structure Reflects (assembly : Assembly σ) (session : Session σ) : Prop where
  context : assembly.workspace.contexts[session.context.id]? = some session.context
  count : session.outcomes.length = assembly.outcomes.length
  made : ∀ (move : Nat) (expr : Expr), session.outcomes[move]? = some (.made expr) ↔
    assembly.outcomes[move]? = some (.made expr) ∧ expr.owner = session.context.id

namespace Reflects

variable {assembly : Assembly σ} {session : Session σ} {operand : Operand}
  {operands : List Operand} {expr : Expr}

theorem named_alike (reflects : Reflects assembly session)
    (own : expr.owner = session.context.id) :
    session.expr? operand = some expr ↔ assembly.expr? operand = some expr := by
  cases operand with
  | made move => simp [Assembly.expr?_made_iff, Session.expr?_made_iff, reflects.made, own]
  | foreign sort term =>
      rcases Array.getElem?_eq_some_iff.mp reflects.context with ⟨inRange, -⟩
      have elsewhere : session.expr? (.foreign sort term) ≠ some expr := by
        rintro ⟨⟩
        simp at own
      have beyond : assembly.expr? (.foreign sort term) ≠ some expr := by
        rintro ⟨⟩
        exact absurd own (Nat.ne_of_gt inRange)
      exact iff_of_false elsewhere beyond

theorem own_iff (reflects : Reflects assembly session) :
    Own session.context.id session.expr? operands ↔
      Own session.context.id assembly.expr? operands := by
  refine forall₂_congr fun operand _ => exists_congr fun expr => and_congr_left fun own => ?_
  exact reflects.named_alike own

theorem agree_of_own (reflects : Reflects assembly session)
    (own : Own session.context.id assembly.expr? operands) :
    ∀ operand ∈ operands, session.expr? operand = assembly.expr? operand := by
  intro operand member
  rcases own operand member with ⟨expr, found, owned⟩
  exact ((reflects.named_alike owned).mpr found).trans found.symm

/-- Both record what came of a move, and the session records an expression exactly where the whole
records one of its own. -/
theorem extend (reflects : Reflects assembly session) {workspace : Workspace σ}
    {context : Context σ} {whole alone : Outcome} (id : context.id = session.context.id)
    (found : workspace.contexts[context.id]? = some context)
    (made : ∀ expr, alone = .made expr ↔ whole = .made expr ∧ expr.owner = context.id) :
    Reflects ⟨workspace, assembly.outcomes ++ [whole]⟩ ⟨context, session.outcomes ++ [alone]⟩ where
  context := found
  count := by simp [reflects.count]
  made := by
    intro move expr
    rcases Nat.lt_trichotomy move assembly.outcomes.length with earlier | rfl | later
    · have earlierToo : move < session.outcomes.length := reflects.count ▸ earlier
      rw [List.getElem?_append_left earlier, List.getElem?_append_left earlierToo, id]
      exact reflects.made move expr
    · have last : (session.outcomes ++ [alone])[assembly.outcomes.length]? = some alone :=
        reflects.count ▸ List.getElem?_concat_length
      rw [last, List.getElem?_concat_length]
      simpa using made expr
    · have laterToo : session.outcomes.length < move := reflects.count ▸ later
      rw [List.getElem?_eq_none (by simp; omega), List.getElem?_eq_none (by simp; omega)]
      simp

/-- A move of another context passes the session by. -/
theorem elsewhere [Inhabited σ] (reflects : Reflects assembly session) {count : Nat}
    (arranged : assembly.Arranged count) (repertoire : Repertoire σ ι) {move : Move ι}
    (apart : move.place ≠ session.context.id) :
    Reflects (repertoire.move assembly move) (repertoire.moveAlone session move) := by
  have skipped : repertoire.moveAlone session move =
      ⟨session.context, session.outcomes ++ [.skipped]⟩ := by
    unfold Repertoire.moveAlone
    rw [if_neg apart, Session.perform_eq, Context.settle_pure]
  rw [skipped, Repertoire.move]
  cases found : assembly.workspace.contexts[move.place]? with
  | none =>
      rw [Assembly.perform_of_missing found]
      exact reflects.extend rfl reflects.context (by simp)
  | some context =>
      rw [Assembly.perform_of_found found]
      have kept := repertoire.keeps context assembly.expr? move.step
      refine reflects.extend rfl ?_ fun expr => iff_of_false (by simp) ?_
      · rw [Array.getElem?_setIfInBounds_ne apart]
        exact reflects.context
      · rintro ⟨made, owned⟩
        have owner := (kept.2 expr made).trans (arranged.id found)
        exact apart (owner.symm.trans owned)

theorem found (reflects : Reflects assembly session) {move : Move ι}
    (same : move.place = session.context.id) :
    assembly.workspace.contexts[move.place]? = some session.context :=
  same ▸ reflects.context

theorem moveAlone_of_same (repertoire : Repertoire σ ι) {move : Move ι}
    (same : move.place = session.context.id) :
    repertoire.moveAlone session move =
      session.perform (repertoire.action session.expr? move.step) := by
  unfold Repertoire.moveAlone
  rw [if_pos same]

/-- A move that is given expressions of its own context only is the same move in the whole. -/
theorem moves_alike [Inhabited σ] (reflects : Reflects assembly session)
    (repertoire : Repertoire σ ι) {move : Move ι} (same : move.place = session.context.id)
    (own : Own session.context.id assembly.expr? (repertoire.operands move.step)) :
    let result := session.context.settle (repertoire.action assembly.expr? move.step)
    repertoire.move assembly move =
        ⟨⟨assembly.workspace.contexts.setIfInBounds move.place result.1⟩,
          assembly.outcomes ++ [result.2]⟩ ∧
      repertoire.moveAlone session move = ⟨result.1, session.outcomes ++ [result.2]⟩ := by
  refine ⟨Assembly.perform_of_found (reflects.found same) _, ?_⟩
  rw [moveAlone_of_same repertoire same, Session.perform_eq,
    repertoire.reads _ _ _ (reflects.agree_of_own own)]

/-- A move that is given anything else changes nothing, neither alone nor in the whole. -/
theorem moves_idle [Inhabited σ] (reflects : Reflects assembly session)
    (repertoire : Repertoire σ ι) {move : Move ι} (same : move.place = session.context.id)
    (notOwn : ¬ Own session.context.id assembly.expr? (repertoire.operands move.step)) :
    ∃ whole alone : Outcome, (∀ expr, whole ≠ .made expr) ∧ (∀ expr, alone ≠ .made expr) ∧
      repertoire.move assembly move = ⟨assembly.workspace, assembly.outcomes ++ [whole]⟩ ∧
      repertoire.moveAlone session move = ⟨session.context, session.outcomes ++ [alone]⟩ := by
  have idle (expr? : Operand → Option Expr)
      (foreign : ¬ Own session.context.id expr? (repertoire.operands move.step)) :
      ∃ outcome : Outcome, (∀ expr, outcome ≠ .made expr) ∧
        session.context.settle (repertoire.action expr? move.step) =
          (session.context, outcome) := by
    by_cases named : Named expr? (repertoire.operands move.step)
    · exact ⟨_, by simp, repertoire.refuses _ _ _ named foreign⟩
    · exact ⟨_, by simp, repertoire.skips _ _ _ named⟩
  rcases idle assembly.expr? notOwn with ⟨whole, wholeMade, wholeKept⟩
  rcases idle session.expr? (mt reflects.own_iff.mp notOwn) with ⟨alone, aloneMade, aloneKept⟩
  refine ⟨whole, alone, wholeMade, aloneMade,
    Assembly.perform_of_kept (reflects.found same) wholeKept, ?_⟩
  rw [moveAlone_of_same repertoire same, Session.perform_eq, aloneKept]

theorem here [Inhabited σ] (reflects : Reflects assembly session) (repertoire : Repertoire σ ι)
    {move : Move ι} (same : move.place = session.context.id) :
    Reflects (repertoire.move assembly move) (repertoire.moveAlone session move) := by
  by_cases own : Own session.context.id assembly.expr? (repertoire.operands move.step)
  case pos =>
      rcases reflects.moves_alike repertoire same own with ⟨whole, alone⟩
      have kept := repertoire.keeps session.context assembly.expr? move.step
      rw [whole, alone]
      refine reflects.extend kept.1 ?_ fun expr => ?_
      · rw [kept.1, same, Array.getElem?_setIfInBounds_self]
        exact if_pos (Array.getElem?_eq_some_iff.mp reflects.context).1
      · exact ⟨fun made => ⟨made, (kept.2 expr made).trans kept.1.symm⟩, And.left⟩
  case neg =>
      rcases reflects.moves_idle repertoire same own with
        ⟨whole, alone, wholeMade, aloneMade, moved, movedAlone⟩
      rw [moved, movedAlone]
      exact reflects.extend rfl reflects.context (by simp [wholeMade, aloneMade])

theorem move [Inhabited σ] (reflects : Reflects assembly session) {count : Nat}
    (arranged : assembly.Arranged count) (repertoire : Repertoire σ ι) (move : Move ι) :
    Reflects (repertoire.move assembly move) (repertoire.moveAlone session move) := by
  by_cases same : move.place = session.context.id
  · exact reflects.here repertoire same
  · exact reflects.elsewhere arranged repertoire same

theorem start {engines : List σ} {id : Nat} {engine : σ} (given : engines[id]? = some engine) :
    Reflects (Assembly.start engines) (Session.start id engine) where
  context := Assembly.start_found given
  count := rfl
  made := by simp [Assembly.start, Session.start]

end Reflects

/-! ### Runs -/

namespace Repertoire

theorem id_moveAlone (repertoire : Repertoire σ ι) (session : Session σ) (move : Move ι) :
    (repertoire.moveAlone session move).context.id = session.context.id := by
  unfold moveAlone
  split
  case isTrue =>
      rw [Session.perform_eq]
      exact (repertoire.keeps _ _ _).1
  case isFalse => rfl

variable (repertoire : Repertoire σ ι)

theorem alone_append (id : Nat) (engine : σ) (moves : List (Move ι)) (last : Move ι) :
    repertoire.alone id engine (moves ++ [last]) =
      repertoire.moveAlone (repertoire.alone id engine moves) last := by
  simp [alone]

theorem id_alone (id : Nat) (engine : σ) (moves : List (Move ι)) :
    (repertoire.alone id engine moves).context.id = id := by
  induction moves using List.reverseRecOn with
  | nil => rfl
  | append_singleton moves last induction =>
      rw [alone_append, id_moveAlone]
      exact induction

variable [Inhabited σ]

theorem run_append (engines : List σ) (moves : List (Move ι)) (last : Move ι) :
    repertoire.run engines (moves ++ [last]) =
      repertoire.move (repertoire.run engines moves) last := by
  simp [run]

theorem arranged_run (engines : List σ) (moves : List (Move ι)) :
    (repertoire.run engines moves).Arranged engines.length := by
  induction moves using List.reverseRecOn with
  | nil => exact Assembly.arranged_start engines
  | append_singleton moves last induction =>
      rw [run_append]
      exact induction.move repertoire last

theorem reflects_run {engines : List σ} {id : Nat} {engine : σ}
    (given : engines[id]? = some engine) (moves : List (Move ι)) :
    Reflects (repertoire.run engines moves) (repertoire.alone id engine moves) := by
  induction moves using List.reverseRecOn with
  | nil => exact .start given
  | append_singleton moves last induction =>
      rw [run_append, alone_append]
      exact induction.move (repertoire.arranged_run engines moves) repertoire last

end Repertoire

/-! ### What is recorded stays -/

section Records

variable {outcomes : τ → List Outcome} {act : τ → Move ι → τ}

theorem exists_outcomes
    (records : ∀ state move, ∃ outcome, outcomes (act state move) = outcomes state ++ [outcome])
    (moves : List (Move ι)) (state : τ) :
    ∃ more, more.length = moves.length ∧
      outcomes (moves.foldl act state) = outcomes state ++ more := by
  induction moves generalizing state with
  | nil => exact ⟨[], rfl, (List.append_nil _).symm⟩
  | cons move rest induction =>
      rcases records state move with ⟨outcome, recorded⟩
      rcases induction (act state move) with ⟨more, length, recordedRest⟩
      refine ⟨outcome :: more, congrArg (· + 1) length, ?_⟩
      rw [List.foldl_cons, recordedRest, recorded, List.append_assoc, List.singleton_append]

/-- What came of a move is found under its number ever after. -/
theorem outcome_at
    (records : ∀ state move, ∃ outcome, outcomes (act state move) = outcomes state ++ [outcome])
    {start : τ} (fresh : outcomes start = []) {moves : List (Move ι)} {position : Nat}
    {move : Move ι} (made : moves[position]? = some move) {outcome : Outcome}
    (recorded : outcomes (act ((moves.take position).foldl act start) move) =
      outcomes ((moves.take position).foldl act start) ++ [outcome]) :
    (outcomes (moves.foldl act start))[position]? = some outcome := by
  rcases List.getElem?_eq_some_iff.mp made with ⟨inRange, rfl⟩
  obtain ⟨before, length, recordedBefore⟩ :=
    exists_outcomes records (moves.take position) start
  obtain ⟨after, -, recordedAfter⟩ := exists_outcomes records (moves.drop (position + 1))
    (act ((moves.take position).foldl act start) moves[position])
  have parts : moves.foldl act start = (moves.drop (position + 1)).foldl act
      (act ((moves.take position).foldl act start) moves[position]) := by
    rw [← List.foldl_cons, ← List.drop_eq_getElem_cons inRange, ← List.foldl_append,
      List.take_append_drop]
  have numbered : before.length = position := by
    rw [length, List.length_take]
    omega
  rw [parts, recordedAfter, recorded, recordedBefore, fresh]
  simp [← numbered]

end Records

namespace Repertoire

theorem exists_outcome_moveAlone (repertoire : Repertoire σ ι) (session : Session σ)
    (move : Move ι) :
    ∃ outcome, (repertoire.moveAlone session move).outcomes = session.outcomes ++ [outcome] := by
  unfold moveAlone
  exact ⟨_, by rw [Session.perform_eq]⟩

variable [Inhabited σ]

theorem exists_outcome_move (repertoire : Repertoire σ ι) (assembly : Assembly σ)
    (move : Move ι) :
    ∃ outcome, (repertoire.move assembly move).outcomes = assembly.outcomes ++ [outcome] := by
  unfold Repertoire.move
  cases found : assembly.workspace.contexts[move.place]? with
  | none => exact ⟨_, by rw [Assembly.perform_of_missing found]⟩
  | some context => exact ⟨_, by rw [Assembly.perform_of_found found]⟩

/-! ## Isolation -/

/-- Contexts do not reach each other, whichever moves are made in them and in whichever order. -/
structure Isolates (repertoire : Repertoire σ ι) : Prop where
  /-- A move that is handed an expression of another context fails, whatever the sorts are, and
  leaves every context as it is. -/
  refuses : ∀ (engines : List σ) (moves : List (Move ι)) (move : Move ι),
    move.place < engines.length →
      let before := repertoire.run engines moves
      let operands := repertoire.operands move.step
      Named before.expr? operands →
        (∃ operand ∈ operands, ∃ expr, before.expr? operand = some expr ∧
          expr.owner ≠ move.place) →
        repertoire.run engines (moves ++ [move]) =
          ⟨before.workspace, before.outcomes ++ [.failed .foreignExpression]⟩
  /-- A context is left as its own moves alone leave it. -/
  context : ∀ (engines : List σ) (moves : List (Move ι)) (id : Nat) (engine : σ),
    engines[id]? = some engine →
      (repertoire.run engines moves).workspace.contexts[id]? =
        some (repertoire.alone id engine moves).context
  /-- What comes of a move that is handed expressions of its own context only is what comes of it
  when only the moves of that context are made. -/
  outcome : ∀ (engines : List σ) (moves : List (Move ι)) (position : Nat) (move : Move ι)
      (engine : σ),
    engines[move.place]? = some engine → moves[position]? = some move →
      Own move.place (repertoire.run engines (moves.take position)).expr?
          (repertoire.operands move.step) →
        ∃ outcome,
          (repertoire.run engines moves).outcomes[position]? = some outcome ∧
          (repertoire.alone move.place engine moves).outcomes[position]? = some outcome

theorem isolates (repertoire : Repertoire σ ι) : repertoire.Isolates where
  refuses := by
    intro engines moves move inRange before operands named foreign
    rcases (repertoire.arranged_run engines moves).exists_context inRange with
      ⟨context, found, id⟩
    have notOwn : ¬ Own context.id before.expr? operands := by
      rcases foreign with ⟨operand, member, expr, names, elsewhere⟩
      intro own
      rcases own operand member with ⟨other, namesToo, owner⟩
      cases names.symm.trans namesToo
      exact elsewhere (owner.trans id)
    rw [run_append, Repertoire.move]
    exact Assembly.perform_of_kept found (repertoire.refuses context _ _ named notOwn)
  context := by
    intro engines moves id engine given
    have context := (repertoire.reflects_run given moves).context
    rw [repertoire.id_alone id engine moves] at context
    exact context
  outcome := by
    intro engines moves position move engine given made own
    have reflects := repertoire.reflects_run given (moves.take position)
    have id := repertoire.id_alone move.place engine (moves.take position)
    rcases reflects.moves_alike repertoire id.symm (id.symm ▸ own) with ⟨whole, alone⟩
    exact ⟨_,
      outcome_at repertoire.exists_outcome_move rfl made (congrArg Assembly.outcomes whole),
      outcome_at repertoire.exists_outcome_moveAlone rfl made (congrArg Session.outcomes alone)⟩

end Repertoire

/-- Contexts over any engine are isolated at every call, and contexts with a solver at every
turn. -/
theorem contexts_isolated [Engine σ] [Inhabited σ] :
    (Repertoire.calls : Repertoire σ Call).Isolates ∧ Repertoire.turns.Isolates :=
  ⟨Repertoire.calls.isolates, Repertoire.turns.isolates⟩

/-- The literals of two tables are the same term of the same sort, and are not joined all the
same. Nor does a solver hear of another one's literal. -/
theorem contexts_isolated_of_truths :
    let tables : List TermTable := [{}, {}]
    let truths : List (Move Call) := [⟨0, .boolLiteral true⟩, ⟨1, .boolLiteral true⟩]
    let joined : Move Call := ⟨0, .apply (.connective .and) [.made 0, .made 1]⟩
    let whole := Repertoire.calls.run tables truths
    let solvers : List Solver := [{}, {}]
    let built : List (Move Turn) := [⟨0, .build (.boolLiteral true)⟩]
    let asserted : Move Turn := ⟨1, .assert (.made 0)⟩
    whole.outcomes = [.made ⟨0, .bool, 0⟩, .made ⟨1, .bool, 0⟩] ∧
      Repertoire.calls.run tables (truths ++ [joined]) =
        ⟨whole.workspace, whole.outcomes ++ [.failed .foreignExpression]⟩ ∧
      whole.workspace.contexts[1]? =
        some (Repertoire.calls.alone 1 ({} : TermTable) truths).context ∧
      (∃ outcome, whole.outcomes[1]? = some outcome ∧
        (Repertoire.calls.alone 1 ({} : TermTable) truths).outcomes[1]? = some outcome) ∧
      Repertoire.turns.run solvers (built ++ [asserted]) =
        ⟨(Repertoire.turns.run solvers built).workspace,
          [.made ⟨0, .bool, 0⟩, .failed .foreignExpression]⟩ := by
  intro tables truths joined whole solvers built asserted
  have truthsMade : whole.outcomes = [.made ⟨0, .bool, 0⟩, .made ⟨1, .bool, 0⟩] := by
    simp [whole, truths, tables, Repertoire.run, Repertoire.move, Assembly.start,
      Assembly.perform, Workspace.onContext, Workspace.ofEngines, Repertoire.calls, Call.action,
      Context.boolLiteral, Context.wrap, Action.map_apply, Action.bind_apply, Action.get_apply,
      Context.onEngine_apply, Engine.boolLiteral, TermTable.boolLiteral, TermTable.intern,
      TermTable.hasRoom, wordLimit, Dag.size, Dag.intern, Array.swapAt]
  have builtMade : (Repertoire.turns.run solvers built).outcomes = [.made ⟨0, .bool, 0⟩] := by
    simp [built, solvers, Repertoire.run, Repertoire.move, Assembly.start, Assembly.perform,
      Workspace.onContext, Workspace.ofEngines, Repertoire.turns, Turn.action, Call.action,
      Context.boolLiteral, Context.wrap, Action.map_apply, Action.bind_apply, Action.get_apply,
      Context.onEngine_apply, Engine.boolLiteral, Solver.boolLiteral, Solver.symbol,
      Solver.onTerms, Dag.intern, Array.swapAt]
  have first : whole.expr? (.made 0) = some ⟨0, .bool, 0⟩ :=
    Assembly.expr?_made_iff.mpr (by rw [truthsMade]; rfl)
  have second : whole.expr? (.made 1) = some ⟨1, .bool, 0⟩ :=
    Assembly.expr?_made_iff.mpr (by rw [truthsMade]; rfl)
  have literal : (Repertoire.turns.run solvers built).expr? (.made 0) = some ⟨0, .bool, 0⟩ :=
    Assembly.expr?_made_iff.mpr (by rw [builtMade]; rfl)
  have isolated : (Repertoire.calls : Repertoire TermTable Call).Isolates ∧
      Repertoire.turns.Isolates := contexts_isolated
  refine ⟨truthsMade, isolated.1.refuses tables truths joined (by decide) ?_ ?_,
    isolated.1.context tables truths 1 {} rfl,
    isolated.1.outcome tables truths 1 _ {} rfl rfl own_nil, ?_⟩
  · rintro operand member
    simp only [joined, Repertoire.calls, Call.operands, List.mem_cons, List.not_mem_nil,
      or_false] at member
    rcases member with rfl | rfl
    · exact Option.isSome_of_eq_some first
    · exact Option.isSome_of_eq_some second
  · exact ⟨.made 1, by simp [joined, Repertoire.calls, Call.operands], _, second, by decide⟩
  · have refused := isolated.2.refuses solvers built asserted (by decide)
      (named_singleton.mpr (Option.isSome_of_eq_some literal))
      ⟨.made 0, List.mem_singleton_self _, _, literal, by decide⟩
    rw [builtMade] at refused
    exact refused

end BitTerms
