import BitTerms.Proofs.Dag.Text
import BitTerms.Proofs.SExpr.Literals
import BitTerms.Proofs.Session.Leaves
import BitTerms.Proofs.Solver.Dialogues
import Mathlib.Data.List.Induction

/-!
# Leaves at a solver

A session with a solver keeps its variables and literals as symbols. A symbol says nothing about
what it was made for, so a leaf can be read as a value exactly if its word can. That is so for
literals, and for all variables but those that are named like a truth value.
-/

namespace BitTerms

/-! ## Words -/

/-- The word of the leaf is read as the value that the leaf spells, or as none if it is a
variable. -/
def TermLabel.Legible (label : TermLabel) : Prop :=
  ∀ word, label.spelling = .word word → SExpr.symbolLiteral? word = label.literal?

namespace TermLabel

theorem legible_bits {width : Width} {pattern : Nat} (fits : pattern < 2 ^ width.bits) :
    Legible ⟨.bits pattern, .bits width⟩ := by
  rintro _ ⟨⟩
  exact SExpr.symbolLiteral?_bitsText width.pos width.lt_wordLimit fits

theorem legible_bool (truth : Bool) (sort : SmtSort) : Legible ⟨.bool truth, sort⟩ := by
  rintro _ ⟨⟩
  exact SExpr.symbolLiteral?_boolText truth

theorem legible_variable {name : String} (notTrue : name ≠ "true") (notFalse : name ≠ "false")
    (sort : SmtSort) : Legible ⟨.variable name, sort⟩ := by
  rintro _ ⟨⟩
  exact SExpr.symbolLiteral?_text notTrue notFalse

end TermLabel

theorem Call.legible_of_leaf? {call : Call} {label : TermLabel} (asked : call.leaf? = some label)
    {value : Value} (isLiteral : label.literal? = some value) : label.Legible := by
  cases call with
  | declare name sort =>
      cases asked
      cases isLiteral
  | declareBits name bits =>
      rcases Option.map_eq_some_iff.mp asked with ⟨width, -, rfl⟩
      cases isLiteral
  | boolLiteral truth =>
      cases asked
      exact TermLabel.legible_bool truth .bool
  | bitsLiteral number bits =>
      rcases Option.map_eq_some_iff.mp asked with ⟨width, -, rfl⟩
      exact TermLabel.legible_bits (Pattern.ofInt_lt width.bits number)
  | bitsSort | apply | simplify => cases asked

/-! ## Symbols of a session -/

namespace Solver

variable {solver next : Solver} {term left right : Nat} {label : TermLabel} {sort : SmtSort}
  {request : Request}

/-- The term is the symbol that the leaf is written as. -/
def IsLeaf (solver : Solver) (term : Nat) (label : TermLabel) : Prop :=
  ∃ word, label.spelling = .word word ∧ solver.terms.nodes[term]? = some ⟨.symbol word, []⟩

theorem IsLeaf.mono (leaf : solver.IsLeaf term label) (grown : solver.terms.Extends next.terms) :
    next.IsLeaf term label := by
  rcases leaf with ⟨word, spelled, found⟩
  exact ⟨word, spelled, grown.nodes found⟩

theorem isLeaf_of_symbol (shared : solver.terms.WellFormed) {word : String}
    (spelled : label.spelling = .word word) (made : symbol word solver = .ok term next) :
    next.IsLeaf term label := by
  rw [symbol_apply] at made
  cases made
  exact ⟨word, spelled, shared.nodes_intern ⟨.symbol word, []⟩⟩

/-- Leaves that are written alike are one term. -/
theorem IsLeaf.eq_of_spelling (shared : solver.terms.WellFormed) {other : TermLabel}
    (onLeft : solver.IsLeaf left label) (onRight : solver.IsLeaf right other)
    (same : label.spelling = other.spelling) : left = right := by
  rcases onLeft with ⟨word, spelled, found⟩
  rcases onRight with ⟨wordToo, spelledToo, foundToo⟩
  cases spelled.symm.trans (same.trans spelledToo)
  exact shared.position_eq found foundToo

theorem literal?_of_symbol {word : String}
    (found : solver.terms.nodes[term]? = some ⟨.symbol word, []⟩) :
    solver.literal? term = SExpr.symbolLiteral? word := by
  rw [literal?, SExpr.outline, Dag.label?_eq found]
  rfl

theorem hasLeaves : Engine.HasLeaves Consistent IsLeaf TermLabel.Legible where
  literal {solver} term label leaf legible := by
    rcases leaf with ⟨word, spelled, found⟩
    exact (literal?_of_symbol found).trans (legible word spelled)
  text {solver} term label word leaf spelled := by
    rcases leaf with ⟨other, spelledToo, found⟩
    cases spelled.symm.trans spelledToo
    exact Dag.text_of_word found rfl
  unique consistent onLeft onRight := onLeft.eq_of_spelling consistent.shared onRight rfl
  again {solver} term pattern width consistent fits leaf := by
    rcases leaf with ⟨word, spelled, found⟩
    cases spelled
    have indexed : solver.terms.index[(⟨.symbol (Numeral.bitsText width.bits pattern), []⟩ :
        Dag.Node SExpr.Label)]? = some term := (consistent.shared.index_iff _ _).mpr found
    refine ⟨solver, ?_⟩
    change bitsLiteral width pattern solver = _
    rw [bitsLiteral_of_fits fits, symbol_apply, Dag.intern_of_index indexed]

/-- A leaf that was asked for is in the session, and only a variable may be refused. -/
theorem ends_leaf (consistent : solver.Consistent) (asked : request.leaf? sort = some label)
    (proper : request.Proper solver.Has sort) :
    Action.Ends (fun term next => next.IsLeaf term label)
      (fun _ _ => label.literal? = none ∨ False) (request.run sort solver) := by
  cases request with
  | declare name =>
      cases asked
      have ends := ends_declare consistent name sort
      change Action.Ends _ _ (declare name sort solver)
      cases declared : declare name sort solver with
      | error error next => exact .inl rfl
      | ok term next =>
          rw [declared, Action.ends_ok] at ends
          rcases ends with ⟨-, consistentNext, -, found, -⟩
          exact ⟨Symbol.text name, rfl, consistentNext.declared found⟩
  | bitsLiteral width pattern =>
      cases asked
      rcases proper with ⟨rfl, fits⟩
      change Action.Ends _ _ (bitsLiteral width pattern solver)
      rw [bitsLiteral_of_fits fits]
      exact isLeaf_of_symbol consistent.shared rfl (symbol_apply _ solver)
  | boolLiteral truth =>
      cases asked
      exact isLeaf_of_symbol consistent.shared rfl (symbol_apply _ solver)
  | apply operator operands => cases asked
  | simplify operand => cases asked

end Solver

/-! ## Dialogues -/

def Turn.leaf? : Turn → Option TermLabel
  | .build call => call.leaf?
  | .push | .pop | .assert _ | .check | .modelValue _ => none

theorem Turn.legible_of_leaf? {turn : Turn} {label : TermLabel} {value : Value}
    (asked : turn.leaf? = some label) (isLiteral : label.literal? = some value) :
    label.Legible := by
  cases turn with
  | build call => exact Call.legible_of_leaf? asked isLiteral
  | push | pop | assert | check | modelValue => cases asked

namespace Session

theorem Holds.recalls_turn {session : Session Solver}
    (holds : session.Holds Solver.Consistent Solver.Has) {turns : List Turn}
    (recalls : session.Recalls Solver.IsLeaf (fun _ _ => False) Turn.leaf? turns) (last : Turn) :
    (session.turn last).Recalls Solver.IsLeaf (fun _ _ => False) Turn.leaf? (turns ++ [last]) := by
  rcases holds.exists_turned last with ⟨outcome, next, turned, does⟩
  have came : (session.turn last).outcomes = session.outcomes ++ [outcome] := by rw [turned]
  have grown : session.context.engine.terms.Extends (session.turn last).context.engine.terms := by
    rw [turned]
    exact does.keeps.terms
  refine recalls.append came (fun _ _ leaf => leaf.mono grown) (fun _ => id) fun label asked => ?_
  cases last with
  | build call =>
      refine shows_call asked came fun request planned isLeaf => ?_
      exact Solver.ends_leaf holds.engine isLeaf (holds.proper planned)
  | push | pop | assert | check | modelValue => cases asked

theorem recalls_converse (id : Nat) {preset : Preset} {peer : Option Peer} {build : Build}
    {solver : Solver} (started : Solver.start preset peer build = .ok solver) (turns : List Turn) :
    ((start id solver).converse turns).Recalls Solver.IsLeaf (fun _ _ => False) Turn.leaf?
      turns := by
  induction turns using List.reverseRecOn with
  | nil => exact recalls_start id solver
  | append_singleton turns last induction =>
      rw [converse_append]
      exact ((holds_started id started).converse turns).recalls_turn induction last

variable {id : Nat} {preset : Preset} {peer : Option Peer} {build : Build} {solver : Solver}
  {turns : List Turn}

theorem exists_outcome_turn (started : Solver.start preset peer build = .ok solver)
    (turns : List Turn) (last : Turn) :
    ∃ outcome, ((start id solver).converse (turns ++ [last])).outcomes =
      ((start id solver).converse turns).outcomes ++ [outcome] := by
  rcases ((holds_started id started).converse turns).exists_turned last with
    ⟨outcome, next, turned, -⟩
  rw [converse_append, turned]
  exact ⟨outcome, rfl⟩

/-- What a turn came to stays on record. -/
theorem CameTo.converse (started : Solver.start preset peer build = .ok solver) {turn : Turn}
    {outcome : Outcome} (came : ((start id solver).converse turns).CameTo turns turn outcome)
    (more : List Turn) :
    ((start id solver).converse (turns ++ more)).CameTo (turns ++ more) turn outcome := by
  induction more using List.reverseRecOn with
  | nil => simpa using came
  | append_singleton more last induction =>
      rcases exists_outcome_turn started (turns ++ more) last with ⟨other, outcomes⟩
      rw [← List.append_assoc]
      exact induction.append last (recalls_converse id started (turns ++ more)).length_eq outcomes

end Session

end BitTerms
