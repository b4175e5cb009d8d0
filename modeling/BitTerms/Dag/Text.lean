import BitTerms.Dag

/-!
# The text of a shared tree

A tree is written as a word or as a group in parentheses, with single spaces between the parts.
`Dag.recursiveText` says what the text is; `Dag.text` writes it piece by piece from an explicit
list of what is left to write, so that the depth of the tree does not matter.
-/

namespace BitTerms

/-- How a node is written: as a word, or as a group of its children with an optional head in
front of them. -/
inductive Spelling where
  | word (text : String)
  | group (head : Option String)

def Spelling.write : Spelling → List String → String
  | .word text, _ => text
  | .group head, children => "(" ++ " ".intercalate (head.toList ++ children) ++ ")"

namespace Dag

variable {α : Type} [DecidableEq α] [Hashable α]

/-- The text of the tree at a position, by recursion on the tree. -/
def recursiveText (dag : Dag α) (spell : α → Spelling) (position : Nat) : String :=
  dag.fold (fun label children => (spell label).write children) position

/-- A part of a text that is still to be written. -/
inductive Piece where
  | text (text : String)
  | tree (position : Nat)

/-- What remains to be written of a node: its fixed parts and its children. -/
def pieces (spelling : Spelling) (children : List Nat) : List Piece :=
  match spelling with
  | .word text => [.text text]
  | .group head =>
    let parts := head.toList.map Piece.text ++ children.map Piece.tree
    .text "(" :: parts.intersperse (.text " ") ++ [.text ")"]

/-- A bound on the steps it takes to write a piece. -/
def Piece.cost (dag : Dag α) : Piece → Nat
  | .text _ => 1
  | .tree position => dag.weight position

private theorem sum_cost_intersperse_le (dag : Dag α) (separator : String) (parts : List Piece) :
    ((parts.intersperse (.text separator)).map (Piece.cost dag)).sum ≤
      (parts.map fun part => part.cost dag + 1).sum := by
  induction parts with
  | nil => simp
  | cons first rest induction =>
    cases rest with
    | nil => simp
    | cons second rest =>
      simp only [List.intersperse_cons_cons, List.map_cons, List.sum_cons, Piece.cost]
        at induction ⊢
      omega

private theorem sum_cost_pieces_lt (dag : Dag α) (spelling : Spelling) (position : Nat) :
    ((pieces spelling (dag.children position)).map (Piece.cost dag)).sum < dag.weight position := by
  rw [weight_eq]
  cases spelling with
  | word text =>
    simp only [pieces, List.map_cons, List.map_nil, List.sum_cons, List.sum_nil, Piece.cost]
    omega
  | group head =>
    have bound := sum_cost_intersperse_le dag " "
      (head.toList.map Piece.text ++ (dag.children position).map Piece.tree)
    have headCost : ((head.toList.map Piece.text).map fun part => part.cost dag + 1).sum ≤ 2 := by
      cases head <;> simp [Piece.cost]
    simp only [pieces, List.map_append, List.sum_append, List.map_cons, List.map_nil,
      List.sum_cons, List.sum_nil, List.map_map] at bound headCost ⊢
    simp only [Piece.cost, Function.comp_def] at bound headCost ⊢
    omega

def writePieces (dag : Dag α) (spell : α → Spelling) : List Piece → String → String
  | [], written => written
  | .text text :: rest, written => dag.writePieces spell rest (written ++ text)
  | .tree position :: rest, written =>
    match dag.label? position with
    | some label =>
      dag.writePieces spell (pieces (spell label) (dag.children position) ++ rest) written
    | none => dag.writePieces spell rest written
termination_by pending => (pending.map (Piece.cost dag)).sum
decreasing_by
  · simp [Piece.cost]
  · have := sum_cost_pieces_lt dag (spell label) position
    simp only [List.map_append, List.sum_append, List.map_cons, List.sum_cons]
    simp only [Piece.cost] at this ⊢
    omega
  · have := dag.weight_eq position
    simp only [List.map_cons, List.sum_cons, Piece.cost]
    omega

def text (dag : Dag α) (spell : α → Spelling) (position : Nat) : String :=
  dag.writePieces spell [.tree position] ""

end Dag

end BitTerms
