import BitTerms.Dag.Text
import BitTerms.Proofs.Dag.Sharing

/-!
# The text is the recursive text

Writing a shared tree piece by piece gives the text that the recursion on the tree gives. So the
text of a tree stays what it is while the table grows.
-/

namespace BitTerms.Dag

variable {α : Type} [DecidableEq α] [Hashable α]

/-- What there is to write of a piece. -/
def Piece.written (dag : Dag α) (spell : α → Spelling) : Piece → String
  | .text literal => literal
  | .tree position => dag.recursiveText spell position

theorem recursiveText_eq {dag : Dag α} (spell : α → Spelling) {position : Nat} {label : α}
    (labelled : dag.label? position = some label) :
    dag.recursiveText spell position =
      (spell label).write ((dag.children position).map (dag.recursiveText spell)) := by
  unfold recursiveText
  rw [fold, labelled]
  simp only [List.map_attach_eq_pmap, List.pmap_eq_map]

theorem recursiveText_of_none {dag : Dag α} (spell : α → Spelling) {position : Nat}
    (missing : dag.label? position = none) : dag.recursiveText spell position = "" := by
  unfold recursiveText
  rw [fold, missing]
  rfl

theorem join_written_intersperse (dag : Dag α) (spell : α → Spelling) (separator : String)
    (parts : List Piece) :
    String.join ((parts.intersperse (.text separator)).map (Piece.written dag spell)) =
      separator.intercalate (parts.map (Piece.written dag spell)) := by
  rw [← String.toList_inj, String.toList_intercalate]
  induction parts with
  | nil => simp
  | cons first rest induction =>
      cases rest with
      | nil => simp
      | cons second rest =>
          rw [List.intersperse_cons_cons, List.map_cons, List.map_cons, String.join_cons,
            String.join_cons, String.toList_append, String.toList_append, induction]
          simp [List.intercalate_cons_cons, Piece.written]

/-- The pieces of a node make up its text. -/
theorem join_written_pieces (dag : Dag α) (spell : α → Spelling) (spelling : Spelling)
    (children : List Nat) :
    String.join ((pieces spelling children).map (Piece.written dag spell)) =
      spelling.write (children.map (dag.recursiveText spell)) := by
  cases spelling with
  | word text => simp [pieces, Spelling.write, Piece.written]
  | group head =>
      have parts : (head.toList.map Piece.text ++ children.map Piece.tree).map
          (Piece.written dag spell) =
            head.toList ++ children.map (dag.recursiveText spell) := by
        simp [Function.comp_def, Piece.written]
      rw [pieces, List.map_append, List.map_cons, String.join_append, String.join_cons,
        join_written_intersperse, parts, Spelling.write]
      simp [Piece.written]

theorem writePieces_eq (dag : Dag α) (spell : α → Spelling) (pending : List Piece)
    (written : String) :
    dag.writePieces spell pending written =
      written ++ String.join (pending.map (Piece.written dag spell)) := by
  induction pending, written using writePieces.induct dag spell with
  | case1 written => simp [writePieces]
  | case2 text rest written induction =>
      rw [writePieces, induction, List.map_cons, String.join_cons, ← String.append_assoc]
      rfl
  | case3 position rest written label labelled induction =>
      rw [writePieces, labelled]
      dsimp only
      rw [induction, List.map_append, String.join_append, join_written_pieces,
        ← recursiveText_eq spell labelled, List.map_cons, String.join_cons]
      rfl
  | case4 position rest written missing induction =>
      rw [writePieces, missing]
      dsimp only
      rw [induction, List.map_cons, String.join_cons, Piece.written,
        recursiveText_of_none spell missing, String.empty_append]

theorem text_eq (dag : Dag α) (spell : α → Spelling) (position : Nat) :
    dag.text spell position = dag.recursiveText spell position := by
  rw [text, writePieces_eq]
  simp [Piece.written]

theorem text_of_word {dag : Dag α} {spell : α → Spelling} {position : Nat} {node : Node α}
    {word : String} (found : dag.nodes[position]? = some node)
    (spelled : spell node.label = .word word) : dag.text spell position = word := by
  rw [Dag.text_eq, recursiveText_eq spell (label?_eq found), spelled, Spelling.write]

theorem Extends.text_eq {old new : Dag α} (grown : Extends old new) (spell : α → Spelling)
    {position : Nat} (inside : position < old.size) :
    new.text spell position = old.text spell position := by
  rw [Dag.text_eq, Dag.text_eq]
  exact grown.fold_eq _ position inside

end BitTerms.Dag
