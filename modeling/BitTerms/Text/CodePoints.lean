/-!
# Classes of code points

A class of characters beyond ASCII is a table of closed ranges in ascending order.
-/

namespace BitTerms.Text

/-- Closed ranges of code points, each given by its first and last one. -/
abbrev CodePoints := Array (Nat × Nat)

def CodePoints.covers (ranges : CodePoints) (character : Char) : Bool :=
  ranges.any fun (first, last) => first ≤ character.toNat && character.toNat ≤ last

end BitTerms.Text
