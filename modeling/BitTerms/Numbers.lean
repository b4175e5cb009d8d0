/-!
# Powers and zeros

Powers of numbers and the zero that a sum starts from are the built-in ones everywhere, also where
an algebraic hierarchy offers others that are equal to them.
-/

namespace BitTerms

attribute [scoped instance (2000)] instPowNat Zero.ofOfNat0

end BitTerms
