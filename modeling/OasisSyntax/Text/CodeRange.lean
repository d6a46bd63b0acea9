/-!
# Ranges of code points

A set of characters given by ranges of code points, both ends included.
-/

namespace OasisSyntax.Text

abbrev CodeRanges := List (Nat × Nat)

def CodeRanges.contains (ranges : CodeRanges) (char : Char) : Bool :=
  ranges.any fun (first, last) =>
    decide (first ≤ char.toNat) && decide (char.toNat ≤ last)

end OasisSyntax.Text
