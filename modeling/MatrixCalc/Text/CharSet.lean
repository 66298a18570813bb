/-!
# Sets of characters

A set of characters is written as a list of closed ranges of code points, in increasing order.
-/

namespace MatrixCalc.Text

/-- A set of characters, as closed ranges of code points. -/
abbrev CharSet := List (Nat × Nat)

/-- Whether the code point of `char` lies in one of the ranges. -/
def CharSet.has (set : CharSet) (char : Char) : Bool :=
  set.any fun range => range.1 ≤ char.toNat && char.toNat ≤ range.2

end MatrixCalc.Text
