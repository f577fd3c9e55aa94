/-!
# Sets of code points

A character class that a standard lists character by character is kept as inclusive ranges of
code points. Membership is a search through the ranges.
-/

namespace WordAsm
namespace Text

/-- Inclusive ranges of code points, in increasing order. -/
abbrev CodePoints := List (Nat × Nat)

/-- Whether a character lies in one of the ranges. -/
def CodePoints.has
    (ranges : CodePoints)
    (c : Char) : Bool :=
  ranges.any fun range => range.1 ≤ c.toNat && c.toNat ≤ range.2

end Text
end WordAsm
