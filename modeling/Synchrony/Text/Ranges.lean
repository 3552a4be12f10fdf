/-!
# Ranges of code points

A class of characters is kept as a list of inclusive ranges of code points.
-/

set_option autoImplicit false

namespace Synchrony.Text

/-- Whether a code point lies in one of some inclusive ranges. -/
def inRanges (ranges : List (Nat × Nat)) (n : Nat) : Bool :=
  ranges.any fun range => range.1 ≤ n && n ≤ range.2

end Synchrony.Text
