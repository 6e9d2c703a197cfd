/-!
# Ranges of characters

Sets of characters given by the first and last code points of their ranges.
-/

namespace HostLisp.Text

/-- Whether a code point lies in one of the ranges, both ends included. -/
def inRanges (ranges : List (Nat × Nat)) (code : Nat) : Bool :=
  ranges.any fun (first, last) => first ≤ code && code ≤ last

end HostLisp.Text
