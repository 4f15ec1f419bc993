/-!
# `TypedClient.Text.CharSet`: sets of characters given by ranges

The character classes of Unicode come as closed ranges of code points. `inRanges` is
membership in such a table.
-/

set_option autoImplicit false

namespace TypedClient.Text

/-- The code point lies in one of the closed ranges. -/
def inRanges (ranges : List (Nat × Nat)) (code : Nat) : Bool :=
  ranges.any fun r => r.1 ≤ code && code ≤ r.2

end TypedClient.Text
