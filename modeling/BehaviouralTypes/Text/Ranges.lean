/-!
# Sets of characters

Sets of characters as tables of code points, the way properties of characters are published.
-/

namespace BehaviouralTypes.Text

/-- Whether the code point of the character lies in one of the ranges, ends included. -/
def inRanges (ranges : List (Nat × Nat)) (c : Char) : Bool :=
  ranges.any fun (first, last) => first ≤ c.toNat && c.toNat ≤ last

end BehaviouralTypes.Text
