/-!
# Ranges of character codes

Sets of characters by the ranges of their codes, in the form in which Unicode lists its categories
and properties.
-/

namespace RatingArchive.Text

/-- A set of characters: the first and the last code of each range. -/
abbrev CodeRanges := List (Nat × Nat)

namespace CodeRanges

/-- Whether the code of a character lies in one of the ranges. -/
def includes (ranges : CodeRanges) (c : Char) : Bool :=
  ranges.any fun (first, last) => first ≤ c.toNat && c.toNat ≤ last

/-- Whether the ranges start at `floor` or above it, and ascend without overlap. -/
def ascendsFrom (floor : Nat) : CodeRanges → Bool
  | [] => true
  | (first, last) :: rest => floor ≤ first && first ≤ last && ascendsFrom (last + 1) rest

end CodeRanges

end RatingArchive.Text
