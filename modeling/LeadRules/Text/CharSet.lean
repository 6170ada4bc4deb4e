/-! Sets of characters given by their boundaries. -/
namespace LeadRules

/-- Code points in rising order at which membership changes, starting from "outside". -/
structure CharSet where
  boundaries : List Nat

/-- A character is inside when an odd number of boundaries lie at or before it. -/
def CharSet.contains (s : CharSet) (c : Char) : Bool :=
  (s.boundaries.takeWhile (· ≤ c.toNat)).length % 2 = 1

end LeadRules
