/-!
# Sets of characters given as ranges

Character properties are listed as ranges of code points, both ends included. Membership looks
at every range, so the order of a table carries no meaning.
-/

namespace Baton.Text

/-- A set of code points, as ranges with both ends included. -/
abbrev Ranges := List (Nat × Nat)

/-- Whether the code point of `c` lies in one of the ranges. -/
def Ranges.holds (rs : Ranges) (c : Char) : Bool :=
  rs.any fun r => r.1 ≤ c.toNat && c.toNat ≤ r.2

end Baton.Text
