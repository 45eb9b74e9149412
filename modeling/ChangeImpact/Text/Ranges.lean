/-!
# Ranges of code points

A class of characters given by a table: ascending, inclusive ranges of code points.
-/

namespace ChangeImpact.Text

abbrev Ranges := List (Nat × Nat)

def Ranges.has (t : Ranges) (c : Char) : Bool :=
  t.any fun r => r.1 ≤ c.toNat && c.toNat ≤ r.2

end ChangeImpact.Text
