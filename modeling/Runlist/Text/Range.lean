/-!
# Sets of characters given by ranges

* `inRanges`: a character belongs to a table when one of the table's closed ranges of code
  points holds it.
-/

namespace Runlist.Text

/-- The code point lies in one of the closed ranges of one of the tables. -/
def inRanges (tables : List (List (Nat × Nat))) (c : Char) : Bool :=
  tables.any fun table => table.any fun (low, high) => low ≤ c.toNat && c.toNat ≤ high

end Runlist.Text
