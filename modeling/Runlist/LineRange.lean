/-!
# Ranges of lines

* `LineRange`: the lines on which an entity starts and ends.
-/

namespace Runlist

/-- First and last line, counted from one; zero twice when they are not known. -/
structure LineRange where
  first : Nat
  last : Nat
deriving DecidableEq, Inhabited, Repr

/-- The range of an entity whose lines are not known. -/
def LineRange.unknown : LineRange := ⟨0, 0⟩

end Runlist
