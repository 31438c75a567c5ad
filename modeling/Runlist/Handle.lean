/-!
# Handles

Entities refer to one another by their positions in a graph.

* `OriginId`, `TaskId`, `PlayId`, `RoleId`: positions of origins, tasks, plays and roles.
-/

namespace Runlist

/-- The position of an origin. -/
structure OriginId where
  index : Nat
deriving DecidableEq, Inhabited, Repr

/-- The position of a task. -/
structure TaskId where
  index : Nat
deriving DecidableEq, Inhabited, Repr

/-- The position of a play. -/
structure PlayId where
  index : Nat
deriving DecidableEq, Inhabited, Repr

/-- The position of a role. -/
structure RoleId where
  index : Nat
deriving DecidableEq, Inhabited, Repr

end Runlist
