import Runlist.Play

/-!
# Roles

* `Role`: a role loaded from its directory with one selection of files.
* `RoleMeta`: the dependencies that a role declares.
-/

namespace Runlist

/-- What a role declares about itself. -/
structure RoleMeta where
  /-- The origin of the file, if there is one. -/
  origin : Option OriginId
  dependencies : List RoleDefinition
deriving Inhabited, Repr

/-- Nothing declared. -/
def RoleMeta.empty : RoleMeta := ⟨none, []⟩

/-- A role. -/
structure Role where
  name : String
  path : FilePath
  isPublic : Bool
  origin : OriginId
  play : Option PlayId
  tasks : List TaskId
  defaults : Variables
  vars : Variables
  declared : RoleMeta
  /-- The roles that it depends on, once they are loaded. -/
  directDependencies : Option (List RoleId)
  /-- The roles that it depends on directly and indirectly, once they are known. -/
  allDependencies : Option (List RoleId)
deriving Inhabited, Repr

end Runlist
