import Runlist.Action
import Runlist.FilePath
import Runlist.Handle
import Runlist.Variables

/-!
# Plays and playbooks

* `RoleDefinition`: a reference to a role.
* `Play`: three sections of tasks, roles and variables.
* `Playbook`: the plays of a document.
-/

namespace Runlist

/-- A reference to a role, in a play or among the dependencies of another role. -/
structure RoleDefinition where
  name : String
  vars : Variables
  origin : OriginId
deriving Inhabited, Repr

/-- A play. -/
structure Play where
  name : Option String
  hosts : Option String
  roleDefinitions : List RoleDefinition
  preTasks : List TaskId
  mainTasks : List TaskId
  postTasks : List TaskId
  vars : Variables
  varsFiles : List String
  /-- The mapping as declared. -/
  raw : Fields
  roles : List RoleId
  origin : OriginId
deriving Inhabited, Repr

/-- The tasks of the three sections in the order in which they run. -/
def Play.tasks (p : Play) : List TaskId := p.preTasks ++ p.mainTasks ++ p.postTasks

/-- The playbook that the play imports, if it is only a directive. -/
def Play.importTarget? (p : Play) : Option String :=
  (Action.playbookImports.findSome? fun action => p.raw.get? action).bind Json.string?

/-- The plays of a document. -/
structure Playbook where
  path : FilePath
  plays : List PlayId
deriving DecidableEq, Inhabited, Repr

/-- The playbook has no plays. -/
def Playbook.isEmpty (p : Playbook) : Bool := p.plays.isEmpty

end Runlist
