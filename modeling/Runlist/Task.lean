import Runlist.Action
import Runlist.Handle
import Runlist.Variables

/-!
# Tasks

* `Task`: a declared task, with the tasks of its block and what it was expanded from.
* `Task.kind`: how a task is expanded.
-/

namespace Runlist

/-- How a task is expanded, in the order in which the forms are tried. -/
inductive TaskKind where
  | block
  | taskInclude
  | roleInclude
  | leaf
deriving DecidableEq, Inhabited, Repr

/-- A declared task. -/
structure Task where
  name : Option String
  /-- The tasks of its block. -/
  block : List TaskId
  vars : Variables
  /-- The mapping as declared. -/
  raw : Fields
  origin : OriginId
  /-- The block or include from which it was expanded. -/
  parent : Option TaskId
  role : Option RoleId
  play : Option PlayId
  /-- The variables that were resolved first. -/
  cachedVars : Option Variables
deriving Inhabited, Repr

namespace Task

/-- The task wraps other tasks. -/
def isBlock (t : Task) : Bool := !t.block.isEmpty

/-- The first of some actions that the task declares. -/
def firstAction? (t : Task) (actions : List String) : Option String :=
  actions.find? fun action => t.raw.has action

/-- The directive by which the task includes a file of tasks. -/
def taskInclude? (t : Task) : Option String := t.firstAction? Action.taskIncludes

/-- The directive by which the task includes a role. -/
def roleInclude? (t : Task) : Option String := t.firstAction? Action.roleIncludes

/-- **How the task is expanded.** -/
def kind (t : Task) : TaskKind :=
  if t.isBlock then .block
  else if t.taskInclude?.isSome then .taskInclude
  else if t.roleInclude?.isSome then .roleInclude
  else .leaf

end Task

end Runlist
