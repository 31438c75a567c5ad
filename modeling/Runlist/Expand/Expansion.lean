import Runlist.Expand.Target

/-!
# Expanding tasks, roles, plays and playbooks

A block is expanded to the expansions of its tasks, an include to that of its target, and every
other task to itself. A role is expanded to its dependencies and then its own tasks; a play to the
playbook that it imports, or to its tasks and then its roles; a playbook to its plays.

Every function takes a bound on the nesting first; `expansionBound` is one that is not used up.

* `expandTask`, `expandRole`, `expandPlay`, `expandPlaybook`: the expansions.
-/

namespace Runlist

/-- The selection of files that the parameters of an include ask for. -/
def RoleInclude.selection (p : RoleInclude) : RoleSelection :=
  (((RoleSelection.main.tasksFrom p.tasksFrom).defaultsFrom p.defaultsFrom).varsFrom
    p.varsFrom).withPublic p.isPublic

/-- The result of a directive: its tasks become the tasks of the directive, and a failure names
it. -/
def finishInclude (id : TaskId) (origin : OriginId) (target : String)
    (result : Except ExpandError (List TaskId)) : Expand (List TaskId) := do
  match result with
  | .error e => Expand.failed origin target e
  | .ok tasks =>
    Expand.load (Load.update fun g => g.adopt tasks id)
    return tasks

/-- A directive that includes a file of tasks; `expand` expands each of them. -/
def expandTaskInclude (site : Site) (t : Templater) (expand : TaskId → Expand (List TaskId))
    (id : TaskId) (action : String) : Expand (List TaskId) := do
  let g ← Expand.graph
  let task := g.task id
  match ← Expand.attempt (includeParams site t TaskInclude.ofJson "file" id action) with
  | .error e => Expand.failed task.origin action e
  | .ok params =>
    let path := (g.taskPath id).directory.join params.file
    let result ← Expand.inside site (.file path) do
      let tasks ← Expand.load (loadTasksIn site (some task.origin) task.role task.play path)
      concatEach expand tasks
    finishInclude id task.origin path.text result

/-- A directive that includes a role; `expand` expands it. -/
def expandRoleInclude (site : Site) (t : Templater) (expand : RoleId → Expand (List TaskId))
    (id : TaskId) (action : String) : Expand (List TaskId) := do
  let origin := ((← Expand.graph).task id).origin
  match ← Expand.attempt (includeParams site t RoleInclude.ofJson "name" id action) with
  | .error e => Expand.failed origin action e
  | .ok params =>
    let play := (← Expand.graph).taskPlay id
    let result ← Expand.inside site (.role params.name params.selection.tasksFile) do
      let role ← Expand.load (loadRoleWith site (some origin) play params.name params.selection)
      expand role
    finishInclude id origin ("role " ++ params.name) result

mutual
/-- **The expansion of a task.** -/
def expandTask (site : Site) (t : Templater) : Nat → TaskId → Expand (List TaskId)
  | 0, _ => throw .tooDeep
  | n + 1, id => do
    let task := (← Expand.graph).task id
    if task.isBlock then concatEach (expandTask site t n) task.block
    else match task.taskInclude? with
      | some action => expandTaskInclude site t (expandTask site t n) id action
      | none =>
        match task.roleInclude? with
        | some action =>
          expandRoleInclude site t (fun role => expandRoleOn site t n role []) id action
        | none => return [id]

/-- **The expansion of a role** that is reached along a path of dependencies. -/
def expandRoleOn (site : Site) (t : Templater) : Nat → RoleId → List String → Expand (List TaskId)
  | 0, _, _ => throw .tooDeep
  | n + 1, role, path => do
    let path ← Expand.load (Load.ofExcept (enterDependency (← Expand.graph) role path))
    let direct ← Expand.load (directDependencies site role)
    let below ← concatEach (fun dep => expandRoleOn site t n dep path) direct
    let tasks := ((← Expand.graph).role role).tasks
    let own ← concatEach (expandTask site t n) tasks
    return below ++ own
end

/-- The expansion of a role. -/
def expandRole (site : Site) (t : Templater) (bound : Nat) (role : RoleId) :
    Expand (List TaskId) :=
  expandRoleOn site t bound role []

mutual
/-- **The expansion of a play.** -/
def expandPlay (site : Site) (t : Templater) : Nat → PlayId → Expand (List TaskId)
  | 0, _ => throw .tooDeep
  | n + 1, id => do
    let play := (← Expand.graph).play id
    match play.importTarget? with
    | some target => do
      let path := site.root.join target
      let result ← Expand.attempt do
        let playbook ← Expand.load (loadPlaybook site (some play.origin) path)
        expandPlaybook site t n playbook
      match result with
      | .ok tasks => return tasks
      | .error e => Expand.failed play.origin path.text e
    | none => do
      let tasks ← concatEach (expandTask site t n) play.tasks
      let roles ← concatEach (expandRole site t n) play.roles
      return tasks ++ roles

/-- **The expansion of a playbook.** -/
def expandPlaybook (site : Site) (t : Templater) : Nat → Playbook → Expand (List TaskId)
  | 0, _ => throw .tooDeep
  | n + 1, playbook => do
    let result ← Expand.inside site (.file playbook.path)
      (concatEach (expandPlay site t n) playbook.plays)
    match result with
    | .ok tasks => return tasks
    | .error e => throw e
end

end Runlist
