import Runlist.Load.Dependencies

/-!
# Resolving variables

The sources of a task's variables, later ones over earlier ones: the defaults of the play's roles
and of the task's own role, each over those of its dependencies; the play's variables; its files
of variables; the variables of its roles; those of the task's role; those of the task.

* `resolveVars`: the variables of a play and a task.
* `taskVars`: those of a task, kept with it at the first call.
-/

namespace Runlist

/-- The variables with the defaults of roles over them. -/
def assignDefaults (site : Site) (vars : Variables) (roles : List RoleId) : Load Variables :=
  roles.foldlM (fun vars role => do return vars.assign (← defaultVars site role)) vars

/-- The variables with those of a play's files over them; a file whose name is a template is
passed over. -/
def assignFiles (site : Site) (dir : FilePath) (vars : Variables) (files : List String) :
    Load Variables :=
  files.foldlM (fun vars file => do
    if Text.occursIn "\x7b\x7b".toList file.toList then
      Load.note (.templatedVarsFile file)
      return vars
    else match loadVarsFile site dir file with
      | .ok more => return vars.assign more
      | .error e => throw e) vars

/-- The variables with those of roles over them. -/
def assignRoleVars (g : Graph) (vars : Variables) (roles : List RoleId) : Variables :=
  roles.foldl (fun vars role => vars.assign (g.role role).vars) vars

/-- The variables with those of a play over them: its own, its files, its roles. -/
def assignPlay (site : Site) (vars : Variables) : Option PlayId → Load Variables
  | none => return vars
  | some id => do
    let g ← Load.graph
    let p := g.play id
    let vars ← assignFiles site (g.origin p.origin).path.directory (vars.assign p.vars) p.varsFiles
    return assignRoleVars (← Load.graph) vars p.roles

/-- The variables with those of a task over them: those of its role, and its own. -/
def assignTask (vars : Variables) : Option TaskId → Load Variables
  | none => return vars
  | some id => do
    let g ← Load.graph
    let t := g.task id
    return (assignRoleVars g vars t.role.toList).assign t.vars

/-- The roles whose defaults count: those of a play, and that of a task unless it is one of them. -/
def Graph.defaultRoles (g : Graph) (play : Option PlayId) (task : Option TaskId) : List RoleId :=
  let roles := (play.map fun id => (g.play id).roles).getD []
  let own := task.bind fun id => (g.task id).role
  roles ++ own.toList.filter fun role => !roles.contains role

/-- **The variables of a play and a task**, each of them optional. -/
def resolveVars (site : Site) (play : Option PlayId) (task : Option TaskId) : Load Variables := do
  let vars ← assignDefaults site [] ((← Load.graph).defaultRoles play task)
  let vars ← assignPlay site vars play
  assignTask vars task

/-- **The variables of a task**: those that the first call has resolved. -/
def taskVars (site : Site) (id : TaskId) : Load Variables := do
  let g ← Load.graph
  match (g.task id).cachedVars with
  | some vars => return vars
  | none =>
    let vars ← resolveVars site (g.taskPlay id) (some id)
    Load.update fun g => g.modifyTask id fun t => { t with cachedVars := some vars }
    return vars

end Runlist
