import Runlist.Parameters
import Runlist.Proofs.Watch.Tape

/-!
# Loading, watched

The steps of loading with every write and every lookup noted. What is one change of the graph there,
such as that of declared tasks to entities, is here the writes of which it consists.

* `watchTasksIn`, `watchRoleWith`, `watchPlaybook`: files of tasks, roles and playbooks.
* `watchDirect`, `watchAll`: the dependencies of a role.
* `watchTaskVars`, `watchModule`, `watchText`: the variables of a task, and what is rendered with
  them.
* `mirrors_tasksIn` and the like: **each of them does what is done without being watched.**
-/

namespace Runlist

/-! ## Files -/

mutual
/-- A declared task and the tasks of its block, written as entities. -/
def watchStampTask (context : TaskContext) (origin : Option OriginId) (parent : Option TaskId) :
    TaskDeclaration → Watch TaskId
  | ⟨range, name, vars, raw, block⟩ => do
    let origin ← Watch.change fun g => g.addOrigin ⟨.task, context.path, range, name, origin⟩
    let id ← Watch.change fun g => g.addTask
      { name, block := [], vars, raw, origin, parent, role := context.role, play := context.play,
        cachedVars := none }
    let children ← watchStampTasks context (some origin) (some id) block
    Watch.update (.task id) fun g => g.modifyTask id fun t => { t with block := children }
    return id

/-- Declared tasks, written as entities. -/
def watchStampTasks (context : TaskContext) (origin : Option OriginId) (parent : Option TaskId) :
    List TaskDeclaration → Watch (List TaskId)
  | [] => return []
  | declaration :: rest => do
    let first ← watchStampTask context origin parent declaration
    let others ← watchStampTasks context origin parent rest
    return first :: others
end

/-- The tasks of a file. -/
def watchTasksIn (site : Site) (origin : Option OriginId) (role : Option RoleId)
    (play : Option PlayId) (path : FilePath) : Watch (List TaskId) := do
  let text ← aside (readFile site path)
  match Declaration.ofText Declaration.taskList text with
  | .error e => throw (.taskDecode path e)
  | .ok declarations => watchStampTasks ⟨path, role, play⟩ origin none declarations

/-- A reference to a role. -/
def watchReference (path : FilePath) (origin : OriginId) (r : RoleReference) :
    Watch RoleDefinition := do
  let id ← Watch.change fun g =>
    g.addOrigin ⟨.roleDefinition, path, r.range, some r.name, some origin⟩
  return ⟨r.name, r.vars, id⟩

/-- What a role declares about itself. -/
def watchMeta (path : FilePath) (origin : OriginId) (m : MetaDeclaration) : Watch RoleMeta := do
  let id ← Watch.change fun g => g.addOrigin ⟨.roleMeta, path, m.range, none, some origin⟩
  let dependencies ← m.dependencies.mapM (watchReference path id)
  return ⟨some id, dependencies⟩

/-- One file of a role. -/
def watchRoleFile (site : Site) (selection : RoleSelection) (id : RoleId) (folder : String)
    (file : List String) (path : FilePath) : Watch Unit := do
  let role := (← Watch.look fun _ => [.role id]).role id
  match folder with
  | "tasks" =>
    if RoleSelection.selects selection.tasksFile file then
      let tasks ← watchTasksIn site (some role.origin) (some id) role.play path
      Watch.update (.role id) fun g => g.modifyRole id fun r => { r with tasks := r.tasks ++ tasks }
  | "defaults" =>
    if RoleSelection.selects selection.defaultsFile file then
      let vars ← aside (loadRoleVars site path)
      Watch.update (.role id) fun g => g.modifyRole id fun r =>
        { r with defaults := r.defaults.assign vars }
  | "vars" =>
    if RoleSelection.selects selection.varsFile file then
      let vars ← aside (loadRoleVars site path)
      Watch.update (.role id) fun g => g.modifyRole id fun r =>
        { r with vars := r.vars.assign vars }
  | "meta" =>
    if RoleSelection.selects RoleSelection.mainFile file then
      match readDeclared site Declaration.roleMeta path with
      | .ok declaration =>
        let declared ← watchMeta path role.origin declaration
        Watch.update (.role id) fun g => g.modifyRole id fun r => { r with declared }
      | .error e => aside (Load.note (.ignoredMeta path e))
  | _ => return ()

/-- The selected files of a role. -/
def watchRoleFiles (site : Site) (selection : RoleSelection) (id : RoleId) (dir : FilePath) :
    Watch Unit := do
  match site.disk.filesBelow dir with
  | .error e => throw (.walk dir e)
  | .ok files =>
    files.forM fun names =>
      match names with
      | [] => return ()
      | folder :: file => watchRoleFile site selection id folder file (dir.below names)

/-- A role without its files. -/
def watchNewRole (origin : Option OriginId) (play : Option PlayId) (name : String) (dir : FilePath)
    (isPublic : Bool) : Watch RoleId := do
  let origin ← Watch.change fun g => g.addOrigin ⟨.role, dir, .unknown, some name, origin⟩
  Watch.change fun g => g.addRole {
    name, path := dir, isPublic, origin, play
    tasks := [], defaults := [], vars := [], declared := .empty
    directDependencies := none, allDependencies := none }

/-- A role with a selection of its files. -/
def watchRoleWith (site : Site) (origin : Option OriginId) (play : Option PlayId) (name : String)
    (selection : RoleSelection) : Watch RoleId := do
  let s ← aside get
  let dir ← aside (Load.ofExcept (s.locate site name))
  let id ← watchNewRole origin play name dir (selection.isPublic.getD false)
  watchRoleFiles site selection id dir
  aside (modify fun s => s.addRoleDir name dir)
  return id

/-- The roles that references name. -/
def watchDefinitions (site : Site) (play : Option PlayId) (definitions : List RoleDefinition) :
    Watch (List RoleId) :=
  definitions.mapM fun d => watchRoleWith site (some d.origin) play d.name .main

/-- A play without its tasks and roles, and its origin. -/
def watchNewPlay (path : FilePath) (origin : Option OriginId) (d : PlayDeclaration) :
    Watch (PlayId × OriginId) := do
  let origin ← Watch.change fun g => g.addOrigin ⟨.play, path, d.range, d.name, origin⟩
  let id ← Watch.change fun g => g.addPlay {
    name := d.name, hosts := d.hosts, roleDefinitions := [], preTasks := [], mainTasks := []
    postTasks := [], vars := d.vars, varsFiles := d.varsFiles, raw := d.raw, roles := [], origin }
  return (id, origin)

/-- A declared play. -/
def watchPlay (site : Site) (path : FilePath) (origin : Option OriginId) (d : PlayDeclaration) :
    Watch PlayId := do
  let (id, playOrigin) ← watchNewPlay path origin d
  let preTasks ← watchStampTasks ⟨path, none, some id⟩ (some playOrigin) none d.preTasks
  let mainTasks ← watchStampTasks ⟨path, none, some id⟩ (some playOrigin) none d.mainTasks
  let postTasks ← watchStampTasks ⟨path, none, some id⟩ (some playOrigin) none d.postTasks
  let roleDefinitions ← d.roles.mapM (watchReference path playOrigin)
  let roles ← watchDefinitions site (some id) roleDefinitions
  Watch.update (.play id) fun g => g.modifyPlay id fun p =>
    { p with preTasks, mainTasks, postTasks, roleDefinitions, roles }
  return id

/-- The plays of a document. -/
def watchPlaybook (site : Site) (origin : Option OriginId) (path : FilePath) : Watch Playbook := do
  let text ← aside (readFile site path)
  match Declaration.ofText Declaration.playbook text with
  | .error e =>
    aside (Load.note (.notPlaybook path e))
    return ⟨path, []⟩
  | .ok declarations =>
    let plays ← declarations.mapM (watchPlay site path origin)
    return ⟨path, plays⟩

/-! ## Dependencies -/

/-- The roles on which a role depends directly. -/
def watchDirect (site : Site) (role : RoleId) : Watch (List RoleId) := do
  let r := (← Watch.look fun _ => [.role role]).role role
  match r.directDependencies with
  | some known => return known
  | none =>
    let found ← watchDefinitions site r.play r.declared.dependencies
    Watch.update (.role role) fun g => g.modifyRole role fun r =>
      { r with directDependencies := some found }
    return found

/-- The roles on which a role depends, for a role that is reached along a path of names. -/
def watchCollect (site : Site) : Nat → RoleId → List String → Watch (List RoleId)
  | 0, _, _ => throw .tooDeep
  | n + 1, role, path => do
    match ((← Watch.look fun _ => [.role role]).role role).allDependencies with
    | some known => return known
    | none =>
      let path ← aside
        (Load.ofExcept (enterDependency (← Watch.look fun _ => [.role role]) role path))
      let direct ← watchDirect site role
      let found ← concatEach (fun dep => do
        let below ← watchCollect site n dep path
        return below ++ [dep]) direct
      Watch.update (.role role) fun g => g.modifyRole role fun r =>
        { r with allDependencies := some found }
      return found

/-- The roles on which a role depends. -/
def watchAll (site : Site) (role : RoleId) : Watch (List RoleId) := do
  let s ← aside get
  watchCollect site (dependencyBound site s) role []

/-- The defaults of a role over those of its dependencies. -/
def watchDefaultVars (site : Site) (role : RoleId) : Watch Variables := do
  let found ← watchAll site role
  let g ← Watch.look fun _ => (found ++ [role]).map .role
  return (found ++ [role]).foldl (fun vars r => Variables.assign vars (g.role r).defaults) []

/-! ## Variables -/

/-- The variables with the defaults of roles over them. -/
def watchDefaults (site : Site) (vars : Variables) (roles : List RoleId) : Watch Variables :=
  roles.foldlM (fun vars role => do return vars.assign (← watchDefaultVars site role)) vars

/-- The variables with those of a play over them. -/
def watchPlayVars (site : Site) (vars : Variables) : Option PlayId → Watch Variables
  | none => return vars
  | some id => do
    let g ← Watch.look fun g => [.play id, .origin (g.play id).origin]
    let p := g.play id
    let vars ← aside
      (assignFiles site (g.origin p.origin).path.directory (vars.assign p.vars) p.varsFiles)
    return assignRoleVars (← Watch.look fun _ => p.roles.map .role) vars p.roles

/-- A task, and the role to which it belongs. -/
def Graph.taskHandles (g : Graph) (x : TaskId) : List Handle :=
  .task x :: (g.task x).role.toList.map .role

/-- The variables with those of a task over them. -/
def watchOwnVars (vars : Variables) : Option TaskId → Watch Variables
  | none => return vars
  | some id => do
    let g ← Watch.look fun g => g.taskHandles id
    let t := g.task id
    return (assignRoleVars g vars t.role.toList).assign t.vars

/-- The variables of a play and a task. -/
def watchVars (site : Site) (play : Option PlayId) (task : Option TaskId) : Watch Variables := do
  let g ← Watch.look fun _ => play.toList.map .play ++ task.toList.map .task
  let vars ← watchDefaults site [] (g.defaultRoles play task)
  let vars ← watchPlayVars site vars play
  watchOwnVars vars task

/-- The variables of a task. -/
def watchTaskVars (site : Site) (id : TaskId) : Watch Variables := do
  let g ← Watch.look fun g => g.taskHandles id
  match (g.task id).cachedVars with
  | some vars => return vars
  | none =>
    let vars ← watchVars site (g.taskPlay id) (some id)
    Watch.update (.task id) fun g => g.modifyTask id fun t => { t with cachedVars := some vars }
    return vars

/-- The rendered parameters of an action that a task declares as a mapping. -/
def watchModule (site : Site) (t : Templater) (id : TaskId) (action : String) :
    Watch (Option Module) := do
  match ((← Watch.look fun _ => [.task id]).task id).raw.get? action with
  | some (.object params) =>
    let vars ← watchTaskVars site id
    return some ⟨← aside (renderParams t vars action params)⟩
  | _ => return none

/-- The rendered parameter of an action that a task declares as one text. -/
def watchText (site : Site) (t : Templater) (id : TaskId) (action : String) :
    Watch (Option String) := do
  match ((← Watch.look fun _ => [.task id]).task id).raw.get? action with
  | some (.string raw) =>
    let vars ← watchTaskVars site id
    match t.evaluate raw vars with
    | .ok text => return some text
    | .error e =>
      aside (Load.note (.unrenderedText action raw e))
      return none
  | _ => return none

/-! ## Each does what is done without being watched -/

variable {site : Site}

mutual
theorem mirrors_stampTask (context : TaskContext) (origin : Option OriginId)
    (parent : Option TaskId) :
    ∀ d, Mirrors (watchStampTask context origin parent d)
      (Load.change fun g => g.stampTask context origin parent d)
  | ⟨range, name, vars, raw, block⟩ => by
    have hparts :
        (Load.change fun g => g.stampTask context origin parent ⟨range, name, vars, raw, block⟩) =
        (do
          let origin ← Load.change fun g => g.addOrigin ⟨.task, context.path, range, name, origin⟩
          let id ← Load.change fun g => g.addTask
            { name, block := [], vars, raw, origin, parent, role := context.role
              play := context.play, cachedVars := none }
          let children ← Load.change fun g =>
            Graph.stampTasks context (some origin) (some id) g block
          Load.update fun g => g.modifyTask id fun t => { t with block := children }
          return id) := by
      simp only [Graph.stampTask]; rfl
    rw [watchStampTask, hparts]
    refine mirrors_bind (mirrors_change _) fun o => mirrors_bind (mirrors_change _) fun id => ?_
    refine mirrors_bind (mirrors_stampTasks context _ _ block) fun children => ?_
    exact mirrors_bind (mirrors_update _ _) fun _ => mirrors_pure _

theorem mirrors_stampTasks (context : TaskContext) (origin : Option OriginId)
    (parent : Option TaskId) :
    ∀ ds, Mirrors (watchStampTasks context origin parent ds)
      (Load.change fun g => g.stampTasks context origin parent ds)
  | [] => by
    have hparts : (Load.change fun g => Graph.stampTasks context origin parent g []) = pure [] := by
      simp only [Graph.stampTasks]; rfl
    rw [watchStampTasks, hparts]
    exact mirrors_pure _
  | d :: ds => by
    have hparts : (Load.change fun g => Graph.stampTasks context origin parent g (d :: ds)) = (do
        let first ← Load.change fun g => g.stampTask context origin parent d
        let others ← Load.change fun g => Graph.stampTasks context origin parent g ds
        return first :: others) := by
      simp only [Graph.stampTasks]; rfl
    rw [watchStampTasks, hparts]
    refine mirrors_bind (mirrors_stampTask context origin parent d) fun first => ?_
    exact mirrors_bind (mirrors_stampTasks context origin parent ds) fun others => mirrors_pure _
end

theorem mirrors_tasksIn (origin : Option OriginId) (role : Option RoleId) (play : Option PlayId)
    (path : FilePath) :
    Mirrors (watchTasksIn site origin role play path) (loadTasksIn site origin role play path) := by
  refine mirrors_bind (mirrors_aside _) fun text => ?_
  cases Declaration.ofText Declaration.taskList text with
  | error e => exact mirrors_throw _
  | ok ds => exact mirrors_stampTasks _ _ _ ds

theorem mirrors_references (path : FilePath) (origin : OriginId) (rs : List RoleReference) :
    Mirrors (rs.mapM (watchReference path origin))
      (Load.change fun g => g.stampReferences path origin rs) := by
  induction rs with
  | nil => rw [List.mapM_nil]; exact mirrors_pure _
  | cons r rs ih =>
    have hparts : (Load.change fun g => Graph.stampReferences path origin g (r :: rs)) = (do
        let first ← (do
          let id ← Load.change fun g =>
            g.addOrigin ⟨.roleDefinition, path, r.range, some r.name, some origin⟩
          return ⟨r.name, r.vars, id⟩)
        let others ← Load.change fun g => Graph.stampReferences path origin g rs
        return first :: others) := rfl
    rw [List.mapM_cons, hparts]
    refine mirrors_bind (mirrors_bind (mirrors_change _) fun _ => mirrors_pure _) fun first => ?_
    exact mirrors_bind ih fun others => mirrors_pure _

theorem mirrors_meta (path : FilePath) (origin : OriginId) (m : MetaDeclaration) :
    Mirrors (watchMeta path origin m) (Load.change fun g => g.stampMeta path origin m) := by
  have hparts : (Load.change fun g => g.stampMeta path origin m) = (do
      let id ← Load.change fun g => g.addOrigin ⟨.roleMeta, path, m.range, none, some origin⟩
      let dependencies ← Load.change fun g => g.stampReferences path id m.dependencies
      return ⟨some id, dependencies⟩) := rfl
  rw [hparts]
  refine mirrors_bind (mirrors_change _) fun id => ?_
  exact mirrors_bind (mirrors_references path id _) fun _ => mirrors_pure _

theorem mirrors_roleFile (selection : RoleSelection) (id : RoleId) (folder : String)
    (file : List String) (path : FilePath) :
    Mirrors (watchRoleFile site selection id folder file path)
    (loadRoleFile site selection id folder file path) := by
  refine mirrors_bind (mirrors_look _) fun g => ?_
  split
  · split
    · exact mirrors_bind (mirrors_tasksIn _ _ _ _) fun _ => mirrors_update _ _
    · exact mirrors_pure _
  · split
    · exact mirrors_bind (mirrors_aside _) fun _ => mirrors_update _ _
    · exact mirrors_pure _
  · split
    · exact mirrors_bind (mirrors_aside _) fun _ => mirrors_update _ _
    · exact mirrors_pure _
  · split
    · cases readDeclared site Declaration.roleMeta path with
      | ok d => exact mirrors_bind (mirrors_meta _ _ _) fun _ => mirrors_update _ _
      | error e => exact mirrors_aside _
    · exact mirrors_pure _
  · simp only
    exact mirrors_pure _

theorem mirrors_roleFiles (selection : RoleSelection) (id : RoleId) (dir : FilePath) :
    Mirrors (watchRoleFiles site selection id dir) (loadRoleFiles site selection id dir) := by
  unfold watchRoleFiles loadRoleFiles
  cases site.disk.filesBelow dir with
  | error e => exact mirrors_throw _
  | ok files =>
    refine mirrors_forM (fun names => ?_) files
    cases names with
    | nil => exact mirrors_pure _
    | cons folder file => exact mirrors_roleFile selection id folder file _

theorem mirrors_roleWith (origin : Option OriginId) (play : Option PlayId) (name : String)
    (selection : RoleSelection) : Mirrors (watchRoleWith site origin play name selection)
      (loadRoleWith site origin play name selection) := by
  refine mirrors_bind (mirrors_aside _) fun s => mirrors_bind (mirrors_aside _) fun dir => ?_
  refine mirrors_bind (mirrors_bind (mirrors_change _) fun o => mirrors_change _) fun id => ?_
  refine mirrors_bind (mirrors_roleFiles selection id dir) fun _ => ?_
  exact mirrors_bind (mirrors_aside _) fun _ => mirrors_pure _

theorem mirrors_definitions (play : Option PlayId) (definitions : List RoleDefinition) :
    Mirrors (watchDefinitions site play definitions) (loadDefinitions site play definitions) :=
  mirrors_mapM (fun _ => mirrors_roleWith _ _ _ _) definitions

theorem mirrors_play (path : FilePath) (origin : Option OriginId) (d : PlayDeclaration) :
    Mirrors (watchPlay site path origin d) (loadPlay site path origin d) := by
  refine mirrors_bind (mirrors_bind (mirrors_change _) fun o =>
    mirrors_bind (mirrors_change _) fun id =>
    mirrors_pure _) fun (id, o) => ?_
  refine mirrors_bind (mirrors_stampTasks _ _ _ _) fun pre =>
    mirrors_bind (mirrors_stampTasks _ _ _ _) fun main => ?_
  refine mirrors_bind (mirrors_stampTasks _ _ _ _) fun post => ?_
  refine mirrors_bind (mirrors_references _ _ _) fun refs => ?_
  refine mirrors_bind (mirrors_definitions _ _) fun roles => ?_
  exact mirrors_bind (mirrors_update _ _) fun _ => mirrors_pure _

theorem mirrors_playbook (origin : Option OriginId) (path : FilePath) :
    Mirrors (watchPlaybook site origin path) (loadPlaybook site origin path) := by
  refine mirrors_bind (mirrors_aside _) fun text => ?_
  cases Declaration.ofText Declaration.playbook text with
  | error e => exact mirrors_bind (mirrors_aside _) fun _ => mirrors_pure _
  | ok ds => exact mirrors_bind (mirrors_mapM (mirrors_play path origin) ds) fun _ => mirrors_pure _

theorem mirrors_direct (r : RoleId) : Mirrors (watchDirect site r) (directDependencies site r) := by
  refine mirrors_bind (mirrors_look _) fun g => ?_
  simp only
  cases (g.role r).directDependencies with
  | some known => exact mirrors_pure _
  | none =>
    refine mirrors_bind (mirrors_definitions _ _) fun found => ?_
    exact mirrors_bind (mirrors_update _ _) fun _ => mirrors_pure _

theorem mirrors_collect (n : Nat) (r : RoleId) (path : List String) :
    Mirrors (watchCollect site n r path) (collectDependencies site n r path) := by
  induction n generalizing r path with
  | zero => exact mirrors_throw _
  | succ n ih =>
    refine mirrors_bind (mirrors_look _) fun g => ?_
    cases (g.role r).allDependencies with
    | some known => exact mirrors_pure _
    | none =>
      refine mirrors_bind (mirrors_look _) fun g => mirrors_bind (mirrors_aside _) fun path => ?_
      refine mirrors_bind (mirrors_direct r) fun direct => ?_
      refine mirrors_bind
        (mirrors_concatEach (fun d => mirrors_bind (ih d path) fun _ => mirrors_pure _) _)
        fun found => ?_
      exact mirrors_bind (mirrors_update _ _) fun _ => mirrors_pure _

theorem mirrors_all (r : RoleId) : Mirrors (watchAll site r) (allDependencies site r) :=
  mirrors_bind (mirrors_aside _) fun _ => mirrors_collect _ _ _

theorem mirrors_defaultVars (r : RoleId) : Mirrors (watchDefaultVars site r) (defaultVars site r) :=
  mirrors_bind (mirrors_all r) fun _ => mirrors_bind (mirrors_look _) fun _ => mirrors_pure _

theorem mirrors_vars (play : Option PlayId) (task : Option TaskId) :
    Mirrors (watchVars site play task) (resolveVars site play task) := by
  refine mirrors_bind (mirrors_look _) fun g => ?_
  refine mirrors_bind (mirrors_foldlM (fun vars r => mirrors_bind (mirrors_defaultVars r) fun _ =>
    mirrors_pure _) _ _) fun vars => ?_
  refine mirrors_bind ?_ fun vars => ?_
  · cases play with
    | none => exact mirrors_pure _
    | some p =>
      refine mirrors_bind (mirrors_look _) fun g => mirrors_bind (mirrors_aside _) fun vars => ?_
      exact mirrors_bind (mirrors_look _) fun g => mirrors_pure _
  · cases task with
    | none => exact mirrors_pure _
    | some x => exact mirrors_bind (mirrors_look _) fun g => mirrors_pure _

theorem mirrors_taskVars (x : TaskId) : Mirrors (watchTaskVars site x) (taskVars site x) := by
  refine mirrors_bind (mirrors_look _) fun g => ?_
  cases (g.task x).cachedVars with
  | some vars => exact mirrors_pure _
  | none =>
    refine mirrors_bind (mirrors_vars _ _) fun vars => ?_
    exact mirrors_bind (mirrors_update _ _) fun _ => mirrors_pure _

theorem mirrors_module (t : Templater) (x : TaskId) (action : String) :
    Mirrors (watchModule site t x action) (renderModule site t x action) := by
  refine mirrors_bind (mirrors_look _) fun g => ?_
  generalize (g.task x).raw.get? action = value
  match value with
  | some (.object params) =>
    refine mirrors_bind (mirrors_taskVars x) fun vars => ?_
    exact mirrors_bind (mirrors_aside _) fun _ => mirrors_pure _
  | none | some .null | some (.bool _) | some (.number _) | some (.string _) | some (.array _) =>
    exact mirrors_pure _

theorem mirrors_text (t : Templater) (x : TaskId) (action : String) :
    Mirrors (watchText site t x action) (renderText site t x action) := by
  refine mirrors_bind (mirrors_look _) fun g => ?_
  generalize (g.task x).raw.get? action = value
  match value with
  | some (.string raw) =>
    refine mirrors_bind (mirrors_taskVars x) fun vars => ?_
    cases t.evaluate raw vars with
    | ok text => exact mirrors_pure _
    | error e => exact mirrors_bind (mirrors_aside _) fun _ => mirrors_pure _
  | none | some .null | some (.bool _) | some (.number _) | some (.object _) | some (.array _) =>
    exact mirrors_pure _

end Runlist
