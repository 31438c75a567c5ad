import Runlist.Load.Selection
import Runlist.Load.Tasks
import Runlist.Load.VarsFile

/-!
# Loading roles

A role is searched in the directory `roles` of the root and then in the configured directories;
the directory found first is kept for all later loads of that name.

* `Site.roleCandidates`, `Site.findRole`: where a role is searched.
* `Store.locate`: where it is found.
* `loadRoleWith`, `loadRole`: a role with a selection of its files.
-/

namespace Runlist

/-- Where a role is searched, in order. -/
def Site.roleCandidates (site : Site) (name : String) : List FilePath :=
  (site.root.join "roles").join name :: site.config.rolesPath.map fun dir => dir.join name

/-- The first candidate that is a directory. -/
def Site.findRole (site : Site) (name : String) : Except LoadError FilePath :=
  let candidates := site.roleCandidates name
  match candidates.find? site.disk.isDir with
  | some path => .ok path
  | none => .error (.roleNotFound name candidates)

/-- Where the role of a name is found: in the directory that is known, or by a search. -/
def Store.locate (site : Site) (s : Store) (name : String) : Except LoadError FilePath :=
  match s.roleDir? name with
  | some dir => .ok dir
  | none => site.findRole name

/-- A reference to a role as part of the graph. -/
def Graph.stampReference (path : FilePath) (origin : OriginId) (g : Graph) (r : RoleReference) :
    RoleDefinition × Graph :=
  let (id, g) := g.addOrigin ⟨.roleDefinition, path, r.range, some r.name, some origin⟩
  (⟨r.name, r.vars, id⟩, g)

/-- References to roles as parts of the graph, in their order. -/
def Graph.stampReferences (path : FilePath) (origin : OriginId) (g : Graph) :
    List RoleReference → List RoleDefinition × Graph
  | [] => ([], g)
  | r :: rest =>
    let (first, g) := g.stampReference path origin r
    let (others, g) := Graph.stampReferences path origin g rest
    (first :: others, g)

/-- What a role declares about itself as part of the graph. -/
def Graph.stampMeta (path : FilePath) (origin : OriginId) (g : Graph) (m : MetaDeclaration) :
    RoleMeta × Graph :=
  let (id, g) := g.addOrigin ⟨.roleMeta, path, m.range, none, some origin⟩
  let (dependencies, g) := g.stampReferences path id m.dependencies
  (⟨some id, dependencies⟩, g)

/-- The variables of one of a role's files; a file that has none is noted and passed over. -/
def loadRoleVars (site : Site) (path : FilePath) : Load Variables := do
  match readDeclared site Declaration.vars path with
  | .ok vars => return vars
  | .error e =>
    Load.note (.ignoredVariables path e)
    return []

/-- Loads one file of a role, given by its folder and its names below the folder. -/
def loadRoleFile (site : Site) (selection : RoleSelection) (id : RoleId) (folder : String)
    (file : List String) (path : FilePath) : Load Unit := do
  let role := (← Load.graph).role id
  match folder with
  | "tasks" =>
    if RoleSelection.selects selection.tasksFile file then
      let tasks ← loadTasksIn site (some role.origin) (some id) role.play path
      Load.update fun g => g.modifyRole id fun r => { r with tasks := r.tasks ++ tasks }
  | "defaults" =>
    if RoleSelection.selects selection.defaultsFile file then
      let vars ← loadRoleVars site path
      Load.update fun g => g.modifyRole id fun r => { r with defaults := r.defaults.assign vars }
  | "vars" =>
    if RoleSelection.selects selection.varsFile file then
      let vars ← loadRoleVars site path
      Load.update fun g => g.modifyRole id fun r => { r with vars := r.vars.assign vars }
  | "meta" =>
    if RoleSelection.selects RoleSelection.mainFile file then
      match readDeclared site Declaration.roleMeta path with
      | .ok declaration =>
        let declared ← Load.change fun g => g.stampMeta path role.origin declaration
        Load.update fun g => g.modifyRole id fun r => { r with declared }
      | .error e => Load.note (.ignoredMeta path e)
  | _ => return ()

/-- The path of a file below a directory, given by its names. -/
def FilePath.below (dir : FilePath) (names : List String) : FilePath :=
  names.foldl FilePath.join dir

/-- Loads the selected files of a role in the order of their paths. -/
def loadRoleFiles (site : Site) (selection : RoleSelection) (id : RoleId) (dir : FilePath) :
    Load Unit := do
  match site.disk.filesBelow dir with
  | .error e => throw (.walk dir e)
  | .ok files =>
    files.forM fun names =>
      match names with
      | [] => return ()
      | folder :: file => loadRoleFile site selection id folder file (dir.below names)

/-- **A role with a selection of its files**, in the scope of a play. -/
def loadRoleWith (site : Site) (origin : Option OriginId) (play : Option PlayId) (name : String)
    (selection : RoleSelection) : Load RoleId := do
  let dir ← Load.ofExcept ((← get).locate site name)
  let id ← Load.change fun g =>
    let (origin, g) := g.addOrigin ⟨.role, dir, .unknown, some name, origin⟩
    g.addRole {
      name, path := dir, isPublic := selection.isPublic.getD false, origin, play
      tasks := [], defaults := [], vars := [], declared := .empty
      directDependencies := none, allDependencies := none }
  loadRoleFiles site selection id dir
  modify fun s => s.addRoleDir name dir
  return id

/-- A role with its main files. -/
def loadRole (site : Site) (origin : Option OriginId) (play : Option PlayId) (name : String) :
    Load RoleId :=
  loadRoleWith site origin play name .main

end Runlist
