import Runlist.Load.Role

/-!
# Loading playbooks

* `loadPlaybook`: the plays of a document. A document that is no playbook gives an empty one,
  since not every document of a project is one.
-/

namespace Runlist

/-- The roles that references name, in their order. -/
def loadDefinitions (site : Site) (play : Option PlayId) (definitions : List RoleDefinition) :
    Load (List RoleId) :=
  definitions.mapM fun d => loadRole site (some d.origin) play d.name

/-- A declared play as an entity without its tasks and roles, and its origin. -/
def Graph.stampPlay (path : FilePath) (origin : Option OriginId) (g : Graph) (d : PlayDeclaration) :
    (PlayId × OriginId) × Graph :=
  let (origin, g) := g.addOrigin ⟨.play, path, d.range, d.name, origin⟩
  let (id, g) := g.addPlay {
    name := d.name, hosts := d.hosts, roleDefinitions := [], preTasks := [], mainTasks := []
    postTasks := [], vars := d.vars, varsFiles := d.varsFiles, raw := d.raw, roles := [], origin }
  ((id, origin), g)

/-- A declared play as an entity, its roles loaded after its tasks are in the graph. -/
def loadPlay (site : Site) (path : FilePath) (origin : Option OriginId) (d : PlayDeclaration) :
    Load PlayId := do
  let (id, playOrigin) ← Load.change fun g => g.stampPlay path origin d
  let stamp := fun (declarations : List TaskDeclaration) => Load.change fun g =>
    g.stampTasks ⟨path, none, some id⟩ (some playOrigin) none declarations
  let preTasks ← stamp d.preTasks
  let mainTasks ← stamp d.mainTasks
  let postTasks ← stamp d.postTasks
  let roleDefinitions ← Load.change fun g => g.stampReferences path playOrigin d.roles
  let roles ← loadDefinitions site (some id) roleDefinitions
  Load.update fun g => g.modifyPlay id fun p =>
    { p with preTasks, mainTasks, postTasks, roleDefinitions, roles }
  return id

/-- **The plays of a document.** -/
def loadPlaybook (site : Site) (origin : Option OriginId) (path : FilePath) : Load Playbook := do
  let text ← readFile site path
  match Declaration.ofText Declaration.playbook text with
  | .error e =>
    Load.note (.notPlaybook path e)
    return ⟨path, []⟩
  | .ok declarations =>
    let plays ← declarations.mapM (loadPlay site path origin)
    return ⟨path, plays⟩

end Runlist
