import Runlist.Store

/-!
# Loading files of tasks

* `Graph.stampTasks`: declared tasks as entities of a graph.
* `loadTasks`: the tasks of a file.
-/

namespace Runlist

/-- What the tasks of one file have in common. -/
structure TaskContext where
  path : FilePath
  role : Option RoleId
  play : Option PlayId
deriving Inhabited

mutual
/-- A declared task and the tasks of its block as entities, the task first. -/
def Graph.stampTask (context : TaskContext) (origin : Option OriginId) (parent : Option TaskId)
    (g : Graph) : TaskDeclaration → TaskId × Graph
  | ⟨range, name, vars, raw, block⟩ =>
    let (origin, g) := g.addOrigin ⟨.task, context.path, range, name, origin⟩
    let (id, g) := g.addTask
      { name, block := [], vars, raw, origin, parent, role := context.role, play := context.play,
        cachedVars := none }
    let (children, g) := Graph.stampTasks context (some origin) (some id) g block
    (id, g.modifyTask id fun t => { t with block := children })

/-- **Declared tasks as entities** of a graph, in their order. -/
def Graph.stampTasks (context : TaskContext) (origin : Option OriginId) (parent : Option TaskId)
    (g : Graph) : List TaskDeclaration → List TaskId × Graph
  | [] => ([], g)
  | declaration :: rest =>
    let (first, g) := Graph.stampTask context origin parent g declaration
    let (others, g) := Graph.stampTasks context origin parent g rest
    (first :: others, g)
end

/-- The text of a file. -/
def readFile (site : Site) (path : FilePath) : Load String :=
  match site.disk.read path with
  | .ok text => return text
  | .error e => throw (.io path e)

/-- **The tasks of a file**, in the scope of a role or a play. Nothing is added when the file
cannot be read or does not declare tasks. -/
def loadTasksIn (site : Site) (origin : Option OriginId) (role : Option RoleId)
    (play : Option PlayId) (path : FilePath) : Load (List TaskId) := do
  let text ← readFile site path
  match Declaration.ofText Declaration.taskList text with
  | .error e => throw (.taskDecode path e)
  | .ok declarations =>
    Load.change fun g => g.stampTasks ⟨path, role, play⟩ origin none declarations

/-- The tasks of a file, in the scope of a role. -/
def loadTasks (site : Site) (origin : Option OriginId) (role : Option RoleId) (path : FilePath) :
    Load (List TaskId) :=
  loadTasksIn site origin role none path

end Runlist
