import Runlist.Origin
import Runlist.Role
import Runlist.Task

/-!
# The graph of loaded entities

Entities are only ever added. A handle is a position, so that it stays valid; a handle without an
entity reads as an empty one.

* `Graph.addTask` and the like: a new entity and its handle.
* `Graph.provenance`, `Graph.describe`: the chain of origins, outermost first.
* `Graph.ancestors`: the tasks from which a task was expanded, nearest first.
* `Graph.adopt`: makes a task an ancestor of others.
-/

namespace Runlist

/-- Everything that has been loaded. -/
structure Graph where
  origins : Array Origin
  tasks : Array Task
  plays : Array Play
  roles : Array Role
deriving Inhabited

namespace Graph

/-- Nothing loaded. -/
def empty : Graph := ⟨#[], #[], #[], #[]⟩

/-- The origin of a handle. -/
def origin (g : Graph) (id : OriginId) : Origin := g.origins[id.index]?.getD default

/-- The task of a handle. -/
def task (g : Graph) (id : TaskId) : Task := g.tasks[id.index]?.getD default

/-- The play of a handle. -/
def play (g : Graph) (id : PlayId) : Play := g.plays[id.index]?.getD default

/-- The role of a handle. -/
def role (g : Graph) (id : RoleId) : Role := g.roles[id.index]?.getD default

/-- The graph with one more origin, and its handle. -/
def addOrigin (g : Graph) (o : Origin) : OriginId × Graph :=
  (⟨g.origins.size⟩, { g with origins := g.origins.push o })

/-- The graph with one more task, and its handle. -/
def addTask (g : Graph) (t : Task) : TaskId × Graph :=
  (⟨g.tasks.size⟩, { g with tasks := g.tasks.push t })

/-- The graph with one more play, and its handle. -/
def addPlay (g : Graph) (p : Play) : PlayId × Graph :=
  (⟨g.plays.size⟩, { g with plays := g.plays.push p })

/-- The graph with one more role, and its handle. -/
def addRole (g : Graph) (r : Role) : RoleId × Graph :=
  (⟨g.roles.size⟩, { g with roles := g.roles.push r })

/-- The graph with a task changed. -/
def modifyTask (g : Graph) (id : TaskId) (f : Task → Task) : Graph :=
  { g with tasks := g.tasks.modify id.index f }

/-- The graph with a play changed. -/
def modifyPlay (g : Graph) (id : PlayId) (f : Play → Play) : Graph :=
  { g with plays := g.plays.modify id.index f }

/-- The graph with a role changed. -/
def modifyRole (g : Graph) (id : RoleId) (f : Role → Role) : Graph :=
  { g with roles := g.roles.modify id.index f }

/-- **The play in which a task runs**: that of its role, if it belongs to one. -/
def taskPlay (g : Graph) (id : TaskId) : Option PlayId :=
  let t := g.task id
  match t.role with
  | some role => (g.role role).play
  | none => t.play

/-- The path of the file that declares a task. -/
def taskPath (g : Graph) (id : TaskId) : FilePath := (g.origin (g.task id).origin).path

/-- The origins around one, outermost first and itself last, up to a number of them. -/
def chain (g : Graph) : Nat → OriginId → List Origin
  | 0, _ => []
  | n + 1, id =>
    let o := g.origin id
    match o.parent with
    | some parent => chain g n parent ++ [o]
    | none => [o]

/-- **The chain of origins** that ends with the given one, outermost first. -/
def provenance (g : Graph) (id : OriginId) : List Origin := g.chain g.origins.size id

/-- The chain of origins as messages show it. -/
def describe (g : Graph) (id : OriginId) : String :=
  " -> ".intercalate ((g.provenance id).map Origin.text)

/-- The tasks from which a task was expanded, nearest first, up to a number of them. -/
def climb (g : Graph) : Nat → TaskId → List TaskId
  | 0, _ => []
  | n + 1, id =>
    match (g.task id).parent with
    | some parent => parent :: climb g n parent
    | none => []

/-- **The tasks from which a task was expanded**, nearest first. -/
def ancestors (g : Graph) (id : TaskId) : List TaskId := g.climb g.tasks.size id

/-- The outermost task of a chain that does not reach `parent`, or the one just below it; the
number bounds the steps. -/
def chainRoot (g : Graph) (parent : TaskId) : Nat → TaskId → TaskId
  | 0, id => id
  | n + 1, id =>
    match (g.task id).parent with
    | some next => if next = parent then id else chainRoot g parent n next
    | none => id

/-- The graph with `parent` put at the end of the chain of one task that does not reach it. -/
def adoptOne (g : Graph) (parent : TaskId) (id : TaskId) : Graph :=
  let root := g.chainRoot parent g.tasks.size id
  if root ≠ parent ∧ (g.task root).parent = none then
    g.modifyTask root fun t => { t with parent := some parent }
  else g

/-- **Makes a task an ancestor** of all the given ones. -/
def adopt (g : Graph) (ids : List TaskId) (parent : TaskId) : Graph :=
  ids.foldl (fun g id => g.adoptOne parent id) g

end Graph

end Runlist
