import Runlist.Config
import Runlist.Graph
import Runlist.Notice

/-!
# The state of loading

* `Site`: what loading reads and never changes: the disk, the root and the settings.
* `Store`: what loading adds to: the graph, the directories of roles, the notices.
* `Load`: a step of loading, which keeps its additions when it fails.
-/

namespace Runlist

/-- What loading reads: the disk, the root of the project, and the settings. -/
structure Site where
  disk : Disk
  root : FilePath
  config : LoaderConfig

/-- What loading adds to. -/
structure Store where
  graph : Graph
  /-- The directories of the roles that have been loaded, by name; the latest of a name counts. -/
  roleDirs : List (String × FilePath)
  /-- What was passed over so far, in order. -/
  notices : List Notice
deriving Inhabited

/-- The state before anything is loaded. -/
def Store.empty : Store := ⟨Graph.empty, [], []⟩

/-- The directory of a role that has been loaded. -/
def Store.roleDir? (s : Store) (name : String) : Option FilePath := s.roleDirs.lookup name

/-- The state with the directory of a role, in place of one that is known. -/
def Store.addRoleDir (s : Store) (name : String) (path : FilePath) : Store :=
  { s with roleDirs := (name, path) :: s.roleDirs }

/-- A step of loading. What it has added stays when it fails. -/
abbrev Load := ExceptT LoadError (StateM Store)

namespace Load

/-- A result as a step that changes nothing. -/
def ofExcept {α : Type} : Except LoadError α → Load α
  | .ok a => return a
  | .error e => throw e

/-- The graph so far. -/
def graph : Load Graph := do return (← get).graph

/-- A change of the graph that gives a result. -/
def change {α : Type} (f : Graph → α × Graph) : Load α := do
  let s ← get
  let (a, g) := f s.graph
  set { s with graph := g }
  return a

/-- A change of the graph. -/
def update (f : Graph → Graph) : Load Unit := modify fun s => { s with graph := f s.graph }

/-- Notes what is passed over. -/
def note (notice : Notice) : Load Unit :=
  modify fun s => { s with notices := s.notices ++ [notice] }

end Load

end Runlist
