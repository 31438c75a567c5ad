import Runlist.Expand.Bound
import Runlist.Expand.Expansion

/-!
# Projects

A project is a root directory with its playbooks, and the state of loading that belongs to them.

* `Project.parse`: the project of a root, from given playbooks or from all documents in it.
* `Project.listTasks`: every task that the project would run.
-/

namespace Runlist

/-- Why a project cannot be used. -/
inductive ProjectError where
  | load (error : LoadError)
  | expand (error : ExpandError)
  | io (path : FilePath) (error : IoError)
deriving Inhabited, Repr

/-- The wording of a cause. -/
def ProjectError.message : ProjectError → String
  | .load error => "Failed to load project: " ++ error.message
  | .expand error => "Failed to compile project: " ++ error.message
  | .io path error =>
    "Failed to read project directory " ++ path.quoted ++ ": " ++ error.message

/-- A project. -/
structure Project where
  root : FilePath
  config : ProjectConfig
  /-- The settings by which its roles are searched. -/
  loaderConfig : LoaderConfig
  mainPlaybook : Option Playbook
  otherPlaybooks : List Playbook
  store : Store
  templater : Templater

namespace Project

/-- What loading for the project reads. -/
def site (p : Project) (disk : Disk) : Site := ⟨disk, p.root, p.loaderConfig⟩

/-- The name, without extension, of the main playbook. -/
def mainStem : String := "site"

/-- The path is that of a main playbook. -/
def isMain (path : FilePath) : Bool := path.isYaml && path.fileStem? == some mainStem

/-- The project with a playbook; of several main ones the last counts. -/
def addPlaybook (p : Project) (playbook : Playbook) : Project :=
  if isMain playbook.path then { p with mainPlaybook := some playbook }
  else { p with otherPlaybooks := p.otherPlaybooks ++ [playbook] }

/-- The documents directly in a root, in the order of their names. -/
def rootDocuments (disk : Disk) (root : FilePath) : Except ProjectError (List FilePath) :=
  match disk.list root with
  | .error e => .error (.io root e)
  | .ok entries =>
    let files := entries.filter fun (_, node) => !node.isDir
    .ok ((files.map fun (name, _) => root.join name).filter FilePath.isYaml)

/-- The project with the playbooks of documents; one without plays is left out. -/
def addDocuments (disk : Disk) (p : Project) : List FilePath → Except ProjectError Unit × Project
  | [] => (.ok (), p)
  | path :: rest =>
    let (r, store) := (loadPlaybook (p.site disk) none path).run.run p.store
    let p := { p with store }
    match r with
    | .error e => (.error (.load e), p)
    | .ok playbook =>
      addDocuments disk (if playbook.isEmpty then p else p.addPlaybook playbook) rest

/-- **The project of a root**, and whether it could be parsed. Without given playbooks, every
document in the root is tried. -/
def parse (config : ProjectConfig) (base : LoaderConfig) (templater : Templater) (disk : Disk)
    (root : FilePath) (playbooks : List FilePath) : Except ProjectError Unit × Project :=
  let p : Project :=
    ⟨root, config, config.loaderConfig root base, none, [], Store.empty, templater⟩
  if playbooks.isEmpty then
    match rootDocuments disk root with
    | .error e => (.error e, p)
    | .ok paths => p.addDocuments disk paths
  else p.addDocuments disk (playbooks.map fun path => root.join path.text)

/-- The playbooks that count: the main one, or else all. -/
def playbooks (p : Project) : List Playbook :=
  match p.mainPlaybook with
  | some main => [main]
  | none => p.otherPlaybooks

/-- A step of expansion with nothing open yet. -/
def expand {α : Type} (p : Project) (step : Expand α) : Except ProjectError α × Project :=
  let (r, s) := step.run.run ⟨p.store, []⟩
  (r.mapError .expand, { p with store := s.store })

/-- **Every task that the project would run**, in the order in which they run. -/
def listTasks (p : Project) (disk : Disk) : Except ProjectError (List TaskId) × Project :=
  let site := p.site disk
  let bound := expansionBound site p.store
  p.expand (concatEach (expandPlaybook site p.templater bound) p.playbooks)

end Project

end Runlist
