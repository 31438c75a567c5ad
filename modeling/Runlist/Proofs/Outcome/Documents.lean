import Runlist.Proofs.Load.Names

/-!
# Outcomes on the documents

What an expansion ends with, failures included, read off the documents: the state is no part of it,
and nothing is remembered. Every node carries what a failure shows of it: the name of a role, and
the origins around a directive.

* `Site.layers`: the roles on which a role depends, or why they cannot be found.
* `Site.resolve`: variables, or why they cannot be resolved.
* `TaskNode`, `RoleNode`, `PlayNode`, `PlaybookNode`: what is expanded, and where it stands.
* `taskOutcome`, `roleOutcome`, `playOutcome`, `playbookOutcome`: **the leaves of a node, or the
  failure.**
-/

namespace Runlist

/-! ## Dependencies -/

/-- One more name on a path of dependencies. -/
def enterName (path : List String) (name : String) : Except LoadError (List String) :=
  if path.contains name then .error (.cyclicDependency (cycleOf path name))
    else .ok (path ++ [name])

/-- The roles of some names, without their tasks. -/
def Site.readHeads (site : Site) (names : List String) : Except LoadError (List NamedHead) :=
  names.mapM fun name => return (← site.readNamed name .main).head

/-- A role after those on which it depends, for a role that is reached along a path of names. The
number bounds the length of the path. -/
def Site.layersOn (site : Site) : Nat → List String → NamedHead → Except LoadError (List NamedHead)
  | 0, _, _ => .error .tooDeep
  | n + 1, path, r => do
    let path ← enterName path r.name
    let direct ← site.readHeads r.dependencies
    let below ← concatEach (site.layersOn n path) direct
    return below ++ [r]

/-- **A role after those on which it depends**, as their defaults are laid over one another. A path
of dependencies never gets longer than the names that are declared, and the role's own. -/
def Site.layers (site : Site) (r : NamedHead) : Except LoadError (List NamedHead) :=
  site.layersOn (site.declaredNames.length + 2) [] r

/-! ## Variables -/

/-- What a play declares besides its tasks, its roles with their names. -/
structure PlayPlace where
  path : FilePath
  vars : Variables
  varsFiles : List String
  roles : List NamedHead
deriving Inhabited

/-- Where a task stands: in a play and in a role, which may be one of the play's own. -/
structure Place where
  play : Option PlayPlace
  role : Option NamedHead
  listed : Bool
deriving Inhabited

/-- The files of variables that a play names. -/
def Site.playVars (site : Site) : Option PlayPlace → Except LoadError (List Variables)
  | none => .ok []
  | some p => site.readVarsFiles p.path.directory p.varsFiles

/-- What a play gives its tasks, besides defaults: its variables, its files and its roles'
variables. -/
def PlayPlace.sources (files : List Variables) : Option PlayPlace → List Variables
  | none => []
  | some p => p.vars :: files ++ p.roles.map (·.vars)

/-- **Variables**: the defaults of roles, each after those it depends on, what a play gives, and
more. -/
def Site.resolve (site : Site) (roles : List NamedHead) (play : Option PlayPlace)
    (more : List Variables) : Except LoadError Variables := do
  let layers ← concatEach site.layers roles
  let files ← site.playVars play
  return Variables.ofSources (layers.map (·.defaults) ++ PlayPlace.sources files play ++ more)

/-- The roles whose defaults count. -/
def Place.roles (place : Place) : List NamedHead :=
  (place.play.map (·.roles)).getD [] ++ if place.listed then [] else place.role.toList

/-- **The variables of a task** that declares some of its own. -/
def Place.resolve (site : Site) (place : Place) (own : Variables) : Except LoadError Variables :=
  site.resolve place.roles place.play (place.role.toList.map (·.vars) ++ [own])

/-! ## Nodes -/

/-- **A task**, as it is seen from outside: where it stands, what it declares, its origin and those
around it, itself first, and the tasks of its block. -/
structure TaskNode where
  place : Place
  path : FilePath
  name : Option String
  vars : Variables
  raw : Fields
  trail : List Origin
  block : List TaskNode
deriving Inhabited

/-- **A role**: the play in which it stands, what it declares, its references to other roles, each
with its trail, and its tasks. -/
structure RoleNode where
  play : Option PlayPlace
  head : NamedHead
  references : List (String × List Origin)
  tasks : List TaskNode

/-- **A play**: what it declares, the playbook that it imports, its trail, its tasks and its
roles. -/
structure PlayNode where
  place : PlayPlace
  target : Option String
  trail : List Origin
  tasks : List TaskNode
  roles : List RoleNode

/-- The plays of a document. -/
structure PlaybookNode where
  path : FilePath
  plays : List PlayNode

mutual
/-- A declared task, in its place. -/
def TaskDeclaration.node (place : Place) (path : FilePath) (around : List Origin) :
    TaskDeclaration → TaskNode
  | ⟨range, name, vars, raw, block⟩ =>
    ⟨place, path, name, vars, raw, ⟨.task, path, range, name, none⟩ :: around,
      TaskDeclaration.nodes place path (⟨.task, path, range, name, none⟩ :: around) block⟩

/-- Declared tasks, in their place. -/
def TaskDeclaration.nodes (place : Place) (path : FilePath) (around : List Origin) :
    List TaskDeclaration → List TaskNode
  | [] => []
  | d :: ds => d.node place path around :: TaskDeclaration.nodes place path around ds
end

theorem TaskDeclaration.nodes_eq (place : Place) (path : FilePath) (around : List Origin)
    (ds : List TaskDeclaration) :
    TaskDeclaration.nodes place path around ds = ds.map (·.node place path around) := by
  induction ds with
  | nil => rfl
  | cons d ds ih => rw [TaskDeclaration.nodes, List.map_cons, ih]

/-- A role that was read, in its place. -/
def NamedRole.node (play : Option PlayPlace) (listed : Bool) (around : List Origin)
    (r : NamedRole) : RoleNode :=
  let trail := ⟨.role, r.dir, .unknown, some r.name, none⟩ :: around
  { play, head := r.head
    references := r.references.map fun (name, origins) => (name, origins ++ trail)
    tasks := r.tasks.map fun (path, d) => d.node ⟨play, some r.head, listed⟩ path trail }

/-- A declared play, in its place, with its roles that were read. -/
def PlayDeclaration.node (path : FilePath) (around : List Origin) (d : PlayDeclaration)
    (roles : List NamedRole) : PlayNode :=
  let place : PlayPlace := ⟨path, d.vars, d.varsFiles, roles.map (·.head)⟩
  let trail := ⟨.play, path, d.range, d.name, none⟩ :: around
  { place, target := d.importTarget?, trail
    tasks :=
      (d.preTasks ++ d.mainTasks ++ d.postTasks).map (·.node ⟨some place, none, false⟩ path trail)
    roles := List.zipWith (fun ref role => role.node (some place) true
      (⟨.roleDefinition, path, ref.range, some ref.name, none⟩ :: trail)) d.roles roles }

/-- A declared play, its roles read from their files. -/
def Site.readPlay (site : Site) (path : FilePath) (around : List Origin) (d : PlayDeclaration) :
    Except LoadError PlayNode := do
  let roles ← (d.roles.map (·.name)).mapM (site.readNamed · .main)
  return d.node path around roles

/-- The plays of a file. -/
def Site.readPlays (site : Site) (path : FilePath) (around : List Origin) :
    Except LoadError (List PlayNode) :=
  site.readPlaybook path >>= List.mapM (site.readPlay path around)

/-- The roles on which a role depends directly. -/
def RoleNode.dependencies (site : Site) (r : RoleNode) : Except LoadError (List RoleNode) :=
  r.references.mapM fun (name, trail) =>
    return (← site.readNamed name .main).node r.play false trail

namespace TaskNode

/-- The first of some actions that a task declares. -/
def action? (x : TaskNode) (actions : List String) : Option String :=
  actions.find? fun action => x.raw.has action

/-- What a failure of a directive shows of its origins, outermost first. -/
def chain (x : TaskNode) : List Origin := x.trail.reverse

/-- What is seen of a task in a result. -/
def leaf (x : TaskNode) : Leaf := ⟨x.path, x.name, x.raw⟩

end TaskNode

/-! ## Outcomes -/

/-- The cause without handles: a chain of origins is what is seen of it. -/
def ExpandError.bare : ExpandError → ExpandError
  | .includeFailed chain target source => .includeFailed (chain.map Origin.bare) target source.bare
  | e => e

/-- The failure of a directive. One that names a directive inside, or a cycle, stays as it is. -/
def ExpandError.within (chain : List Origin) (target : String) : ExpandError → ExpandError
  | .includeFailed chain target source => .includeFailed chain target source
  | .cyclicInclude chain => .cyclicInclude chain
  | e => .includeFailed chain target e

/-- A step inside a target; one that is open already closes a cycle. -/
def Site.inside {α : Type} (site : Site) (opened : List String) (target : Target)
    (step : List String → Except ExpandError α) : Except ExpandError α :=
  let key := target.key site.disk
  if opened.contains key then .error (.cyclicInclude (cycleOf opened key))
    else step (opened ++ [key])

/-- The rendered value of a directive; a text by itself is the parameter `textKey`. -/
def TaskNode.value (site : Site) (t : Templater) (textKey action : String) (x : TaskNode) :
    Except ExpandError Json :=
  match x.raw.get? action with
  | some (.string text) => do
    let vars ← (x.place.resolve site x.vars).mapError .load
    match t.evaluate text vars with
    | .ok rendered => return .object [(textKey, .string rendered)]
    | .error e => throw (.invalidParams action (.unrendered text e))
  | some (.object params) => do
    let vars ← (x.place.resolve site x.vars).mapError .load
    return .object (renderedParams t vars params)
  | _ => throw (.invalidParams action .notParams)

/-- **The parameters of an include.** -/
def TaskNode.params {α : Type} (site : Site) (t : Templater) (read : Json → Except ShapeError α)
    (textKey action : String) (x : TaskNode) : Except ExpandError α := do
  let value ← x.value site t textKey action
  (read value).mapError fun e => .invalidParams action (.shape e)

/-- A directive that includes a file of tasks; `outcome` is that of each of them. -/
def TaskNode.fileOutcome (site : Site) (t : Templater)
    (outcome : List String → TaskNode → Except ExpandError (List Leaf)) (opened : List String)
    (action : String) (x : TaskNode) : Except ExpandError (List Leaf) := do
  let params ← (x.params site t TaskInclude.ofJson "file" action).mapError (.within x.chain action)
  let path := x.path.directory.join params.file
  (site.inside opened (.file path) fun opened => do
    let ds ← (site.readTasks path).mapError .load
    concatEach (outcome opened) (ds.map (·.node x.place path x.trail))).mapError
      (.within x.chain path.text)

/-- A directive that includes a role; `outcome` is that of the role. -/
def TaskNode.roleOutcome (site : Site) (t : Templater)
    (outcome : List String → RoleNode → Except ExpandError (List Leaf)) (opened : List String)
    (action : String) (x : TaskNode) : Except ExpandError (List Leaf) := do
  let params ← (x.params site t RoleInclude.ofJson "name" action).mapError (.within x.chain action)
  (site.inside opened (.role params.name params.selection.tasksFile) fun opened => do
    let role ← (site.readNamed params.name params.selection).mapError .load
    outcome opened (role.node x.place.play false x.trail)).mapError
      (.within x.chain ("role " ++ params.name))

mutual
/-- **The leaves of a task**, or the failure. -/
def taskOutcome (site : Site) (t : Templater) :
    Nat → List String → TaskNode → Except ExpandError (List Leaf)
  | 0, _, _ => throw .tooDeep
  | n + 1, opened, x =>
    match x.block with
    | [] =>
      match x.action? Action.taskIncludes with
      | some action => x.fileOutcome site t (taskOutcome site t n) opened action
      | none =>
        match x.action? Action.roleIncludes with
        | some action =>
          x.roleOutcome site t (fun opened r => roleOutcome site t n opened [] r) opened action
        | none => return [x.leaf]
    | first :: rest => concatEach (taskOutcome site t n opened) (first :: rest)

/-- **The leaves of a role** that is reached along a path of dependencies, or the failure. -/
def roleOutcome (site : Site) (t : Templater) :
    Nat → List String → List String → RoleNode → Except ExpandError (List Leaf)
  | 0, _, _, _ => throw .tooDeep
  | n + 1, opened, path, r => do
    let path ← (enterName path r.head.name).mapError .load
    let direct ← (r.dependencies site).mapError .load
    let below ← concatEach (roleOutcome site t n opened path) direct
    let own ← concatEach (taskOutcome site t n opened) r.tasks
    return below ++ own
end

mutual
/-- **The leaves of a play**, or the failure. -/
def playOutcome (site : Site) (t : Templater) :
    Nat → List String → PlayNode → Except ExpandError (List Leaf)
  | 0, _, _ => throw .tooDeep
  | n + 1, opened, p =>
    match p.target with
    | some target =>
      let path := site.root.join target
      (do
        let plays ← (site.readPlays path p.trail).mapError .load
        playbookOutcome site t n opened ⟨path, plays⟩ : Except ExpandError (List Leaf)).mapError
          (.within p.trail.reverse path.text)
    | none => do
      let tasks ← concatEach (taskOutcome site t n opened) p.tasks
      let roles ← concatEach (roleOutcome site t n opened []) p.roles
      return tasks ++ roles

/-- **The leaves of a playbook**, or the failure. -/
def playbookOutcome (site : Site) (t : Templater) :
    Nat → List String → PlaybookNode → Except ExpandError (List Leaf)
  | 0, _, _ => throw .tooDeep
  | n + 1, opened, pb =>
    site.inside opened (.file pb.path) fun opened =>
      concatEach (playOutcome site t n opened) pb.plays
end

end Runlist
