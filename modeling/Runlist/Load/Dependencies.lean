import Runlist.Load.Playbook

/-!
# Dependencies of roles

The roles that a role depends on are loaded once and kept with it. The transitive ones are in
post-order: in front of each dependency stand its own.

* `directDependencies`, `allDependencies`: the dependencies of a role.
* `defaultVars`: the defaults of a role over those of its dependencies.
-/

namespace Runlist

/-- The names from a name that is met again on, and the name itself. -/
def cycleOf (path : List String) (name : String) : List String :=
  path.dropWhile (· != name) ++ [name]

/-- One more role on a path of dependencies; a role that is on it already closes a cycle. -/
def enterDependency (g : Graph) (role : RoleId) (path : List String) :
    Except LoadError (List String) :=
  let name := (g.role role).name
  if path.contains name then .error (.cyclicDependency (cycleOf path name))
  else .ok (path ++ [name])

/-- **The roles on which a role depends directly**, loaded at the first call. -/
def directDependencies (site : Site) (role : RoleId) : Load (List RoleId) := do
  let r := (← Load.graph).role role
  match r.directDependencies with
  | some known => return known
  | none =>
    let found ← loadDefinitions site r.play r.declared.dependencies
    Load.update fun g => g.modifyRole role fun r => { r with directDependencies := some found }
    return found

/-- The results of a step for each of some handles, one after the other. -/
def concatEach {m : Type → Type} [Monad m] {α β : Type} (f : α → m (List β)) :
    List α → m (List β)
  | [] => pure []
  | a :: rest => do
    let first ← f a
    let others ← concatEach f rest
    return first ++ others

/-- The roles on which a role depends, for a role that is reached along a path of names. The
number bounds the length of the path. -/
def collectDependencies (site : Site) : Nat → RoleId → List String → Load (List RoleId)
  | 0, _, _ => throw .tooDeep
  | n + 1, role, path => do
    match ((← Load.graph).role role).allDependencies with
    | some known => return known
    | none =>
      let path ← Load.ofExcept (enterDependency (← Load.graph) role path)
      let direct ← directDependencies site role
      let found ← concatEach (fun dep => do
        let below ← collectDependencies site n dep path
        return below ++ [dep]) direct
      Load.update fun g => g.modifyRole role fun r => { r with allDependencies := some found }
      return found

/-- The names of roles that the content of a file declares. -/
def Content.roleNames : Content → List String
  | .text s =>
    match Declaration.ofText Declaration.roleMeta s with
    | .ok m => m.dependencies.map (·.name)
    | .error _ => []
  | .binary => []

/-- The names of the roles that are met on paths of dependencies: those of loaded roles, and those
that a loaded role or a file declares. -/
def roleNames (site : Site) (s : Store) : List String :=
  (s.graph.roles.toList.flatMap fun r => r.name :: r.declared.dependencies.map (·.name)) ++
    site.disk.tree.files.flatMap fun (_, content) => content.roleNames

/-- A bound on the number of names on a path of dependencies. -/
def dependencyBound (site : Site) (s : Store) : Nat := (roleNames site s).length + 1

/-- **The roles on which a role depends**, directly and indirectly, in post-order. -/
def allDependencies (site : Site) (role : RoleId) : Load (List RoleId) := do
  collectDependencies site (dependencyBound site (← get)) role []

/-- **The defaults of a role** over those of its dependencies, later ones over earlier ones. -/
def defaultVars (site : Site) (role : RoleId) : Load Variables := do
  let found ← allDependencies site role
  let g ← Load.graph
  return (found ++ [role]).foldl (fun vars r => Variables.assign vars (g.role r).defaults) []

end Runlist
