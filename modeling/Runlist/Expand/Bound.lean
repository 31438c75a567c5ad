import Runlist.Load.Dependencies

/-!
# How deep expansions can be nested

A directive loads its target afresh, under any name and any spelling. But a tree of files declares
finitely much, so that the targets that can be told apart are finitely many: the files, and one
role for each task in each scope that it can have.

* `Site.declared`: what the files of a site declare.
* `taskBound`, `playBound`, `headBound`: how many tasks, plays and roles differ.
* `targetBound`: how many targets differ.
* `expansionBound`: a bound on nested expansions.
-/

namespace Runlist

/-! ## What files declare -/

/-- What a reading gives of a file. -/
def Content.read? {α : Type} (read : Document → Declaration.Decoded α) : Content → Option α
  | .text s => (Declaration.ofText read s).toOption
  | .binary => none

/-- What a reading gives of the files of a site. -/
def Site.declared {α : Type} (site : Site) (read : Document → Declaration.Decoded α) : List α :=
  site.disk.tree.files.filterMap fun (_, content) => content.read? read

mutual
/-- A declared task and those in its block. -/
def TaskDeclaration.all : TaskDeclaration → List TaskDeclaration
  | ⟨range, name, vars, raw, block⟩ =>
    ⟨range, name, vars, raw, block⟩ :: TaskDeclaration.allOf block

/-- Declared tasks and those in their blocks. -/
def TaskDeclaration.allOf : List TaskDeclaration → List TaskDeclaration
  | [] => []
  | d :: ds => d.all ++ TaskDeclaration.allOf ds
end

/-- The tasks of a play. -/
def PlayDeclaration.tasks (d : PlayDeclaration) : List TaskDeclaration :=
  d.preTasks ++ d.mainTasks ++ d.postTasks

/-- The plays that files declare. -/
def Site.declaredPlays (site : Site) : List PlayDeclaration :=
  (site.declared Declaration.playbook).flatten

/-- The tasks that files declare, in lists of their own and in plays, with those of blocks. -/
def Site.declaredTasks (site : Site) : List TaskDeclaration :=
  TaskDeclaration.allOf
    ((site.declared Declaration.taskList).flatten ++
      site.declaredPlays.flatMap PlayDeclaration.tasks)

/-! ## Bounds -/

/-- A bound on the tasks that differ: those that are loaded, and those that files declare. -/
def taskBound (site : Site) (s : Store) : Nat := s.graph.tasks.size + site.declaredTasks.length

/-- A bound on the plays that differ: those that are loaded, and for each playbook that a play
imports those that files declare. -/
def playBound (site : Site) (s : Store) : Nat :=
  let declared := site.declaredPlays.length
  s.graph.plays.size + (s.graph.plays.size + declared) * declared

/-- A bound on the roles that differ in variables and dependencies: those that are loaded, and what
a choice of files can make of a role. Each file adds to its defaults or its variables, or says on
what it depends. -/
def headBound (site : Site) (s : Store) : Nat :=
  let files := site.disk.tree.files.length
  s.graph.roles.size + Nat.pow (3 * (files + 1)) files

/-- A bound on the targets that differ: the files, and the role that a task asks for with the
variables that it has in a play and a role, by each of its actions. -/
def targetBound (site : Site) (s : Store) : Nat :=
  let scopes := (playBound site s + 1) * ((headBound site s + 1) * 2)
  site.disk.tree.files.length + scopes * (taskBound site s * Action.roleIncludes.length)

/-- **A bound on nested expansions.** Each target that is open adds a playbook with its play, the
roles on a path of dependencies and the tasks of nested blocks. -/
def expansionBound (site : Site) (s : Store) : Nat :=
  (targetBound site s + 1) * (taskBound site s + dependencyBound site s + 3)

end Runlist
