import Runlist.FilePath
import Runlist.Json.Shape

/-!
# Settings

* `LoaderConfig`: where roles are searched, after the directory `roles` of the root.
* `ProjectConfig`: the settings of a project, and the loader's settings that follow from them.
* `searchPath`: the entries of a list of directories between colons.
-/

namespace Runlist

/-- Where roles are searched. -/
structure LoaderConfig where
  rolesPath : List FilePath
deriving DecidableEq, Inhabited, Repr

/-- The settings of a project. -/
structure ProjectConfig where
  inventory : List FilePath
  rolesPath : List FilePath
deriving DecidableEq, Inhabited, Repr

/-- The directories of a list between colons, blanks around them and empty ones dropped. -/
def searchPath (text : String) : List FilePath :=
  ((FilePath.splitAt ':' text.toList).map Text.trim).filterMap fun entry =>
    if entry.isEmpty then none else some ⟨String.ofList entry⟩

/-- The variables of the environment that list directories of roles, in their order. -/
def rolesPathVariables : List String := ["DEFAULT_ROLES_PATH", "ANSIBLE_ROLES_PATH"]

namespace LoaderConfig

/-- No settings. -/
def empty : LoaderConfig := ⟨[]⟩

/-- The settings with one more directory. -/
def addRolesPath (config : LoaderConfig) (path : FilePath) : LoaderConfig :=
  ⟨config.rolesPath ++ [path]⟩

/-- The settings that an environment gives. -/
def ofEnvironment (lookup : String → Option String) : LoaderConfig :=
  ⟨rolesPathVariables.flatMap fun name => ((lookup name).map searchPath).getD []⟩

/-- Reads settings. -/
def ofJson : Json → Except ShapeError LoaderConfig
  | .object entries => do
    let rolesPath ← Shape.field entries "roles_path" [] Shape.readPaths
    return ⟨rolesPath.map (⟨·⟩)⟩
  | .array items => do
    let rolesPath ← Shape.place items 0 [] Shape.readPaths
    Shape.checkLength items 1
    return ⟨rolesPath.map (⟨·⟩)⟩
  | other => .error (.unexpected other (.record "LoaderConfig"))

/-- The settings as a value. -/
def toJson (config : LoaderConfig) : Json :=
  .object [("roles_path", .array (config.rolesPath.map fun p => .string p.text))]

end LoaderConfig

namespace ProjectConfig

/-- No settings. -/
def empty : ProjectConfig := ⟨[], []⟩

/-- The settings with the directories of a list between colons added. -/
def addRolesPath (config : ProjectConfig) (text : String) : ProjectConfig :=
  { config with rolesPath := config.rolesPath ++ searchPath text }

/-- The settings with one more inventory. -/
def addInventory (config : ProjectConfig) (path : FilePath) : ProjectConfig :=
  { config with inventory := config.inventory ++ [path] }

/-- **The loader's settings**: the given ones, and then the project's own directories, taken from
the root where they are relative. -/
def loaderConfig (config : ProjectConfig) (root : FilePath) (base : LoaderConfig) : LoaderConfig :=
  ⟨base.rolesPath ++ config.rolesPath.map fun p => root.join p.text⟩

/-- Reads settings. -/
def ofJson : Json → Except ShapeError ProjectConfig
  | .object entries => do
    let inventory ← Shape.field entries "inventory" [] Shape.readPaths
    let rolesPath ← Shape.field entries "roles_path" [] Shape.readPaths
    return ⟨inventory.map (⟨·⟩), rolesPath.map (⟨·⟩)⟩
  | .array items => do
    let inventory ← Shape.place items 0 [] Shape.readPaths
    let rolesPath ← Shape.place items 1 [] Shape.readPaths
    Shape.checkLength items 2
    return ⟨inventory.map (⟨·⟩), rolesPath.map (⟨·⟩)⟩
  | other => .error (.unexpected other (.record "ProjectConfig"))

/-- The settings as a value. -/
def toJson (config : ProjectConfig) : Json :=
  .object [("inventory", .array (config.inventory.map fun p => .string p.text)),
    ("roles_path", .array (config.rolesPath.map fun p => .string p.text))]

end ProjectConfig

end Runlist
