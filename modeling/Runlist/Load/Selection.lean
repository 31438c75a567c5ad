import Runlist.FilePath

/-!
# Which files of a role are loaded

A role has folders of tasks, defaults and variables, and of each folder one file is loaded, or
two that differ in their extensions only.

* `RoleSelection`: the names of the files.
* `RoleSelection.selects`: a file is the one that a name selects.
-/

namespace Runlist

/-- The names of the files of a role that are loaded. -/
structure RoleSelection where
  tasksFile : String
  defaultsFile : String
  varsFile : String
  isPublic : Option Bool
deriving DecidableEq, Inhabited, Repr

namespace RoleSelection

/-- The name of the file that is loaded unless another is selected. -/
def mainFile : String := "main"

/-- The main file of every folder. -/
def main : RoleSelection := ⟨mainFile, mainFile, mainFile, none⟩

/-- The name that is given, unless there is none or it is empty. -/
def given (name : Option String) (otherwise : String) : String :=
  match name with
  | some name => if name = "" then otherwise else name
  | none => otherwise

/-- The selection with another file of tasks. -/
def tasksFrom (s : RoleSelection) (name : Option String) : RoleSelection :=
  { s with tasksFile := given name s.tasksFile }

/-- The selection with another file of defaults. -/
def defaultsFrom (s : RoleSelection) (name : Option String) : RoleSelection :=
  { s with defaultsFile := given name s.defaultsFile }

/-- The selection with another file of variables. -/
def varsFrom (s : RoleSelection) (name : Option String) : RoleSelection :=
  { s with varsFile := given name s.varsFile }

/-- The selection of a role that is public or not. -/
def withPublic (s : RoleSelection) (isPublic : Option Bool) : RoleSelection := { s with isPublic }

/-- A name without the extension of a document. -/
def stem (name : String) : FilePath :=
  let path : FilePath := ⟨name⟩
  if path.isYaml then path.withoutExtension else path

/-- **The name selects the file**: the file is a document, and without its extension it is the
name without its own, component by component. The file is given by its names below the folder. -/
def selects (name : String) (file : List String) : Bool :=
  let path : FilePath := ⟨"/".intercalate file⟩
  !file.isEmpty && path.isYaml && path.withoutExtension.sameComponents (stem name)

end RoleSelection

end Runlist
