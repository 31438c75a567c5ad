import Runlist.Store

/-!
# Loading files of variables

* `readDeclared`: a reading of the document in a file.
* `loadVarsFile`: the variables of a file that a play names.
-/

namespace Runlist

/-- A reading of the document in a file. -/
def readDeclared {α : Type} (site : Site) (read : Document → Declaration.Decoded α)
    (path : FilePath) : Except ReadFailure α :=
  match site.disk.read path with
  | .error e => .error (.io e)
  | .ok text => (Declaration.ofText read text).mapError .decode

/-- The path of a file of variables that a play in a directory names. -/
def varsFilePath (dir : FilePath) (file : String) : FilePath := (dir.join "vars").join file

/-- **The variables of a file that a play names.** -/
def loadVarsFile (site : Site) (dir : FilePath) (file : String) : Except LoadError Variables :=
  let path := varsFilePath dir file
  (readDeclared site Declaration.vars path).mapError (.varsFileRead path)

end Runlist
