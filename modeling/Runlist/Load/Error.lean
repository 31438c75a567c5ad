import Runlist.Declaration
import Runlist.Disk

/-!
# Why something cannot be loaded

* `ReadFailure`: why a file gives no declarations.
* `LoadError`: the causes, and the wording.
-/

namespace Runlist

/-- Why a file gives no declarations. -/
inductive ReadFailure where
  | io (error : IoError)
  | decode (error : DecodeError)
deriving Inhabited, Repr

/-- The wording of a failure. -/
def ReadFailure.message : ReadFailure → String
  | .io error => error.message
  | .decode error => error.message

/-- Why something cannot be loaded. -/
inductive LoadError where
  | roleNotFound (name : String) (searched : List FilePath)
  | taskDecode (path : FilePath) (reason : DecodeError)
  | varsFileRead (path : FilePath) (reason : ReadFailure)
  /-- A role depends on itself; the first name is also the last. -/
  | cyclicDependency (cycle : List String)
  | io (path : FilePath) (error : IoError)
  /-- The directory of a role cannot be listed. -/
  | walk (path : FilePath) (error : IoError)
  /-- The bound on nested dependencies is used up. -/
  | tooDeep
deriving Inhabited, Repr

/-- The wording of a cause. -/
def LoadError.message : LoadError → String
  | .roleNotFound name searched =>
    "Role " ++ Text.quoted name ++ " not found (searched: " ++
      Text.quotedList (searched.map (·.text)) ++ ")"
  | .taskDecode path reason =>
    "Failed to decode tasks file " ++ path.quoted ++ ": " ++ reason.message
  | .varsFileRead path reason =>
    "Failed to read variables file " ++ path.quoted ++ ": " ++ reason.message
  | .cyclicDependency cycle => "Circular role dependency: " ++ " -> ".intercalate cycle
  | .io path error => "IO error on " ++ path.quoted ++ ": " ++ error.message
  | .walk path error =>
    "Failed to walk role directory: IO error for operation on " ++ path.text ++ ": " ++
      error.message
  | .tooDeep => "Role dependencies are nested too deep"

end Runlist
