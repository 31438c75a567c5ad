import Runlist.FileTree

/-!
# Reading by path

A disk is a tree with a working directory. A path is followed from the root or from the working
directory; every component but the last must lead to a directory, and so must the last when a
slash follows it.

* `Disk.resolve`: the names from the root to which a path leads.
* `Disk.read`: the text of a file.
* `Disk.isDir`, `Disk.canonical?`, `Disk.list`, `Disk.filesBelow`: look-ups.
* `Disk.write`, `Disk.makeDir`, `Disk.remove`: changes.
* `IoError.message`: the wording of failures.
-/

namespace Runlist

/-- Why a file cannot be read. -/
inductive IoError where
  | notFound
  | notDirectory
  | isDirectory
  | notText
deriving DecidableEq, Inhabited, Repr

/-- The wording of a failure. -/
def IoError.message : IoError → String
  | .notFound => "No such file or directory (os error 2)"
  | .notDirectory => "Not a directory (os error 20)"
  | .isDirectory => "Is a directory (os error 21)"
  | .notText => "stream did not contain valid UTF-8"

/-- A tree of files and the directory from which relative paths are followed. -/
structure Disk where
  tree : FileTree
  workingDirectory : List String
deriving Inhabited

namespace Disk

/-- Follows texts between slashes from a directory, given by its names from the root. -/
def follow (tree : FileTree) : List String → List String → Except IoError (List String)
  | here, [] => .ok here
  | here, segment :: rest =>
    match tree.at? here with
    | none => .error .notFound
    | some node =>
      if !node.isDir then .error .notDirectory
      else if FilePath.isFiller segment then follow tree here rest
      else if segment = ".." then follow tree here.dropLast rest
      else match FileTree.child? node.entries segment with
        | none => .error .notFound
        | some _ => follow tree (here ++ [segment]) rest

/-- **The names from the root to which a path leads.** The empty path leads nowhere. -/
def resolve (disk : Disk) (p : FilePath) : Except IoError (List String) :=
  if p.text = "" then .error .notFound
  else follow disk.tree (if p.isAbsolute then [] else disk.workingDirectory) p.segments

/-- The node to which a path leads. -/
def node (disk : Disk) (p : FilePath) : Except IoError FileTree :=
  match disk.resolve p with
  | .error e => .error e
  | .ok names =>
    match disk.tree.at? names with
    | some node => .ok node
    | none => .error .notFound

/-- The text of the file at a path. -/
def read (disk : Disk) (p : FilePath) : Except IoError String :=
  match disk.node p with
  | .error e => .error e
  | .ok (.dir _) => .error .isDirectory
  | .ok (.file .binary) => .error .notText
  | .ok (.file (.text s)) => .ok s

/-- The path leads to a directory. -/
def isDir (disk : Disk) (p : FilePath) : Bool :=
  match disk.node p with
  | .ok (.dir _) => true
  | _ => false

/-- The absolute path without `.`, `..` and repeated slashes, when the path leads somewhere. -/
def canonical? (disk : Disk) (p : FilePath) : Option FilePath :=
  match disk.resolve p with
  | .error _ => none
  | .ok names => some ⟨"/" ++ "/".intercalate names⟩

/-- Names and nodes in the directory at a path. -/
def list (disk : Disk) (p : FilePath) : Except IoError (List (String × FileTree)) :=
  match disk.node p with
  | .error e => .error e
  | .ok (.file _) => .error .notDirectory
  | .ok (.dir entries) => .ok entries

/-- The regular files below the path, with their names from there; a file by itself has none. -/
def filesBelow (disk : Disk) (p : FilePath) : Except IoError (List (List String)) :=
  match disk.node p with
  | .error e => .error e
  | .ok node => .ok (node.files.map (·.1))

/-- The names from the root that a path spells, whether or not there is anything. -/
def spelled (disk : Disk) (p : FilePath) : List String :=
  let start := if p.isAbsolute then [] else disk.workingDirectory
  p.segments.foldl
    (fun here segment =>
      if FilePath.isFiller segment then here
      else if segment = ".." then here.dropLast
      else here ++ [segment])
    start

/-- The disk with a file at a path, its directories made where they lack. -/
def write (disk : Disk) (p : FilePath) (content : Content) : Disk :=
  { disk with tree := disk.tree.put (disk.spelled p) (.file content) }

/-- The disk with a directory at a path, one that is there already kept. -/
def makeDir (disk : Disk) (p : FilePath) : Disk :=
  let names := disk.spelled p
  match disk.tree.at? names with
  | some _ => disk
  | none => { disk with tree := disk.tree.put names (.dir []) }

/-- The disk without the file or directory at a path. -/
def remove (disk : Disk) (p : FilePath) : Disk :=
  { disk with tree := disk.tree.remove (disk.spelled p) }

end Disk

end Runlist
