import Runlist.FilePath

/-!
# Trees of files

The part of the file system that a run sees: directories whose entries are in the order of
their names, and regular files. Paths are followed one component at a time, so that `..` after
a file or a missing directory fails.

* `FileTree.at?`: the node at a list of names.
* `FileTree.files`: the regular files below a directory, depth first in the order of names.
* `FileTree.put`, `FileTree.remove`: changes.
-/

namespace Runlist

/-- What a regular file holds: text, or bytes that are no text. -/
inductive Content where
  | text (s : String)
  | binary
deriving DecidableEq, Inhabited, Repr

/-- The content with the given bytes. -/
def Content.ofBytes (bytes : List UInt8) : Content :=
  match String.fromUTF8? ⟨bytes.toArray⟩ with
  | some s => .text s
  | none => .binary

/-- A file, or a directory with its entries in the order of their names. -/
inductive FileTree where
  | file (content : Content)
  | dir (entries : List (String × FileTree))
deriving Inhabited

namespace FileTree

/-- The entry of a name. -/
def child? : List (String × FileTree) → String → Option FileTree
  | [], _ => none
  | (k, t) :: rest, name => if k = name then some t else child? rest name

/-- The entries with one added or replaced, in the place where its name belongs. -/
def putEntry : List (String × FileTree) → String → FileTree → List (String × FileTree)
  | [], name, tree => [(name, tree)]
  | (k, t) :: rest, name, tree =>
    if name = k then (name, tree) :: rest
    else if name < k then (name, tree) :: (k, t) :: rest
    else (k, t) :: putEntry rest name tree

/-- The node is a directory. -/
def isDir : FileTree → Bool
  | .dir _ => true
  | .file _ => false

/-- The entries of a directory, none for a file. -/
def entries : FileTree → List (String × FileTree)
  | .dir entries => entries
  | .file _ => []

/-- The node at a list of names. -/
def at? : FileTree → List String → Option FileTree
  | tree, [] => some tree
  | tree, name :: names => (child? tree.entries name).bind fun child => child.at? names

/-- The tree with a node at a list of names, directories on the way made where they lack. -/
def put : FileTree → List String → FileTree → FileTree
  | _, [], new => new
  | tree, name :: names, new =>
    let child := (child? tree.entries name).getD (.dir [])
    .dir (putEntry tree.entries name (child.put names new))

/-- The tree without the node at a list of names. -/
def remove : FileTree → List String → FileTree
  | tree, [] => tree
  | tree, [name] => .dir (tree.entries.filter fun (k, _) => k != name)
  | tree, name :: names =>
    match child? tree.entries name with
    | some child => .dir (putEntry tree.entries name (child.remove names))
    | none => tree

mutual
/-- The regular files below a directory with their names from there, depth first in the order
of names. -/
def files : FileTree → List (List String × Content)
  | .file content => [([], content)]
  | .dir entries => filesOf entries

/-- The regular files of a list of entries. -/
def filesOf : List (String × FileTree) → List (List String × Content)
  | [] => []
  | (name, tree) :: rest =>
    tree.files.map (fun (names, content) => (name :: names, content)) ++ filesOf rest
end

end FileTree

end Runlist
