import Runlist.Text.Quoted

/-!
# File paths as they are written

A path keeps the text it was built from, since messages show it unchanged. Its meaning is the
sequence of its **components**: repeated slashes and inner `.` do not count.

* `FilePath.components`: the components.
* `FilePath.join`: a path below another, or the second alone when it is absolute.
* `FilePath.parent?`, `FilePath.fileName?`, `FilePath.extension?`, `FilePath.withoutExtension`:
  parts of a path.
* `FilePath.isYaml`: the extension is that of a document.
-/

namespace Runlist

/-- A path, as written. -/
structure FilePath where
  text : String
deriving DecidableEq, Inhabited, Repr

namespace FilePath

/-- The pieces of a text between separators; one more than there are separators. -/
def splitAt (separator : Char) : List Char → List (List Char)
  | [] => [[]]
  | c :: cs =>
    if c = separator then [] :: splitAt separator cs
    else match splitAt separator cs with
      | [] => [[c]]
      | piece :: pieces => (c :: piece) :: pieces

/-- The texts between slashes. -/
def segments (p : FilePath) : List String := (splitAt '/' p.text.toList).map String.ofList

/-- The path of a list of texts between slashes. -/
def ofSegments (segments : List String) : FilePath := ⟨"/".intercalate segments⟩

/-- The path starts at the root. -/
def isAbsolute (p : FilePath) : Bool := p.text.toList.head? == some '/'

/-- One step of a path. -/
inductive Component where
  | root
  | current
  | up
  | name (s : String)
deriving DecidableEq, Repr

/-- The step that a text between slashes stands for, nothing for an empty one and for `.`. -/
def Component.ofSegment? (s : String) : Option Component :=
  if s = "" || s = "." then none else if s = ".." then some .up else some (.name s)

/-- **The components of a path.** A `.` counts only as the first of a relative path. -/
def components (p : FilePath) : List Component :=
  match p.segments with
  | [] => []
  | first :: rest =>
    let start := if p.isAbsolute then [Component.root]
      else if first = "." then [.current]
      else (Component.ofSegment? first).toList
    start ++ rest.filterMap Component.ofSegment?

/-- The two paths have the same components. -/
def sameComponents (p q : FilePath) : Bool := p.components == q.components

/-- `file` below `base`; `file` alone when it is absolute. -/
def join (base : FilePath) (file : String) : FilePath :=
  if isAbsolute ⟨file⟩ then ⟨file⟩
  else if base.text = "" || base.text.toList.getLast? == some '/' then ⟨base.text ++ file⟩
  else ⟨base.text ++ "/" ++ file⟩

/-- A text between slashes that is no component after the first. -/
def isFiller (s : String) : Bool := s = "" || s = "."

/-- Texts between slashes without those at the end that are no components. -/
def trimSegments (segments : List String) : List String :=
  (segments.reverse.dropWhile isFiller).reverse

/-- The last component's text and the texts before it; nothing for the empty path and the
root. -/
def splitLast? (p : FilePath) : Option (List String × String) :=
  match p.segments with
  | [] => none
  | first :: rest =>
    let rest := trimSegments rest
    match rest.getLast? with
    | some last => some (first :: rest.dropLast, last)
    | none => if first = "" then none else some ([], first)

/-- The path without its last component; nothing for the empty path and the root. -/
def parent? (p : FilePath) : Option FilePath :=
  p.splitLast?.map fun (before, _) =>
    match before with
    | [] => ⟨""⟩
    | first :: rest =>
      let rest := trimSegments rest
      if first = "" && rest.isEmpty then ⟨"/"⟩ else ofSegments (first :: rest)

/-- The directory of a file: the path without its last component, or the empty path. -/
def directory (p : FilePath) : FilePath := p.parent?.getD ⟨""⟩

/-- The last component when it is a name. -/
def fileName? (p : FilePath) : Option String :=
  p.splitLast?.bind fun (_, last) => if last = "." || last = ".." then none else some last

/-- A name before and after its last dot; a dot in front of the whole name does not count. -/
def splitDot? (name : String) : Option (String × String) :=
  let reversed := name.toList.reverse
  let after := reversed.takeWhile (· != '.')
  match reversed.dropWhile (· != '.') with
  | [] => none
  | _ :: before =>
    if before.isEmpty then none
    else some (String.ofList before.reverse, String.ofList after.reverse)

/-- The last component after its last dot. -/
def extension? (p : FilePath) : Option String :=
  p.fileName?.bind fun name => (splitDot? name).map (·.2)

/-- The last component before its last dot. -/
def fileStem? (p : FilePath) : Option String :=
  p.fileName?.map fun name => ((splitDot? name).map (·.1)).getD name

/-- The path up to the last dot of its last component. -/
def upToDot (p : FilePath) : FilePath :=
  match p.splitLast?, p.fileStem? with
  | some (before, _), some stem => ofSegments (before ++ [stem])
  | _, _ => p

/-- The path without the extension of its last component. As many letters as the extension has are
cut off before the last dot is looked for: what is left of `..yml` are two dots, which are no name
any more. -/
def withoutExtension (p : FilePath) : FilePath :=
  match p.extension? with
  | some after =>
    upToDot ⟨String.ofList (p.text.toList.take (p.text.toList.length - after.toList.length))⟩
  | none => p.upToDot

/-- The extension is `yml` or `yaml`. -/
def isYaml (p : FilePath) : Bool := p.extension? == some "yml" || p.extension? == some "yaml"

/-- The path in quotes, as messages show it. -/
def quoted (p : FilePath) : String := Text.quoted p.text

end FilePath

end Runlist
