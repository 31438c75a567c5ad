import Runlist.FilePath
import Runlist.LineRange
import Runlist.Handle

/-!
# Where entities come from

* `Origin`: file, lines, kind and label of an entity, and the origin around it.
* `Origin.text`: one step of a chain of origins, as messages show it.
-/

namespace Runlist

/-- The kinds of entities. -/
inductive OriginKind where
  | playbook
  | play
  | role
  | roleMeta
  | roleDefinition
  | task
deriving DecidableEq, Inhabited, Repr

/-- The name of a kind. -/
def OriginKind.text : OriginKind → String
  | .playbook => "playbook"
  | .play => "play"
  | .role => "role"
  | .roleMeta => "role meta"
  | .roleDefinition => "role definition"
  | .task => "task"

/-- Where an entity comes from. -/
structure Origin where
  kind : OriginKind
  path : FilePath
  range : LineRange
  label : Option String
  /-- The origin of what encloses the entity. -/
  parent : Option OriginId
deriving DecidableEq, Inhabited, Repr

/-- File, first line, kind and label. -/
def Origin.text (o : Origin) : String :=
  let kind := match o.label with
    | some label => o.kind.text ++ " " ++ Text.quoted label
    | none => o.kind.text
  o.path.text ++ ":" ++ toString o.range.first ++ " (" ++ kind ++ ")"

end Runlist
