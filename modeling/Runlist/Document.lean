import Runlist.Yaml.Rows
import Runlist.Yaml.Value
import Runlist.Text.Blank

/-!
# Documents

* `Document.read?`: the value of a text and the rows of its parts. A text of blanks is null.
-/

namespace Runlist

/-- The value of a document and the rows of its parts. -/
structure Document where
  value : Json
  rows : Yaml.Rows
deriving Inhabited, Repr

namespace Document

/-- The document that is null. -/
def null : Document := ⟨.null, .unknown⟩

/-- **The document of a text**; nothing when the text is not well formed. -/
def read? (text : String) : Option Document :=
  let s := text.toList
  if s.all Text.isBlank then some null
  else do
    let lexemes ← Yaml.Lexemes.ofText? s
    match ← Yaml.Node.ofLexemes? lexemes.list with
    | none => return null
    | some root =>
      let value ← root.value?
      let value := value.toJson
      let rows := if lexemes.rowsKnown then Yaml.Rows.ofRoot s root else .unknown
      return match value, rows with
        | .array _, .sequence _ _ => ⟨value, rows⟩
        | .object _, .mapping _ _ => ⟨value, rows⟩
        | _, _ => ⟨value, .unknown⟩

end Document

end Runlist
