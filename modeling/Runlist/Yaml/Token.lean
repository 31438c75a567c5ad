/-!
# Tokens of a document

* `Token`: what the text of a document consists of.
* `Lexeme`: a token with the row on which it stands.
-/

namespace Runlist.Yaml

/-- The parts of a document's text. -/
inductive Token where
  | versionDirective
  | tagDirective (handle uri : String)
  | documentStart
  | documentEnd
  | blockSequenceStart
  | blockMappingStart
  | blockEnd
  | flowSequenceStart
  | flowSequenceEnd
  | flowMappingStart
  | flowMappingEnd
  | blockEntry
  | flowEntry
  | key
  | value
  | alias (name : String)
  | anchor (name : String)
  | tag (handle suffix : String)
  | scalar (plain : Bool) (text : String)
deriving DecidableEq, Inhabited, Repr

/-- A token and the row, counted from one, on which it stands. -/
structure Lexeme where
  token : Token
  row : Nat
deriving Inhabited, Repr

end Runlist.Yaml
