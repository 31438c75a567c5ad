import Runlist.Load.Error
import Runlist.Template.Error

/-!
# Notices

What is passed over without an error is noted, in the order in which it is met.

* `Notice`: the occasions, and the wording.
-/

namespace Runlist

/-- An occasion on which something is passed over. -/
inductive Notice where
  /-- A document that is no playbook. -/
  | notPlaybook (path : FilePath) (reason : DecodeError)
  /-- A file of variables whose name is a template. -/
  | templatedVarsFile (file : String)
  | ignoredVariables (path : FilePath) (reason : ReadFailure)
  | ignoredMeta (path : FilePath) (reason : ReadFailure)
  /-- A parameter of an action that cannot be rendered. -/
  | droppedParameter (key action : String) (reason : TemplateError)
  /-- A parameter that is one text and cannot be rendered. -/
  | unrenderedText (action text : String) (reason : TemplateError)
deriving Inhabited, Repr

/-- The wording of a notice. -/
def Notice.message : Notice → String
  | .notPlaybook path reason =>
    "Skipping " ++ path.text ++ ": not a playbook (" ++ reason.message ++ ")"
  | .templatedVarsFile file => "Skipping templated vars file " ++ Text.quoted file
  | .ignoredVariables path reason =>
    "Ignoring variables file " ++ path.text ++ ": " ++ reason.message
  | .ignoredMeta path reason => "Ignoring role metadata " ++ path.text ++ ": " ++ reason.message
  | .droppedParameter key action reason =>
    "Dropping parameter " ++ Text.quoted key ++ " of " ++ action ++ ": " ++ reason.message
  | .unrenderedText action text reason =>
    "Failed to render " ++ action ++ " parameter " ++ Text.quoted text ++ ": " ++ reason.message

end Runlist
