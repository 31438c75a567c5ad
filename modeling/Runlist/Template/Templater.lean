import Runlist.Template.Rule
import Runlist.Block.Render
import Runlist.Variables

/-!
# Rendering parameters

* `Templater`: how a text is rendered over variables.
* `Template.evaluate`: the way that parameters are written for.
-/

namespace Runlist

/-- How a text is rendered over variables. -/
structure Templater where
  evaluate : String → Variables → Except TemplateError String

namespace Template

/-- The text holds the start of a reference or of a statement. -/
def isTemplate (text : String) : Bool :=
  Text.occursIn openBraces text.toList || Text.occursIn opening text.toList

/-- **The text of a parameter over variables.** A text without references and statements stays as
it is. -/
def evaluate (strict : Bool) (text : String) (vars : Variables) : Except TemplateError String :=
  if isTemplate text then do
    let converted ← convert text
    (Block.render strict converted (.object vars)).mapError .rendering
  else .ok text

end Template

/-- The templater of a mode: in strict mode a missing variable is an error. -/
def Templater.ofMode (strict : Bool) : Templater := ⟨Template.evaluate strict⟩

end Runlist
