import Runlist.Include
import Runlist.Load.Error
import Runlist.Origin
import Runlist.Template.Error

/-!
# Why something cannot be expanded

* `ParamsError`: why an include has no parameters.
* `ExpandError`: the causes, and the wording.
-/

namespace Runlist

/-- Why an include has no parameters. -/
inductive ParamsError where
  /-- The text that names the target cannot be rendered. -/
  | unrendered (text : String) (reason : TemplateError)
  /-- The value is neither a text nor a mapping. -/
  | notParams
  | shape (error : ShapeError)
deriving Inhabited, Repr

/-- The wording of a failure. -/
def ParamsError.message : ParamsError → String
  | .unrendered text reason => "failed to render " ++ Text.quoted text ++ ": " ++ reason.message
  | .notParams => "expected a file name or a parameter mapping"
  | .shape error => error.message

/-- Why something cannot be expanded. -/
inductive ExpandError where
  | load (error : LoadError)
  /-- The target of a directive fails; the chain of origins ends with the directive. -/
  | includeFailed (chain : List Origin) (target : String) (source : ExpandError)
  /-- A target includes itself; the first entry is also the last. -/
  | cyclicInclude (chain : List String)
  | invalidParams (action : String) (reason : ParamsError)
  /-- The bound on nested expansions is used up. -/
  | tooDeep
deriving Inhabited, Repr

/-- The wording of a cause. -/
def ExpandError.message : ExpandError → String
  | .load error => error.message
  | .includeFailed chain target source =>
    "Failed to include " ++ target ++ " (from " ++ " -> ".intercalate (chain.map Origin.text) ++
      "): " ++ source.message
  | .cyclicInclude chain => "Include cycle: " ++ " -> ".intercalate chain
  | .invalidParams action reason => "Invalid parameters for " ++ action ++ ": " ++ reason.message
  | .tooDeep => "Includes are nested too deep"

end Runlist
