import Runlist.Block.Piece
import Runlist.Text.Quoted

/-!
# Why a template gives no text

* `Reason`: what a part of a template lacks.
* `RenderError`: a reason with the place of the tag.
* `BlockError.message`: the wording.
-/

namespace Runlist.Block

/-- What a part of a template lacks. -/
inductive Reason where
  /-- A value that must be there, with the path that names it. -/
  | missingVariable (path : Option String)
  | missingArgument (helper : String) (index : Nat)
  | missingNamedArgument (helper name : String)
  | unknownHelper (name : String)
  | unknownFragment (name : String)
  | unknownDecorator (name : String)
  /-- A list is followed by a name that is no position. -/
  | notAnIndex (name : String)
  | unknownLevel (name : String)
deriving DecidableEq, Inhabited, Repr

/-- The wording of a reason. -/
def Reason.message : Reason → String
  | .missingVariable (some path) =>
    "Failed to access variable in strict mode Some(" ++ Text.quoted path ++ ")"
  | .missingVariable none => "Failed to access variable in strict mode None"
  | .missingArgument helper index =>
    "Helper/Decorator " ++ helper ++ " param at index " ++ toString index ++
      " required but not found"
  | .missingNamedArgument helper name =>
    "Helper/Decorator " ++ helper ++ " param with name " ++ name ++ " required but not found"
  | .unknownHelper name => "Helper not found " ++ name
  | .unknownFragment name => "Partial not found " ++ name
  | .unknownDecorator name => "Decorator not found " ++ name
  | .notAnIndex name => "Cannot access array/vector with string index, " ++ name
  | .unknownLevel name => "Invalid logging level: " ++ name

/-- A reason, and the place of the innermost tag that has one. -/
structure RenderError where
  position : Option Position
  reason : Reason
deriving DecidableEq, Inhabited, Repr

/-- The error at a place, unless it has one already. -/
def RenderError.at' (e : RenderError) (position : Option Position) : RenderError :=
  { e with position := e.position.or position }

/-- The wording of an error. -/
def RenderError.message (e : RenderError) : String :=
  match e.position with
  | some p =>
    "Error rendering \"Unnamed template\" line " ++ toString p.line ++ ", col " ++
      toString p.column ++ ": " ++ e.reason.message
  | none => e.reason.message

/-- Why a template gives no text. -/
inductive BlockError where
  /-- Its tags are not well formed. -/
  | malformed
  | failed (e : RenderError)
deriving DecidableEq, Inhabited, Repr

/-- The wording of an error. -/
def BlockError.message : BlockError → String
  | .malformed => "Failed to parse template"
  | .failed e => e.message

end Runlist.Block
