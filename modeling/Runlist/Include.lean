import Runlist.Json.Shape

/-!
# Parameters of includes

* `TaskInclude`: which file of tasks.
* `RoleInclude`: which role, and which of its files.
-/

namespace Runlist

/-- Parameters of an include of a file of tasks. -/
structure TaskInclude where
  file : String
deriving DecidableEq, Inhabited, Repr

/-- Parameters of an include of a role. -/
structure RoleInclude where
  name : String
  tasksFrom : Option String
  defaultsFrom : Option String
  varsFrom : Option String
  isPublic : Option Bool
deriving DecidableEq, Inhabited, Repr

/-- Reads the parameters of an include of a file. -/
def TaskInclude.ofJson : Json → Except ShapeError TaskInclude
  | .object entries =>
    match Fields.get? entries "file" with
    | some value => (Shape.readString value).map fun file => ⟨file⟩
    | none => .error (.missingField "file")
  | .array [] => .error (.tooShort 0 "TaskIncludeModule" 1)
  | .array (first :: rest) => do
    let file ← Shape.readString first
    Shape.checkLength (first :: rest) 1
    return ⟨file⟩
  | other => .error (.unexpected other (.record "TaskIncludeModule"))

/-- The boolean that a word denotes, in letters of any case. -/
def flag? (text : String) : Option Bool :=
  if ["yes", "true", "on", "1"].contains text then some true
  else if ["no", "false", "off", "0"].contains text then some false
  else none

/-- Reads a boolean that may be written as a word, or null. -/
def readFlag : Json → Except ShapeError (Option Bool)
  | .null => .ok none
  | .bool b => .ok (some b)
  | .string s =>
    let text := String.ofList (s.toList.map Char.toLower)
    match flag? text with
    | some b => .ok (some b)
    | none => .error (.notBoolean text)
  | _ => .error (.noForm "FlexibleBool")

/-- Reads the parameters of an include of a role. The fields of a mapping are read in the order
of their keys. -/
def RoleInclude.ofJson : Json → Except ShapeError RoleInclude
  | .object entries => do
    let defaultsFrom ← Shape.field entries "defaults_from" none Shape.readOptionalString
    let name ← Shape.field entries "name" none fun value => (Shape.readString value).map some
    let isPublic ← Shape.field entries "public" none readFlag
    let tasksFrom ← Shape.field entries "tasks_from" none Shape.readOptionalString
    let varsFrom ← Shape.field entries "vars_from" none Shape.readOptionalString
    match name with
    | some name => return ⟨name, tasksFrom, defaultsFrom, varsFrom, isPublic⟩
    | none => throw (.missingField "name")
  | .array [] => .error (.tooShort 0 "RoleIncludeModule" 5)
  | .array (first :: rest) => do
    let name ← Shape.readString first
    let tasksFrom ← Shape.place rest 0 none Shape.readOptionalString
    let defaultsFrom ← Shape.place rest 1 none Shape.readOptionalString
    let varsFrom ← Shape.place rest 2 none Shape.readOptionalString
    let isPublic ← Shape.place rest 3 none readFlag
    Shape.checkLength (first :: rest) 5
    return ⟨name, tasksFrom, defaultsFrom, varsFrom, isPublic⟩
  | other => .error (.unexpected other (.record "RoleIncludeModule"))

end Runlist
