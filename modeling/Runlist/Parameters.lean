import Runlist.Module
import Runlist.Resolve
import Runlist.Template.Templater

/-!
# The parameters of tasks

* `renderValue`: a value with every string in it rendered.
* `renderModule`: the parameters of an action that are a mapping; those that cannot be rendered
  are noted and left out.
* `renderText`: the parameter of an action that is one text.
-/

namespace Runlist

mutual
/-- **A value with every string in it rendered**; the keys of mappings stay. -/
def renderValue (t : Templater) (vars : Variables) : Json → Except TemplateError Json
  | .string s => (t.evaluate s vars).map .string
  | .array items => (renderItems t vars items).map .array
  | .object entries => (renderEntries t vars entries).map .object
  | other => .ok other

/-- Items with every string in them rendered. -/
def renderItems (t : Templater) (vars : Variables) : List Json → Except TemplateError (List Json)
  | [] => .ok []
  | item :: items => do
    let first ← renderValue t vars item
    let rest ← renderItems t vars items
    return first :: rest

/-- Entries with every string in their values rendered. -/
def renderEntries (t : Templater) (vars : Variables) :
    List (String × Json) → Except TemplateError (List (String × Json))
  | [] => .ok []
  | (key, value) :: entries => do
    let first ← renderValue t vars value
    let rest ← renderEntries t vars entries
    return (key, first) :: rest
end

/-- The parameters that can be rendered, in the order of their keys; the others are noted. -/
def renderParams (t : Templater) (vars : Variables) (action : String) : Fields → Load Fields
  | [] => return []
  | (key, value) :: rest => do
    match renderValue t vars value with
    | .ok value => return (key, value) :: (← renderParams t vars action rest)
    | .error e =>
      Load.note (.droppedParameter key action e)
      renderParams t vars action rest

/-- **The rendered parameters of an action** that a task declares as a mapping. -/
def renderModule (site : Site) (t : Templater) (id : TaskId) (action : String) :
    Load (Option Module) := do
  match ((← Load.graph).task id).raw.get? action with
  | some (.object params) =>
    let vars ← taskVars site id
    return some ⟨← renderParams t vars action params⟩
  | _ => return none

/-- **The rendered parameter of an action** that a task declares as one text. -/
def renderText (site : Site) (t : Templater) (id : TaskId) (action : String) :
    Load (Option String) := do
  match ((← Load.graph).task id).raw.get? action with
  | some (.string raw) =>
    let vars ← taskVars site id
    match t.evaluate raw vars with
    | .ok text => return some text
    | .error e =>
      Load.note (.unrenderedText action raw e)
      return none
  | _ => return none

end Runlist
