import Runlist.Expand.Error
import Runlist.Parameters

/-!
# Targets of includes

* `Target`: what a directive expands to, and the text by which two targets are told apart.
* `Expand`: a step of expansion over the targets that are open.
* `Expand.inside`: a step inside a target; a target that is open already closes a cycle.
* `includeParams`: the parameters of an include.
-/

namespace Runlist

/-- What is being expanded. -/
inductive Target where
  /-- A file of tasks or a playbook. -/
  | file (path : FilePath)
  /-- A role with a file of tasks. -/
  | role (name tasksFile : String)
deriving DecidableEq, Inhabited, Repr

/-- The text by which targets are told apart: the path of a file that exists is made absolute. -/
def Target.key (disk : Disk) : Target → String
  | .file path => ((disk.canonical? path).getD path).text
  | .role name tasksFile => "role:" ++ name ++ ":" ++ tasksFile

/-- The state of an expansion. -/
structure Expansion where
  store : Store
  /-- The keys of the targets that are being expanded, outermost first. -/
  opened : List String
deriving Inhabited

/-- A step of expansion. What it has loaded stays when it fails. -/
abbrev Expand := ExceptT ExpandError (StateM Expansion)

namespace Expand

/-- A step of loading. -/
def load {α : Type} (step : Load α) : Expand α := do
  let s ← get
  let (r, store) := step.run.run s.store
  set { s with store }
  match r with
  | .ok a => return a
  | .error e => throw (.load e)

/-- The graph so far. -/
def graph : Expand Graph := do return (← get).store.graph

/-- A step whose failure is answered. -/
def attempt {α : Type} (step : Expand α) : Expand (Except ExpandError α) :=
  ExceptT.lift step.run

/-- Opens a target. -/
def enter (key : String) : Expand Unit := do
  let s ← get
  if s.opened.contains key then throw (.cyclicInclude (cycleOf s.opened key))
  else set { s with opened := s.opened ++ [key] }

/-- Closes the target that was opened last. -/
def leave : Expand Unit := modify fun s => { s with opened := s.opened.dropLast }

/-- **A step inside a target**, which is open during the step only. Re-entering it fails. -/
def inside {α : Type} (site : Site) (target : Target) (step : Expand α) :
    Expand (Except ExpandError α) := do
  enter (target.key site.disk)
  let result ← attempt step
  leave
  return result

/-- The failure of a directive. One that names a directive inside, or a cycle, stays as it is. -/
def failed {α : Type} (origin : OriginId) (target : String) (e : ExpandError) : Expand α := do
  match e with
  | .includeFailed chain target source => throw (.includeFailed chain target source)
  | .cyclicInclude chain => throw (.cyclicInclude chain)
  | e => throw (.includeFailed ((← graph).provenance origin) target e)

end Expand

/-- The rendered value of a directive; a text by itself is the parameter `textKey`. -/
def directiveValue (site : Site) (t : Templater) (textKey : String) (id : TaskId)
    (action : String) : Expand Json := do
  match ((← Expand.graph).task id).raw.get? action with
  | some (.string text) =>
    let vars ← Expand.load (taskVars site id)
    match t.evaluate text vars with
    | .ok rendered => return .object [(textKey, .string rendered)]
    | .error e => throw (.invalidParams action (.unrendered text e))
  | some (.object _) =>
    match ← Expand.load (renderModule site t id action) with
    | some m => return m.toJson
    | none => return .object []
  | _ => throw (.invalidParams action .notParams)

/-- **The parameters of an include**: of its mapping, or of its text, which then names what
`textKey` stands for. -/
def includeParams {α : Type} (site : Site) (t : Templater) (read : Json → Except ShapeError α)
    (textKey : String) (id : TaskId) (action : String) : Expand α := do
  match read (← directiveValue site t textKey id action) with
  | .ok params => return params
  | .error e => throw (.invalidParams action (.shape e))

end Runlist
