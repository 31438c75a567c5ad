import Runlist.Document
import Runlist.Json.Shape
import Runlist.Variables

/-!
# Declarations

What documents declare: tasks with their blocks, plays, references to roles, variables. Nothing
here has a place in the graph yet.

* `TaskDeclaration`, `PlayDeclaration`, `RoleReference`, `MetaDeclaration`: what is declared.
* `Declaration.taskList`, `Declaration.playbook`, `Declaration.roleMeta`,
  `Declaration.vars`: the readings of a document.
* `DecodeError.message`: the wording of failures.
-/

namespace Runlist

/-- The lists and values at the top of a document. -/
inductive LocationRoot where
  | tasks
  | playbook
  | plays
  | roleMeta
  | dependencies
  | vars
deriving DecidableEq, Inhabited, Repr

/-- One step down into a value. -/
inductive Step where
  | key (name : String)
  | item (index : Nat)
deriving DecidableEq, Inhabited, Repr

/-- A place in a document. -/
structure Location where
  root : LocationRoot
  steps : List Step
deriving DecidableEq, Inhabited, Repr

namespace Location

/-- The name of the top of a document. -/
def rootText : LocationRoot → String
  | .tasks => "tasks"
  | .playbook => "playbook"
  | .plays => "plays"
  | .roleMeta => "meta"
  | .dependencies => "dependencies"
  | .vars => "variables"

/-- A step as messages show it. -/
def stepText : Step → String
  | .key name => "." ++ name
  | .item index => "[" ++ toString index ++ "]"

/-- A place as messages show it. -/
def text (l : Location) : String := rootText l.root ++ String.join (l.steps.map stepText)

/-- The place of the value at a key. -/
def key (l : Location) (name : String) : Location := { l with steps := l.steps ++ [.key name] }

/-- The place of an item. -/
def item (l : Location) (index : Nat) : Location := { l with steps := l.steps ++ [.item index] }

end Location

/-- What a place should hold. -/
inductive Expectation where
  | playList
  | play
  | taskList
  | task
  | roleList
  | roleName
  | list
  | mapping
  | string
deriving DecidableEq, Inhabited, Repr

/-- The wording of an expectation. -/
def Expectation.message : Expectation → String
  | .playList => "a list of plays"
  | .play => "a play mapping"
  | .taskList => "a list of tasks"
  | .task => "a task mapping"
  | .roleList => "a list of roles"
  | .roleName => "a role name"
  | .list => "a list"
  | .mapping => "a mapping"
  | .string => "a string"

/-- Why a document does not declare what it should. -/
inductive DecodeError where
  | malformed
  | unexpected (expected : Expectation) (location : Location) (found : Json)
  | invalid (location : Location) (error : ShapeError)
deriving Inhabited, Repr

/-- The kind of a value as messages name it. -/
def Json.kindText : Json → String
  | .null => "null"
  | .bool _ => "a boolean"
  | .number _ => "a number"
  | .string _ => "a string"
  | .array _ => "a list"
  | .object _ => "a mapping"

/-- The wording of a failure. -/
def DecodeError.message : DecodeError → String
  | .malformed => "Invalid YAML: not one well-formed document"
  | .unexpected expected location found =>
    "Expected " ++ expected.message ++ " at " ++ location.text ++ ", found " ++ found.kindText
  | .invalid location error => "Invalid value at " ++ location.text ++ ": " ++ error.message

/-- A declared task. -/
structure TaskDeclaration where
  range : LineRange
  name : Option String
  vars : Variables
  raw : Fields
  block : List TaskDeclaration
deriving Inhabited, Repr

/-- A declared reference to a role. -/
structure RoleReference where
  range : LineRange
  name : String
  vars : Variables
deriving Inhabited, Repr

/-- A declared play. -/
structure PlayDeclaration where
  range : LineRange
  name : Option String
  hosts : Option String
  roles : List RoleReference
  preTasks : List TaskDeclaration
  mainTasks : List TaskDeclaration
  postTasks : List TaskDeclaration
  vars : Variables
  varsFiles : List String
  raw : Fields
deriving Inhabited, Repr

/-- What a role declares about itself. -/
structure MetaDeclaration where
  range : LineRange
  dependencies : List RoleReference
deriving Inhabited, Repr

namespace Declaration

open Yaml (Rows)

/-- A result at a place. -/
abbrev Decoded (α : Type) := Except DecodeError α

/-- The reading of each item, at its own place. -/
def eachItem {α : Type} (read : Json → Rows → Location → Decoded α) (rows : Rows)
    (location : Location) (items : List Json) : Decoded (List α) :=
  items.zipIdx.mapM fun (item, i) => read item (rows.item i) (location.item i)

/-- Variables: a mapping or null. -/
def readVariables (value : Option Json) (location : Location) : Decoded Variables :=
  match value with
  | none => .ok []
  | some .null => .ok []
  | some (.object entries) => .ok entries
  | some other => .error (.invalid location (.unexpected other .map))

/-- A string, or a number or boolean by its text. -/
def readName (value : Option Json) (location : Location) : Decoded (Option String) :=
  match value with
  | none => .ok none
  | some .null => .ok none
  | some (.string s) => .ok (some s)
  | some (.number n) => .ok (some n.text)
  | some (.bool b) => .ok (some (if b then "true" else "false"))
  | some other => .error (.unexpected .string location other)

/-- The strings of a list of strings, or one string by itself. -/
def oneOrMany? : Json → Option (List String)
  | .string s => some [s]
  | .array items => items.mapM Json.string?
  | _ => none

/-- One string, a list of strings, or null. -/
def readStrings (value : Option Json) (location : Location) : Decoded (Option (List String)) :=
  match value with
  | none => .ok none
  | some .null => .ok none
  | some other =>
    match oneOrMany? other with
    | some items => .ok (some items)
    | none => .error (.invalid location (.noForm "OneOrMany"))

/-- A string or null. -/
def optionalString? : Json → Option (Option String)
  | .null => some none
  | .string s => some (some s)
  | _ => none

/-- Variables or null. -/
def optionalVariables? : Json → Option (Option Variables)
  | .null => some none
  | .object entries => some (some entries)
  | _ => none

/-- The names and variables of a reference to a role that is a mapping. -/
def roleFields? : Json → Option (Option String × Option String × Option Variables)
  | .object entries => do
    let role ← optionalString? ((Fields.get? entries "role").getD .null)
    let name ← optionalString? ((Fields.get? entries "name").getD .null)
    let vars ← optionalVariables? ((Fields.get? entries "vars").getD .null)
    return (role, name, vars)
  | _ => none

/-- A reference to a role: its name, or a mapping with a name and variables. -/
def roleReference (value : Json) (rows : Rows) (location : Location) : Decoded RoleReference :=
  match value with
  | .string name => .ok ⟨rows.range, name, []⟩
  | value =>
    match roleFields? value with
    | none => .error (.invalid location (.noForm "RoleReference"))
    | some (role, name, vars) =>
      match role.or name with
      | some name => .ok ⟨rows.range, name, vars.getD []⟩
      | none => .error (.unexpected .roleName location value)

mutual
/-- A list of tasks, or null. -/
def tasks (rows : Rows) (location : Location) : Json → Decoded (List TaskDeclaration)
  | .null => .ok []
  | .array items => taskItems rows location 0 items
  | other => .error (.unexpected .taskList location other)

/-- The tasks of a list from a position on. -/
def taskItems (rows : Rows) (location : Location) (index : Nat) :
    List Json → Decoded (List TaskDeclaration)
  | [] => .ok []
  | item :: items => do
    let first ← task (rows.item index) (location.item index) item
    let rest ← taskItems rows location (index + 1) items
    return first :: rest

/-- A task, the tasks of its block first. -/
def task (rows : Rows) (location : Location) : Json → Decoded TaskDeclaration
  | .object entries => do
    let block ← taskBlock (rows.key "block") (location.key "block") entries
    let name ← readName (Fields.get? entries "name") (location.key "name")
    let vars ← readVariables (Fields.get? entries "vars") (location.key "vars")
    return ⟨rows.range, name, vars, entries, block⟩
  | other => .error (.unexpected .task location other)

/-- The tasks at the key of a block. -/
def taskBlock (rows : Rows) (location : Location) :
    List (String × Json) → Decoded (List TaskDeclaration)
  | [] => .ok []
  | (key, value) :: rest =>
    if key = "block" then tasks rows location value else taskBlock rows location rest
end

/-- A section of a play's tasks. -/
def taskSection (entries : Fields) (rows : Rows) (location : Location) (name : String) :
    Decoded (List TaskDeclaration) :=
  match Fields.get? entries name with
  | some value => tasks (rows.key name) (location.key name) value
  | none => .ok []

/-- The roles of a play. -/
def playRoles (entries : Fields) (rows : Rows) (location : Location) :
    Decoded (List RoleReference) :=
  match Fields.get? entries "roles" with
  | none => .ok []
  | some .null => .ok []
  | some (.array items) => eachItem roleReference (rows.key "roles") (location.key "roles") items
  | some other => .error (.unexpected .roleList location other)

/-- A play. -/
def play (value : Json) (rows : Rows) (location : Location) : Decoded PlayDeclaration :=
  match value with
  | .object entries => do
    let roles ← playRoles entries rows location
    let files := (Fields.get? entries "vars_files").or (Fields.get? entries "var_files")
    let varsFiles ← readStrings files (location.key "vars_files")
    let name ← readName (Fields.get? entries "name") (location.key "name")
    let hosts ← readStrings (Fields.get? entries "hosts") (location.key "hosts")
    let preTasks ← taskSection entries rows location "pre_tasks"
    let mainTasks ← taskSection entries rows location "tasks"
    let postTasks ← taskSection entries rows location "post_tasks"
    let vars ← readVariables (Fields.get? entries "vars") (location.key "vars")
    return {
      range := rows.range
      name
      hosts := hosts.map (",".intercalate ·)
      roles, preTasks, mainTasks, postTasks, vars
      varsFiles := varsFiles.getD []
      raw := entries }
  | other => .error (.unexpected .play location other)

/-- **The tasks of a document.** -/
def taskList (d : Document) : Decoded (List TaskDeclaration) := tasks d.rows ⟨.tasks, []⟩ d.value

/-- **The plays of a document.** -/
def playbook (d : Document) : Decoded (List PlayDeclaration) :=
  match d.value with
  | .array items => eachItem play d.rows ⟨.plays, []⟩ items
  | other => .error (.unexpected .playList ⟨.playbook, []⟩ other)

/-- **What a role declares about itself.** -/
def roleMeta (d : Document) : Decoded MetaDeclaration :=
  match d.value with
  | .null => .ok ⟨.unknown, []⟩
  | .object entries =>
    let location : Location := ⟨.dependencies, []⟩
    match Fields.get? entries "dependencies" with
    | none => .ok ⟨d.rows.range, []⟩
    | some .null => .ok ⟨d.rows.range, []⟩
    | some (.array items) => do
      let dependencies ← eachItem roleReference (d.rows.key "dependencies") location items
      return ⟨d.rows.range, dependencies⟩
    | some other => .error (.unexpected .list location other)
  | other => .error (.unexpected .mapping ⟨.roleMeta, []⟩ other)

/-- **The variables of a document.** -/
def vars (d : Document) : Decoded Variables := readVariables (some d.value) ⟨.vars, []⟩

/-- A reading of the document of a text. -/
def ofText {α : Type} (read : Document → Decoded α) (text : String) : Decoded α :=
  match Document.read? text with
  | some d => read d
  | none => .error .malformed

end Declaration

end Runlist
