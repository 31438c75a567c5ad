import Runlist.Expand.Expansion
import Runlist.Proofs.Fields
import Runlist.Proofs.Step

/-!
# Expansion on the documents

What a tree of files expands to, read off the documents: there is no graph here, no state, and
nothing that is remembered.

* `Site.readTasks`, `Site.readRole`, `Site.readPlaybook`: what files declare.
* `Site.Layered`: roles in the order in which their defaults are laid over one another.
* `Scope.Resolves`: the variables of a declared task.
* `Item`, `Unfolds`: what is expanded, and what it consists of.
* `Expands`: **the leaves of some items**, in their order; there is one list of them only.
-/

namespace Runlist

/-! ## What files declare -/

/-- What a role's files declare besides its tasks. -/
structure RoleHead where
  dependencies : List String
  defaults : Variables
  vars : Variables

/-- What a role's selected files declare; each task with its file. -/
structure RoleText extends RoleHead where
  tasks : List (FilePath × TaskDeclaration)

/-- The tasks of a file. -/
def Site.readTasks (site : Site) (path : FilePath) : Except LoadError (List TaskDeclaration) :=
  match site.disk.read path with
  | .error e => .error (.io path e)
  | .ok text => (Declaration.ofText Declaration.taskList text).mapError (.taskDecode path)

/-- The plays of a file; one that is no playbook has none. -/
def Site.readPlaybook (site : Site) (path : FilePath) : Except LoadError (List PlayDeclaration) :=
  match site.disk.read path with
  | .error e => .error (.io path e)
  | .ok text => .ok ((Declaration.ofText Declaration.playbook text).toOption.getD [])

/-- The variables of one of a role's files; one that cannot be read has none. -/
def Site.readRoleVars (site : Site) (path : FilePath) : Variables :=
  (readDeclared site Declaration.vars path).toOption.getD []

/-- A role with one more of its files, given by its folder and its names below the folder. -/
def Site.readRoleFile (site : Site) (selection : RoleSelection) (text : RoleText) (folder : String)
    (file : List String) (path : FilePath) : Except LoadError RoleText :=
  match folder with
  | "tasks" =>
    if RoleSelection.selects selection.tasksFile file then do
      let ds ← site.readTasks path
      return { text with tasks := text.tasks ++ ds.map fun d => (path, d) }
    else .ok text
  | "defaults" =>
    if RoleSelection.selects selection.defaultsFile file then
      .ok { text with defaults := text.defaults.assign (site.readRoleVars path) }
    else .ok text
  | "vars" =>
    if RoleSelection.selects selection.varsFile file then
      .ok { text with vars := text.vars.assign (site.readRoleVars path) }
    else .ok text
  | "meta" =>
    if RoleSelection.selects RoleSelection.mainFile file then
      match readDeclared site Declaration.roleMeta path with
      | .ok m => .ok { text with dependencies := m.dependencies.map (·.name) }
      | .error _ => .ok text
    else .ok text
  | _ => .ok text

/-- A role with one more file of its directory, given by its names below the directory. -/
def Site.readBelow (site : Site) (selection : RoleSelection) (dir : FilePath) (text : RoleText) :
    List String → Except LoadError RoleText
  | [] => .ok text
  | folder :: file => site.readRoleFile selection text folder file (dir.below (folder :: file))

/-- The role of a directory. -/
def Site.readRoleAt (site : Site) (selection : RoleSelection) (dir : FilePath) :
    Except LoadError RoleText :=
  match site.disk.filesBelow dir with
  | .error e => .error (.walk dir e)
  | .ok files => files.foldlM (site.readBelow selection dir) ⟨⟨[], [], []⟩, []⟩

/-- **The role of a name.** -/
def Site.readRole (site : Site) (name : String) (selection : RoleSelection) :
    Except LoadError RoleText :=
  site.findRole name >>= site.readRoleAt selection

/-- The roles of some names. -/
def Site.readRoles (site : Site) (names : List String) : Except LoadError (List RoleText) :=
  names.mapM fun name => site.readRole name .main

/-- The files of variables that a play in a directory names, those left out whose name is a
template. -/
def Site.readVarsFiles (site : Site) (dir : FilePath) (names : List String) :
    Except LoadError (List Variables) :=
  (names.filter fun name => !Text.occursIn "\x7b\x7b".toList name.toList).mapM
    (loadVarsFile site dir)

/-! ## Variables -/

/-- What a play declares besides its tasks. -/
structure PlayHead where
  path : FilePath
  vars : Variables
  varsFiles : List String
  roles : List RoleHead

/-- Where a task stands: in a play and in a role, which may be one of the play's own. -/
structure Scope where
  play : Option PlayHead
  role : Option RoleHead
  listed : Bool

/-- **Roles as their defaults are laid over one another**: each after those it depends on. -/
inductive Site.Layered (site : Site) : List RoleHead → List RoleHead → Prop
  | nil : site.Layered [] []
  | cons {r : RoleHead} {deps : List RoleText} {below rest l : List RoleHead} :
      site.readRoles r.dependencies = .ok deps → site.Layered (deps.map (·.toRoleHead)) below →
      site.Layered rest l → site.Layered (r :: rest) (below ++ r :: l)

namespace Scope

/-- The roles whose defaults count. -/
def roles (scope : Scope) : List RoleHead :=
  (scope.play.map (·.roles)).getD [] ++ if scope.listed then [] else scope.role.toList

/-- The files of variables that count. -/
def files (site : Site) (scope : Scope) : Except LoadError (List Variables) :=
  match scope.play with
  | none => .ok []
  | some p => site.readVarsFiles p.path.directory p.varsFiles

/-- What gives a task its variables, the last one first to count. -/
def sources (scope : Scope) (layers : List RoleHead) (files : List Variables) (own : Variables) :
    List Variables :=
  layers.map (·.defaults) ++
    (match scope.play with
      | none => []
      | some p => p.vars :: files ++ p.roles.map (·.vars)) ++
    scope.role.toList.map (·.vars) ++ [own]

/-- **The variables of a task** that declares some of its own. -/
def Resolves (site : Site) (scope : Scope) (own vars : Variables) : Prop :=
  ∃ layers files, site.Layered scope.roles layers ∧ scope.files site = .ok files ∧
    vars = Variables.ofSources (scope.sources layers files own)

end Scope

/-! ## Expansion -/

/-- The first of some actions that a task declares. -/
def TaskDeclaration.action? (d : TaskDeclaration) (actions : List String) : Option String :=
  actions.find? fun action => d.raw.has action

/-- The playbook that a play imports. -/
def PlayDeclaration.importTarget? (d : PlayDeclaration) : Option String :=
  (Action.playbookImports.findSome? fun action => d.raw.get? action).bind Json.string?

/-- The parameters that can be rendered. -/
def renderedParams (t : Templater) (vars : Variables) (params : Fields) : Fields :=
  params.filterMap fun (key, value) => (renderValue t vars value).toOption.map fun v => (key, v)

/-- The rendered value of a directive: a text stands for one of its parameters. -/
def includeValue (t : Templater) (vars : Variables) (textKey : String) : Json → Option Json
  | .string text => (t.evaluate text vars).toOption.map fun s => .object [(textKey, .string s)]
  | .object params => some (.object (renderedParams t vars params))
  | _ => none

/-- What is expanded. -/
inductive Item where
  | task (scope : Scope) (path : FilePath) (d : TaskDeclaration)
  | role (play : Option PlayHead) (listed : Bool) (text : RoleText)
  | play (path : FilePath) (d : PlayDeclaration)
  | playbook (path : FilePath) (ds : List PlayDeclaration)

/-- The parameters of a directive: `value` is what the task declares for it. -/
structure Site.Includes {α : Type} (site : Site) (t : Templater) (scope : Scope)
    (d : TaskDeclaration) (read : Json → Except ShapeError α) (textKey action : String)
    (params : α) : Prop where
  ok : ∃ value vars j, d.raw.get? action = some value ∧ scope.Resolves site d.vars vars ∧
    includeValue t vars textKey value = some j ∧ read j = .ok params

/-- **What an item consists of.** -/
inductive Unfolds (site : Site) (t : Templater) : Item → List Item → Prop
  | block {scope : Scope} {path : FilePath} {d : TaskDeclaration} : d.block ≠ [] →
      Unfolds site t (.task scope path d) (d.block.map (.task scope path))
  | tasks {scope : Scope} {path : FilePath} {d : TaskDeclaration} {action : String}
      {params : TaskInclude} {ds : List TaskDeclaration} :
      d.block = [] → d.action? Action.taskIncludes = some action →
      site.Includes t scope d TaskInclude.ofJson "file" action params →
      site.readTasks (path.directory.join params.file) = .ok ds →
      Unfolds site t (.task scope path d) (ds.map (.task scope (path.directory.join params.file)))
  | role {scope : Scope} {path : FilePath} {d : TaskDeclaration} {action : String}
      {params : RoleInclude} {text : RoleText} :
      d.block = [] → d.action? Action.taskIncludes = none →
      d.action? Action.roleIncludes = some action →
      site.Includes t scope d RoleInclude.ofJson "name" action params →
      site.readRole params.name params.selection = .ok text →
      Unfolds site t (.task scope path d) [.role scope.play false text]
  | ofRole {play : Option PlayHead} {listed : Bool} {text : RoleText} {deps : List RoleText} :
      site.readRoles text.dependencies = .ok deps →
      Unfolds site t (.role play listed text) (deps.map (.role play false) ++
        text.tasks.map fun (path, d) => .task ⟨play, some text.toRoleHead, listed⟩ path d)
  | imported {path : FilePath} {d : PlayDeclaration} {target : String} {ds : List PlayDeclaration} :
      d.importTarget? = some target → site.readPlaybook (site.root.join target) = .ok ds →
      Unfolds site t (.play path d) [.playbook (site.root.join target) ds]
  | ofPlay {path : FilePath} {d : PlayDeclaration} {texts : List RoleText} {head : PlayHead} :
      d.importTarget? = none → site.readRoles (d.roles.map (·.name)) = .ok texts →
      head = ⟨path, d.vars, d.varsFiles, texts.map (·.toRoleHead)⟩ →
      Unfolds site t (.play path d)
        ((d.preTasks ++ d.mainTasks ++ d.postTasks).map (.task ⟨some head, none, false⟩ path) ++
          texts.map (.role (some head) true))
  | ofPlaybook {path : FilePath} {ds : List PlayDeclaration} :
      Unfolds site t (.playbook path ds) (ds.map (.play path))

/-- A task that is expanded to itself: its file, its name, and its mapping as declared. -/
structure Leaf where
  path : FilePath
  name : Option String
  raw : Fields

/-- **The leaves of some items**, in their order. -/
inductive Expands (site : Site) (t : Templater) : List Item → List Leaf → Prop
  | nil : Expands site t [] []
  | leaf {scope : Scope} {path : FilePath} {d : TaskDeclaration} {rest : List Item}
      {l : List Leaf} :
      d.block = [] → d.action? Action.taskIncludes = none → d.action? Action.roleIncludes = none →
      Expands site t rest l →
      Expands site t (.task scope path d :: rest) (⟨path, d.name, d.raw⟩ :: l)
  | unfold {item : Item} {items rest : List Item} {l₁ l₂ : List Leaf} :
      Unfolds site t item items → Expands site t items l₁ → Expands site t rest l₂ →
      Expands site t (item :: rest) (l₁ ++ l₂)

section Unique

variable {site : Site} {t : Templater}

theorem Site.Layered.unique {rs l l' : List RoleHead} (h : site.Layered rs l)
    (h' : site.Layered rs l') : l = l' := by
  induction h generalizing l' with
  | nil => cases h'; rfl
  | cons hdeps _ _ ih₁ ih₂ =>
    cases h' with
    | cons hdeps' hbelow' hrest' =>
      rw [hdeps] at hdeps'
      cases hdeps'
      rw [ih₁ hbelow', ih₂ hrest']

theorem Scope.Resolves.unique {scope : Scope} {own vars vars' : Variables}
    (h : scope.Resolves site own vars) (h' : scope.Resolves site own vars') : vars = vars' := by
  obtain ⟨layers, files, hl, hf, rfl⟩ := h
  obtain ⟨layers', files', hl', hf', rfl⟩ := h'
  rw [hl.unique hl']
  rw [hf] at hf'
  cases hf'
  rfl

theorem Site.Includes.unique {α : Type} {scope : Scope} {d : TaskDeclaration}
    {read : Json → Except ShapeError α} {textKey action : String} {p p' : α}
    (h : site.Includes t scope d read textKey action p)
    (h' : site.Includes t scope d read textKey action p') : p = p' := by
  obtain ⟨value, vars, j, hvalue, hvars, hj, hp⟩ := h.ok
  obtain ⟨value', vars', j', hvalue', hvars', hj', hp'⟩ := h'.ok
  rw [hvalue] at hvalue'
  cases hvalue'
  rw [← hvars.unique hvars', hj] at hj'
  cases hj'
  rw [hp] at hp'
  cases hp'
  rfl

theorem Unfolds.unique {item : Item} {items items' : List Item} (h : Unfolds site t item items)
    (h' : Unfolds site t item items') : items = items' := by
  -- the block and the actions of an item leave one way to take it apart
  cases h with
  | block hb =>
    cases h' with
    | block => rfl
    | tasks hb' | role hb' => exact absurd hb' hb
  | tasks hb ha hi hr =>
    cases h' with
    | block hb' => exact absurd hb hb'
    | tasks _ ha' hi' hr' =>
      rw [ha] at ha'
      cases ha'
      cases hi.unique hi'
      rw [hr] at hr'
      cases hr'
      rfl
    | role _ hn => rw [ha] at hn; cases hn
  | role hb hn ha hi hr =>
    cases h' with
    | block hb' => exact absurd hb hb'
    | tasks _ ha' => rw [hn] at ha'; cases ha'
    | role _ _ ha' hi' hr' =>
      rw [ha] at ha'
      cases ha'
      cases hi.unique hi'
      rw [hr] at hr'
      cases hr'
      rfl
  | ofRole hr =>
    cases h' with
    | ofRole hr' => rw [hr] at hr'; cases hr'; rfl
  | imported ht hr =>
    cases h' with
    | imported ht' hr' =>
      rw [ht] at ht'
      cases ht'
      rw [hr] at hr'
      cases hr'
      rfl
    | ofPlay ht' => rw [ht] at ht'; cases ht'
  | ofPlay ht hr hh =>
    cases h' with
    | imported ht' => rw [ht] at ht'; cases ht'
    | ofPlay _ hr' hh' =>
      rw [hr] at hr'
      cases hr'
      rw [hh, hh']
  | ofPlaybook => cases h'; rfl

/-- A task that is expanded to itself consists of nothing else. -/
theorem not_unfolds {scope : Scope} {path : FilePath} {d : TaskDeclaration} {items : List Item}
    (hb : d.block = []) (ht : d.action? Action.taskIncludes = none)
    (hr : d.action? Action.roleIncludes = none) : ¬ Unfolds site t (.task scope path d) items := by
  intro h
  cases h with
  | block hb' => exact hb' hb
  | tasks _ ha => rw [ht] at ha; cases ha
  | role _ _ ha => rw [hr] at ha; cases ha

/-- **The leaves of some items are one list only.** -/
theorem Expands.unique {items : List Item} {l l' : List Leaf} (h : Expands site t items l)
    (h' : Expands site t items l') : l = l' := by
  induction h generalizing l' with
  | nil => cases h'; rfl
  | leaf hb ht hr _ ih =>
    cases h' with
    | leaf _ _ _ h' => rw [ih h']
    | unfold hu => exact absurd hu (not_unfolds hb ht hr)
  | unfold hu _ _ ih₁ ih₂ =>
    cases h' with
    | leaf hb ht hr => exact absurd hu (not_unfolds hb ht hr)
    | unfold hu' h₁ h₂ =>
      cases hu.unique hu'
      rw [ih₁ h₁, ih₂ h₂]

end Unique

/-- An item that consists of others has their leaves. -/
theorem Unfolds.expands {site : Site} {t : Templater} {item : Item} {items : List Item}
    {l : List Leaf} (hu : Unfolds site t item items) (h : Expands site t items l) :
    Expands site t [item] l := by
  have := Expands.unfold hu h .nil
  rw [List.append_nil] at this; exact this

theorem Expands.append {site : Site} {t : Templater} {items items' : List Item} {l l' : List Leaf}
    (h : Expands site t items l) (h' : Expands site t items' l') :
    Expands site t (items ++ items') (l ++ l') := by
  induction h with
  | nil => exact h'
  | leaf hb ht hr _ ih => exact .leaf hb ht hr ih
  | unfold hu h₁ _ _ ih => rw [List.append_assoc]; exact .unfold hu h₁ ih

end Runlist
