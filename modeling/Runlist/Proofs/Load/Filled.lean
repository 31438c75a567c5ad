import Mathlib.Data.List.Induction
import Runlist.Proofs.Load.Added
import Runlist.Proofs.Documents

/-!
# What the files of a role fill it with

The files of a role are met one after the other. Each of them goes into one of four lists, or into
none, and what the role is filled with is read off these lists. This holds from any state.

* `RoleFiles`, `RoleSelection.filesOf`: the files that count, by what they count for.
* `Graph.FileTasks`, `Graph.DeclaredBy`: tasks and a declaration are what a file says.
* `Graph.FilledWith`: **a role is filled with what some files say**.
* `loadRoleFile_fills`, `loadRoleFiles_fills`: one more file, and all of them.
* `loadRoleWith_filled`: **a role that is loaded is filled with its files**, and which failures
  there are.
* `loadRoleWith_others`: **files that do not count make no difference**.
-/

namespace Runlist

/-! ## Files that count -/

/-- The files of a role that count, by what they count for. -/
structure RoleFiles where
  tasks : List FilePath
  defaults : List FilePath
  vars : List FilePath
  declared : List FilePath

namespace RoleSelection

/-- The files that count, and one more, given by its folder and its names below the folder. -/
def add (selection : RoleSelection) (files : RoleFiles) (folder : String) (file : List String)
    (path : FilePath) : RoleFiles :=
  match folder with
  | "tasks" =>
    if selects selection.tasksFile file then { files with tasks := files.tasks ++ [path] }
      else files
  | "defaults" =>
    if selects selection.defaultsFile file then { files with defaults := files.defaults ++ [path] }
      else files
  | "vars" =>
    if selects selection.varsFile file then { files with vars := files.vars ++ [path] } else files
  | "meta" =>
    if selects mainFile file then { files with declared := files.declared ++ [path] } else files
  | _ => files

section Add

variable {selection : RoleSelection} {files : RoleFiles} {folder : String} {file : List String}
  {path : FilePath}

theorem add_tasks : selection.add files "tasks" file path =
    if selects selection.tasksFile file then { files with tasks := files.tasks ++ [path] }
      else files := rfl

theorem add_defaults : selection.add files "defaults" file path =
    if selects selection.defaultsFile file then { files with defaults := files.defaults ++ [path] }
      else files := rfl

theorem add_vars : selection.add files "vars" file path =
    if selects selection.varsFile file then { files with vars := files.vars ++ [path] }
      else files := rfl

theorem add_meta : selection.add files "meta" file path =
    if selects mainFile file then { files with declared := files.declared ++ [path] } else files :=
      rfl

theorem add_other (htasks : folder ≠ "tasks") (hdefaults : folder ≠ "defaults")
    (hvars : folder ≠ "vars") (hmeta : folder ≠ "meta") :
    selection.add files folder file path = files := by
  unfold add
  split
  · exact absurd rfl htasks
  · exact absurd rfl hdefaults
  · exact absurd rfl hvars
  · exact absurd rfl hmeta
  · rfl

end Add

/-- The files that count, and one more, given by its names below the directory of the role. -/
def addBelow (selection : RoleSelection) (dir : FilePath) (files : RoleFiles) :
    List String → RoleFiles
  | [] => files
  | folder :: file => selection.add files folder file (dir.below (folder :: file))

/-- **The files that count** among those below the directory of a role. -/
def filesOf (selection : RoleSelection) (dir : FilePath) (names : List (List String)) : RoleFiles :=
  names.foldl (selection.addBelow dir) ⟨[], [], [], []⟩

/-- A file is in a folder of a role and selected there. -/
def picks (folder option : String) : List String → Bool
  | [] => false
  | first :: file => first == folder && selects option file

/-- The paths of the files that are selected in a folder, in their order. -/
def picked (folder option : String) (dir : FilePath) (names : List (List String)) : List FilePath :=
  (names.filter (picks folder option)).map dir.below

theorem picked_append (folder option : String) (dir : FilePath)
    (names names' : List (List String)) :
    picked folder option dir (names ++ names') =
      picked folder option dir names ++ picked folder option dir names' := by
  rw [picked, List.filter_append, List.map_append]; rfl

theorem picked_here (folder option : String) (dir : FilePath) (file : List String) :
    picked folder option dir [folder :: file] =
      if selects option file then [dir.below (folder :: file)] else [] := by
  rw [picked, List.filter_cons, picks, beq_self_eq_true, Bool.true_and]
  split <;> rfl

theorem picked_elsewhere {first folder : String} (h : first ≠ folder) (option : String)
    (dir : FilePath) (file : List String) : picked folder option dir [first :: file] = [] := by
  rw [picked, List.filter_cons, picks, beq_eq_false_iff_ne.2 h]; rfl

/-- **Which files count** is said of each folder by itself. -/
theorem filesOf_eq (selection : RoleSelection) (dir : FilePath) (names : List (List String)) :
    selection.filesOf dir names =
      ⟨picked "tasks" selection.tasksFile dir names,
        picked "defaults" selection.defaultsFile dir names,
        picked "vars" selection.varsFile dir names, picked "meta" mainFile dir names⟩ := by
  induction names using List.reverseRecOn with
  | nil => rfl
  | append_singleton names file ih =>
    rw [filesOf, List.foldl_append, ← filesOf, ih, picked_append, picked_append, picked_append,
      picked_append]
    cases file with
    | nil =>
      simp only [List.foldl_cons, List.foldl_nil, addBelow, picked, picks, List.filter_cons,
        List.filter_nil, Bool.false_eq_true, if_false, List.map_nil, List.append_nil]
    | cons folder file =>
      rw [List.foldl_cons, List.foldl_nil, addBelow]
      by_cases htasks : folder = "tasks"
      · subst htasks
        rw [add_tasks, picked_here, picked_elsewhere (by decide), picked_elsewhere (by decide),
          picked_elsewhere (by decide)]
        split <;> simp only [List.append_nil]
      by_cases hdefaults : folder = "defaults"
      · subst hdefaults
        rw [add_defaults, picked_here, picked_elsewhere (by decide), picked_elsewhere (by decide),
          picked_elsewhere (by decide)]
        split <;> simp only [List.append_nil]
      by_cases hvars : folder = "vars"
      · subst hvars
        rw [add_vars, picked_here, picked_elsewhere (by decide), picked_elsewhere (by decide),
          picked_elsewhere (by decide)]
        split <;> simp only [List.append_nil]
      by_cases hmeta : folder = "meta"
      · subst hmeta
        rw [add_meta, picked_here, picked_elsewhere (by decide), picked_elsewhere (by decide),
          picked_elsewhere (by decide)]
        split <;> simp only [List.append_nil]
      · rw [add_other htasks hdefaults hvars hmeta, picked_elsewhere htasks,
          picked_elsewhere hdefaults, picked_elsewhere hvars, picked_elsewhere hmeta]
        simp only [List.append_nil]

end RoleSelection

/-! ## What files say -/

/-- The variables of a file, if it has any. -/
def Site.variables? (site : Site) (path : FilePath) : Option Variables :=
  (readDeclared site Declaration.vars path).toOption

/-- What a file declares about a role, if it does. -/
def Site.declaration? (site : Site) (path : FilePath) : Option (FilePath × MetaDeclaration) :=
  (readDeclared site Declaration.roleMeta path).toOption.map fun m => (path, m)

/-- **The variables of some files**, later ones over earlier ones; files without any are passed
over. -/
def Site.layered (site : Site) (paths : List FilePath) : Variables :=
  (paths.filterMap site.variables?).foldl Variables.assign []

/-- **What the last of some files declares about a role**; files that do not declare anything are
passed over. -/
def Site.lastDeclaration (site : Site) (paths : List FilePath) :
    Option (FilePath × MetaDeclaration) :=
  (paths.filterMap site.declaration?).getLast?

theorem Site.layered_concat (site : Site) (paths : List FilePath) (path : FilePath) :
    site.layered (paths ++ [path]) =
      (site.layered paths).assign ((site.variables? path).getD []) := by
  unfold Site.layered
  rw [List.filterMap_append, List.foldl_append]
  cases h : site.variables? path with
  | none => simp [h, Variables.assign]
  | some vars => simp [h]

theorem Site.lastDeclaration_concat (site : Site) (paths : List FilePath) (path : FilePath) :
    site.lastDeclaration (paths ++ [path]) =
      (site.declaration? path).or (site.lastDeclaration paths) := by
  unfold Site.lastDeclaration
  rw [List.filterMap_append, List.getLast?_append]
  cases h : site.declaration? path with
  | none => simp [h]
  | some file => simp [h]

namespace Graph

variable {g₀ g g' : Graph} {site : Site} {r : RoleId} {play : Option PlayId} {around : OriginId}
  {path : FilePath}

/-- **New tasks are what a file says**, in the scope of a role. -/
def FileTasks (site : Site) (g₀ g : Graph) (r : RoleId) (play : Option PlayId) (around : OriginId)
    (path : FilePath) (xs : List TaskId) : Prop :=
  ∃ text document items, site.disk.read path = .ok text ∧ Document.read? text = some document ∧
    taskMappings? (some document.value) = some items ∧
    g₀.Planted g ⟨path, some r, play⟩ around items xs

/-- **What a role declares about itself** is what a file says, or nothing. -/
def DeclaredBy (g : Graph) (around : OriginId) (declared : RoleMeta) :
    Option (FilePath × MetaDeclaration) → Prop
  | none => declared = .empty
  | some (path, m) => ∃ o, declared.origin = some o ∧ g.HasOrigin o ∧
      g.origin o = ⟨.roleMeta, path, m.range, none, some around⟩ ∧
      List.Forall₂ (fun d ref => g.StampedReference path o d ref ∧ d.vars = ref.vars)
        declared.dependencies m.dependencies

theorem DeclaredBy.keeps {declared : RoleMeta} {file : Option (FilePath × MetaDeclaration)}
    (h : g.DeclaredBy around declared file) (k : g.Keeps g') :
    g'.DeclaredBy around declared file := by
  cases file with
  | none => exact h
  | some file =>
    obtain ⟨o, ho, hhas, horigin, hreferences⟩ := h
    exact ⟨o, ho, k.hasOrigin hhas, (k.origin o hhas).trans horigin,
      hreferences.imp fun _ _ h => ⟨h.1.keeps k, h.2⟩⟩

/-- **A role is filled with what some files say.** -/
structure FilledWith (site : Site) (g₀ g : Graph) (r : RoleId) (role : Role)
    (files : RoleFiles) : Prop where
  tasks : ∃ parts, role.tasks = parts.flatten ∧
      List.Forall₂ (FileTasks site g₀ g r role.play role.origin) files.tasks parts
  defaults : role.defaults = site.layered files.defaults
  vars : role.vars = site.layered files.vars
  declared : g.DeclaredBy role.origin role.declared (site.lastDeclaration files.declared)

namespace FilledWith

variable {role : Role} {files : RoleFiles}

theorem adds (h : FilledWith site g₀ g r role files) (hadds : g.Adds g') :
    FilledWith site g₀ g' r role files := by
  obtain ⟨parts, htasks, hparts⟩ := h.tasks
  refine { h with
    tasks := ⟨parts, htasks, hparts.imp ?_⟩
    declared := h.declared.keeps hadds.keeps }
  rintro path xs ⟨text, document, items, hread, hdocument, hitems, hplanted⟩
  exact ⟨text, document, items, hread, hdocument, hitems, hplanted.adds hadds⟩

/-- Whether the role is in the graph does not matter for what it is filled with. -/
theorem modifyRole (h : FilledWith site g₀ g r role files) (q : RoleId) (f : Role → Role) :
    FilledWith site g₀ (g.modifyRole q f) r role files := by
  obtain ⟨parts, htasks, hparts⟩ := h.tasks
  refine { h with tasks := ⟨parts, htasks, hparts.imp ?_⟩, declared := ?_ }
  · rintro path xs ⟨text, document, items, hread, hdocument, hitems, hplanted⟩
    exact ⟨text, document, items, hread, hdocument, hitems, hplanted.of_eq rfl rfl⟩
  · have hdeclared := h.declared
    revert hdeclared
    cases site.lastDeclaration files.declared with
    | none => exact id
    | some file =>
      rintro ⟨o, ho, hhas, horigin, hreferences⟩
      exact ⟨o, ho, hhas, horigin, hreferences.imp fun _ _ h =>
        ⟨⟨h.1.has, h.1.name, h.1.origin⟩, h.2⟩⟩

/-- One more file of tasks. -/
theorem moreTasks (h : FilledWith site g₀ g r role files) {xs : List TaskId}
    (hxs : FileTasks site g₀ g r role.play role.origin path xs) :
    FilledWith site g₀ g r { role with tasks := role.tasks ++ xs }
      { files with tasks := files.tasks ++ [path] } := by
  obtain ⟨parts, htasks, hparts⟩ := h.tasks
  refine { h with tasks := ⟨parts ++ [xs], ?_, List.rel_append hparts (.cons hxs .nil)⟩ }
  rw [List.flatten_append, ← htasks, List.flatten_singleton]

/-- One more file of defaults. -/
theorem moreDefaults (h : FilledWith site g₀ g r role files) (path : FilePath) :
    FilledWith site g₀ g r
      { role with defaults := role.defaults.assign ((site.variables? path).getD []) }
      { files with defaults := files.defaults ++ [path] } :=
  { h with defaults := by rw [site.layered_concat, ← h.defaults] }

/-- One more file of variables. -/
theorem moreVars (h : FilledWith site g₀ g r role files) (path : FilePath) :
    FilledWith site g₀ g r { role with vars := role.vars.assign ((site.variables? path).getD []) }
      { files with vars := files.vars ++ [path] } :=
  { h with vars := by rw [site.layered_concat, ← h.vars] }

/-- One more file in which the role declares something about itself. -/
theorem redeclare (h : FilledWith site g₀ g r role files) {m : MetaDeclaration}
    {declared : RoleMeta} (hread : readDeclared site Declaration.roleMeta path = .ok m)
    (hdeclared : g.DeclaredBy role.origin declared (some (path, m))) :
    FilledWith site g₀ g r { role with declared }
      { files with declared := files.declared ++ [path] } := by
  have hsome : site.declaration? path = some (path, m) := by rw [Site.declaration?, hread]; rfl
  refine { h with declared := ?_ }
  rw [site.lastDeclaration_concat, hsome]
  exact hdeclared

/-- One more file that declares nothing about the role. -/
theorem passOver (h : FilledWith site g₀ g r role files) {e : ReadFailure}
    (hread : readDeclared site Declaration.roleMeta path = .error e) :
    FilledWith site g₀ g r role { files with declared := files.declared ++ [path] } := by
  have hnone : site.declaration? path = none := by rw [Site.declaration?, hread]; rfl
  refine { h with declared := ?_ }
  rw [site.lastDeclaration_concat, hnone]
  exact h.declared

end FilledWith

/-- What is declared about a role is stamped. -/
theorem declaredBy_stampMeta (g : Graph) (path : FilePath) (around : OriginId)
    (m : MetaDeclaration) :
    g.Adds (g.stampMeta path around m).2 ∧
      (g.stampMeta path around m).2.DeclaredBy around (g.stampMeta path around m).1
        (some (path, m)) := by
  have horigin := addsTasks_addOrigin (g := g) ⟨.roleMeta, path, m.range, none, some around⟩
  have hhas :
      (g.addOrigin ⟨.roleMeta, path, m.range, none, some around⟩).2.HasOrigin ⟨g.origins.size⟩ :=
    hasOrigin_addOrigin.2 (.inl rfl)
  obtain ⟨hadds, hstamped⟩ := addsTasks_stampReferences
    (g.addOrigin ⟨.roleMeta, path, m.range, none, some around⟩).2 path
    ⟨g.origins.size⟩ m.dependencies
  refine ⟨(horigin.trans hadds).toAdds, ⟨g.origins.size⟩, rfl,
    hadds.toAdds.keeps.hasOrigin hhas, ?_,
    forall₂_both hstamped (vars_stampReferences _ path _ m.dependencies)⟩
  have hplace := (hadds.toAdds.origin _ hhas).trans (origin_addOrigin_self _)
  exact hplace

end Graph

/-! ## One file after the other -/

section Files

variable {site : Site} {s s₁ : Store} {o : Option OriginId} {play : Option PlayId} {name : String}
  {dir : FilePath}
  {isPublic : Bool} {selection : RoleSelection}

/-- The tasks of a file are new, or the file cannot be read. -/
theorem loadTasksIn_plants (site : Site) (around : OriginId) (r : RoleId) (play : Option PlayId)
    (path : FilePath) (s : Store) :
    Ends (loadTasksIn site (some around) (some r) play path) s
      (fun xs s' => s.graph.Adds s'.graph ∧
        Graph.FileTasks site s.graph s'.graph r play around path xs)
      fun e _ => site.readTasks path = .error e := by
  unfold loadTasksIn readFile Site.readTasks
  rw [ends_bind]
  cases hread : site.disk.read path with
  | error e => exact rfl
  | ok text =>
    rw [ends_pure]
    simp only
    cases hdeclared : Declaration.ofText Declaration.taskList text with
    | error e => exact rfl
    | ok ds =>
      unfold Declaration.ofText at hdeclared
      split at hdeclared
      · rename_i document hdocument
        obtain ⟨items, hitems, hdeclares⟩ := Declaration.declares_tasks hdeclared
        exact ⟨(Graph.addsTasks_stampTasks s.graph _ _ none ds).toAdds, text, document, items,
          hread, hdocument, hitems,
          Graph.planted_stampTasks hdeclares s.graph _ around⟩
      · cases hdeclared

/-- The role is changed to what it is filled with. -/
theorem filledWith_modify {g₀ g g' : Graph} {r : RoleId} {files : RoleFiles} {f : Role → Role}
    (hadds : g.Adds g') (has : g.HasRole r)
    (h : Graph.FilledWith site g₀ g' r (f (g.role r)) files) :
    Graph.FilledWith site g₀ (g'.modifyRole r f) r ((g'.modifyRole r f).role r) files := by
  rw [Graph.role_modifyRole_self (hadds.keeps.hasRole has), hadds.role r has]
  exact h.modifyRole r f

/-- The variables of a file, or a notice. -/
theorem loadRoleVars_reads_file (site : Site) (path : FilePath) (s : Store) :
    Ends (loadRoleVars site path) s
      (fun vars s' => vars = (site.variables? path).getD [] ∧ s'.graph = s.graph)
      fun _ _ => False := by
  unfold loadRoleVars Site.variables?
  cases readDeclared site Declaration.vars path with
  | ok vars => exact ⟨rfl, rfl⟩
  | error e => exact ⟨rfl, rfl⟩

/-- **One more file** fills the role, or it is a file of tasks that cannot be read. -/
theorem loadRoleFile_fills {g₀ : Graph} {r : RoleId} {files : RoleFiles} (hg₀ : g₀.Adds s₁.graph)
    (has : s₁.graph.HasRole r) (h : Graph.FilledWith site g₀ s₁.graph r (s₁.graph.role r) files)
    (selection : RoleSelection) (folder : String) (file : List String) (path : FilePath) :
    Ends (loadRoleFile site selection r folder file path) s₁
      (fun _ s₂ =>
        Graph.FilledWith site g₀ s₂.graph r (s₂.graph.role r)
          (selection.add files folder file path))
      fun e _ => folder = "tasks" ∧ RoleSelection.selects selection.tasksFile file = true ∧
      site.readTasks path = .error e := by
  unfold loadRoleFile
  rw [ends_bind, ends_graph]
  simp only
  split
  · rw [RoleSelection.add_tasks]
    split
    · rename_i hselects
      rw [ends_bind]
      refine (loadTasksIn_plants site _ r _ path s₁).mono ?_ fun e _ hfail => ⟨rfl, hselects, hfail⟩
      rintro xs s₂ ⟨hadds, text, document, items, hread, hdocument, hitems, hplanted⟩
      refine filledWith_modify hadds has ((h.adds hadds).moreTasks ?_)
      exact ⟨text, document, items, hread, hdocument, hitems, hplanted.since hg₀⟩
    · exact h
  · rw [RoleSelection.add_defaults]
    split
    · rw [ends_bind]
      refine (loadRoleVars_reads_file site path s₁).mono ?_ fun _ _ h => h.elim
      rintro vars s₂ ⟨rfl, hgraph⟩
      rw [ends_update, hgraph]
      exact filledWith_modify (.refl _) has (h.moreDefaults path)
    · exact h
  · rw [RoleSelection.add_vars]
    split
    · rw [ends_bind]
      refine (loadRoleVars_reads_file site path s₁).mono ?_ fun _ _ h => h.elim
      rintro vars s₂ ⟨rfl, hgraph⟩
      rw [ends_update, hgraph]
      exact filledWith_modify (.refl _) has (h.moreVars path)
    · exact h
  · rw [RoleSelection.add_meta]
    split
    · cases hread : readDeclared site Declaration.roleMeta path with
      | error e => exact h.passOver hread
      | ok m =>
        rw [ends_bind, ends_change]
        obtain ⟨hadds, hdeclared⟩ :=
          Graph.declaredBy_stampMeta s₁.graph path (s₁.graph.role r).origin m
        exact filledWith_modify hadds has ((h.adds hadds).redeclare hread hdeclared)
    · exact h
  · rename_i htasks hdefaults hvars hmeta
    rw [RoleSelection.add_other htasks hdefaults hvars hmeta]
    exact h

/-- One file of a role, given by its names below the directory of the role. -/
def loadRoleBelow (site : Site) (selection : RoleSelection) (r : RoleId) (dir : FilePath) :
    List String → Load Unit
  | [] => return ()
  | folder :: file => loadRoleFile site selection r folder file (dir.below (folder :: file))

theorem loadRoleFiles_eq (site : Site) (selection : RoleSelection) (r : RoleId) (dir : FilePath) :
    loadRoleFiles site selection r dir =
      match site.disk.filesBelow dir with
      | .error e => throw (.walk dir e)
      | .ok names => names.forM (loadRoleBelow site selection r dir) := by
  unfold loadRoleFiles
  cases site.disk.filesBelow dir with
  | error e => rfl
  | ok names =>
    refine congrArg (List.forM names) (funext fun below => ?_)
    cases below <;> rfl

/-- **All files**, one after the other, up to a file of tasks that cannot be read. -/
theorem forM_fills {files : RoleFiles} (hadded : AddedRole s s₁ o play name dir isPublic)
    (h : Graph.FilledWith site s.graph s₁.graph ⟨s.graph.roles.size⟩
      (s₁.graph.role ⟨s.graph.roles.size⟩) files)
    (selection : RoleSelection) (names : List (List String)) :
    Ends (names.forM (loadRoleBelow site selection ⟨s.graph.roles.size⟩ dir)) s₁
      (fun _ s₂ =>
        Graph.FilledWith site s.graph s₂.graph ⟨s.graph.roles.size⟩
          (s₂.graph.role ⟨s.graph.roles.size⟩) (names.foldl (selection.addBelow dir) files))
      fun e _ => ∃ file, "tasks" :: file ∈ names ∧
      RoleSelection.selects selection.tasksFile file = true ∧
        site.readTasks (dir.below ("tasks" :: file)) = .error e := by
  induction names generalizing s₁ files with
  | nil => exact h
  | cons below names ih =>
    show Ends (loadRoleBelow site selection ⟨s.graph.roles.size⟩ dir below >>= fun _ =>
      names.forM (loadRoleBelow site selection ⟨s.graph.roles.size⟩ dir)) s₁ _ _
    rw [ends_bind]
    have hlater : ∀ (e : LoadError), (∃ file, "tasks" :: file ∈ names ∧
        RoleSelection.selects selection.tasksFile file = true ∧
        site.readTasks (dir.below ("tasks" :: file)) = .error e) →
        ∃ file, "tasks" :: file ∈ below :: names ∧
          RoleSelection.selects selection.tasksFile file = true ∧
          site.readTasks (dir.below ("tasks" :: file)) = .error e :=
      fun _ ⟨file, hmem, hfail⟩ => ⟨file, List.mem_cons_of_mem _ hmem, hfail⟩
    cases below with
    | nil => exact (ih hadded h).mono (fun _ _ h => h) fun e _ => hlater e
    | cons folder file =>
      refine ((loadRoleFile_adds hadded selection folder file (dir.below (folder :: file))).and
        (loadRoleFile_fills hadded.adds hadded.has h selection folder file
          (dir.below (folder :: file)))).mono ?_ ?_
      · rintro _ s₂ ⟨hadded₂, h₂⟩
        exact (ih hadded₂ h₂).mono (fun _ _ h => h) fun e _ => hlater e
      · rintro e s₂ ⟨-, rfl, hselects, hfail⟩
        exact ⟨file, List.mem_cons_self, hselects, hfail⟩

/-- A role without files is filled with nothing. -/
theorem filledWith_new {g₀ g : Graph} {role : Role} (htasks : role.tasks = [])
    (hdefaults : role.defaults = []) (hvars : role.vars = []) (hdeclared : role.declared = .empty) :
    Graph.FilledWith site g₀ (g.addRole role).2 ⟨g.roles.size⟩
      ((g.addRole role).2.role ⟨g.roles.size⟩) ⟨[], [], [], []⟩ := by
  rw [Graph.role_addRole_self]
  exact ⟨⟨[], htasks, .nil⟩, hdefaults, hvars, hdeclared⟩

/-- **A role that is loaded is filled with its files.** Its loading fails if its directory cannot be
listed, or if one of its files of tasks cannot be read. -/
theorem loadRoleWith_filled (site : Site) (o : Option OriginId) (play : Option PlayId)
    (name : String) (selection : RoleSelection) (hdir : s.locate site name = .ok dir) :
    Ends (loadRoleWith site o play name selection) s
      (fun r s' => ∃ names, site.disk.filesBelow dir = .ok names ∧
        Graph.FilledWith site s.graph s'.graph r (s'.graph.role r) (selection.filesOf dir names))
      fun e _ => (∃ io, site.disk.filesBelow dir = .error io ∧ e = .walk dir io) ∨
        ∃ names path, site.disk.filesBelow dir = .ok names ∧
          path ∈ (selection.filesOf dir names).tasks ∧
          site.readTasks path = .error e := by
  unfold loadRoleWith
  rw [ends_bind, ends_get, hdir, ends_bind, ends_ofExcept]
  refine ⟨?_, fun e h => by cases h⟩
  rintro _ ⟨⟩
  rw [ends_bind, ends_change, ends_bind, loadRoleFiles_eq]
  cases hnames : site.disk.filesBelow dir with
  | error io => exact .inl ⟨io, rfl, rfl⟩
  | ok names =>
    refine (forM_fills (addedRole_new s o play name dir (selection.isPublic.getD false))
      (filledWith_new rfl rfl rfl rfl) selection names).mono ?_ ?_
    · rintro _ s₂ h₂
      rw [ends_bind, ends_modify, ends_pure, graph_addRoleDir]
      exact ⟨names, rfl, h₂⟩
    · rintro e s₂ ⟨file, hmem, hselects, hfail⟩
      refine .inr ⟨names, _, rfl, ?_, hfail⟩
      rw [RoleSelection.filesOf_eq]
      refine List.mem_map_of_mem (List.mem_filter.2 ⟨hmem, ?_⟩)
      rw [RoleSelection.picks, hselects]; rfl

end Files

/-! ## Files that do not count -/

/-- The file counts for something. -/
def RoleSelection.counts (selection : RoleSelection) (names : List String) : Bool :=
  picks "tasks" selection.tasksFile names || picks "defaults" selection.defaultsFile names ||
    picks "vars" selection.varsFile names || picks "meta" mainFile names

section Others

variable {site site' : Site} {dir : FilePath} {selection : RoleSelection} {r : RoleId}

/-- A file that does not count is passed over. -/
theorem loadRoleBelow_other {below : List String} (h : selection.counts below = false) :
    loadRoleBelow site selection r dir below = pure () := by
  cases below with
  | nil => rfl
  | cons folder file =>
    unfold RoleSelection.counts RoleSelection.picks at h
    simp only [Bool.or_eq_false_iff, Bool.and_eq_false_iff, beq_eq_false_iff_ne] at h
    obtain ⟨⟨⟨htasks, hdefaults⟩, hvars⟩, hmeta⟩ := h
    have hnothing : ∀ next : Graph → Load Unit, (∀ g, next g = pure ()) →
        (Load.graph >>= next) = pure () := by
      intro next hnext
      rw [funext hnext]; rfl
    have hselected : ∀ {folder' : String} {selects : Bool}, folder' ≠ folder' ∨ selects = false →
        ¬ selects = true :=
      fun h => h.elim (fun hne => absurd rfl hne) fun hfalse => by
        rw [hfalse]; exact Bool.false_ne_true
    rw [loadRoleBelow, loadRoleFile]
    refine hnothing _ fun g => ?_
    simp only
    split
    · rw [if_neg (hselected htasks)]
    · rw [if_neg (hselected hdefaults)]
    · rw [if_neg (hselected hvars)]
    · rw [if_neg (hselected hmeta)]
    · rfl

/-- The files that count are as good as all. -/
theorem forM_counts (names : List (List String)) : names.forM (loadRoleBelow site selection r dir) =
    (names.filter selection.counts).forM (loadRoleBelow site selection r dir) := by
  induction names with
  | nil => rfl
  | cons below names ih =>
    show (loadRoleBelow site selection r dir below >>= fun _ =>
      names.forM (loadRoleBelow site selection r dir)) = _
    cases hcounts : selection.counts below with
    | false =>
      rw [List.filter_cons_of_neg (by simp [hcounts]), loadRoleBelow_other hcounts, pure_bind, ih]
    | true => rw [List.filter_cons_of_pos hcounts, ih]; rfl

/-- What is read of a file is in its text. -/
theorem loadRoleBelow_congr {below : List String}
    (h : site'.disk.read (dir.below below) = site.disk.read (dir.below below)) :
    loadRoleBelow site' selection r dir below = loadRoleBelow site selection r dir below := by
  cases below with
  | nil => rfl
  | cons folder file =>
    have hdeclared : ∀ {α : Type} (read : Document → Declaration.Decoded α),
        readDeclared site' read (dir.below (folder :: file)) =
          readDeclared site read (dir.below (folder :: file)) := by
      intro α read
      rw [readDeclared, h, readDeclared]
    have htasks : ∀ o role play, loadTasksIn site' o role play (dir.below (folder :: file)) =
        loadTasksIn site o role play (dir.below (folder :: file)) := by
      intro o role play
      rw [loadTasksIn, readFile, h, loadTasksIn, readFile]
    have hvars : loadRoleVars site' (dir.below (folder :: file)) =
        loadRoleVars site (dir.below (folder :: file)) := by
      rw [loadRoleVars, hdeclared, loadRoleVars]
    simp only [loadRoleBelow, loadRoleFile, htasks, hvars, hdeclared]

/-- **Files that do not count make no difference.** Two sites with the same files that count, and
with the same texts in these, give the same role. -/
theorem loadRoleWith_others {s : Store} {o : Option OriginId} {play : Option PlayId} {name : String}
    (hdir : s.locate site name = .ok dir) (hdir' : s.locate site' name = .ok dir)
    (hnames : (site'.disk.filesBelow dir).map (List.filter selection.counts) =
      (site.disk.filesBelow dir).map (List.filter selection.counts))
    (hread : ∀ names below, site.disk.filesBelow dir = .ok names → below ∈ names →
      selection.counts below = true →
      site'.disk.read (dir.below below) = site.disk.read (dir.below below)) :
    (loadRoleWith site' o play name selection).run.run s =
      (loadRoleWith site o play name selection).run.run s := by
  have hfiles : ∀ r, loadRoleFiles site' selection r dir = loadRoleFiles site selection r dir := by
    intro r
    rw [loadRoleFiles_eq, loadRoleFiles_eq]
    cases hbelow : site.disk.filesBelow dir with
    | error e =>
      rw [hbelow] at hnames
      cases hbelow' : site'.disk.filesBelow dir with
      | error e' => rw [hbelow'] at hnames; cases hnames; rfl
      | ok names' => rw [hbelow'] at hnames; cases hnames
    | ok names =>
      rw [hbelow] at hnames
      cases hbelow' : site'.disk.filesBelow dir with
      | error e' => rw [hbelow'] at hnames; cases hnames
      | ok names' =>
        rw [hbelow'] at hnames
        have hsame : names'.filter selection.counts = names.filter selection.counts :=
          Except.ok.inj hnames
        simp only
        rw [forM_counts names', forM_counts names, hsame]
        -- each of the files that count is read the same
        have hcongr : ∀ below ∈ names.filter selection.counts,
            loadRoleBelow site' selection r dir below =
              loadRoleBelow site selection r dir below := by
          intro below hmem
          obtain ⟨hbelow₁, hcounts⟩ := List.mem_filter.1 hmem
          exact loadRoleBelow_congr (hread names below hbelow hbelow₁ hcounts)
        generalize names.filter selection.counts = counting at hcongr
        induction counting with
        | nil => rfl
        | cons below rest ih =>
          show (loadRoleBelow site' selection r dir below >>= fun _ =>
            rest.forM (loadRoleBelow site' selection r dir)) =
            (loadRoleBelow site selection r dir below >>= fun _ =>
              rest.forM (loadRoleBelow site selection r dir))
          rw [hcongr below List.mem_cons_self, ih fun b hb => hcongr b (List.mem_cons_of_mem _ hb)]
  have hget : ∀ next : Store → Load RoleId, (get >>= next).run.run s = (next s).run.run s :=
    fun _ => rfl
  have hlocated : ∀ next : FilePath → Load RoleId, (Load.ofExcept (.ok dir) >>= next) = next dir :=
    fun _ => rfl
  unfold loadRoleWith
  rw [hget, hget, hdir, hdir', hlocated, hlocated]
  simp only [hfiles]

end Others

end Runlist
