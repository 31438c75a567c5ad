import Runlist.Parameters
import Runlist.Proofs.Spelling.Graphs

/-!
# Loading from sites that are alike

Whatever is loaded from one of two sites that are alike, the like of it is loaded from the other: it
gets the same handles, or loading fails for the same cause.

* `Store.Alike`, `LoadError.Alike`: states and failures of loading that are alike.
* `Load.Alike`: two steps of loading that end alike, and the rules for the steps of which loading is
  made.
* `Site.Alike.loadTasksIn`, `Site.Alike.loadRoleWith`, `Site.Alike.loadPlaybook`: **what is loaded
  is alike.**
* `Site.Alike.taskVars`, `renderParams_alike`: variables and rendered parameters are the same.
-/

namespace Runlist

/-- Two states that are alike. What was passed over does not count. -/
structure Store.Alike (lines : LineRange → LineRange → Prop) (s s' : Store) : Prop where
  graph : s.graph.Alike lines s'.graph
  roleDirs : s'.roleDirs = s.roleDirs

/-- **Two failures that are alike**: why the text of a document is rejected may differ. -/
inductive LoadError.Alike : LoadError → LoadError → Prop
  | same (e : LoadError) : LoadError.Alike e e
  | taskDecode {path : FilePath} {reason reason' : DecodeError} :
      LoadError.Alike (.taskDecode path reason) (.taskDecode path reason')
  | varsFileRead {path : FilePath} {reason reason' : ReadFailure} :
      LoadError.Alike (.varsFileRead path reason) (.varsFileRead path reason')

/-- **Two steps of loading end alike.** -/
abbrev Load.Alike (lines : LineRange → LineRange → Prop) {α β : Type} (Q : α → β → Prop)
    (x : Load α) (y : Load β) : Prop :=
  Twin (Store.Alike lines) LoadError.Alike Q x y

variable {lines : LineRange → LineRange → Prop}

/-! ## Rules -/

namespace Twin

variable {α β : Type} {Q : α → β → Prop}

theorem graph : Load.Alike lines (Graph.Alike lines) Load.graph Load.graph :=
  fun _ _ h => ⟨.ok h.graph, h⟩

theorem ofExcept {r : Except LoadError α} {r' : Except LoadError β}
    (h : Both LoadError.Alike Q r r') :
    Load.Alike lines Q (Load.ofExcept r) (Load.ofExcept r') := by
  cases h with
  | ok h => exact .pure h
  | error h => exact .throw h

theorem update {f f' : Graph → Graph} (h : ∀ g g', g.Alike lines g' → (f g).Alike lines (f' g')) :
    Load.Alike lines Eq (Load.update f) (Load.update f') :=
  fun _ _ hs => ⟨.ok rfl, h _ _ hs.graph, hs.roleDirs⟩

theorem change {f f' : Graph → α × Graph}
    (h : ∀ g g', g.Alike lines g' → (f' g').1 = (f g).1 ∧ (f g).2.Alike lines (f' g').2) :
    Load.Alike lines Eq (Load.change f) (Load.change f') :=
  fun _ _ hs => ⟨.ok (h _ _ hs.graph).1.symm, (h _ _ hs.graph).2, hs.roleDirs⟩

theorem note (n n' : Notice) : Load.Alike lines Eq (Load.note n) (Load.note n') :=
  fun _ _ hs => ⟨.ok rfl, hs.graph, hs.roleDirs⟩

end Twin

namespace Site.Alike

variable {site site' : Site} (h : site.Alike lines site')
include h

/-! ## Files -/

theorem readFile (path : FilePath) :
    Load.Alike lines (TextAlike lines) (readFile site path) (readFile site' path) := by
  unfold Runlist.readFile
  have hread := h.read path
  generalize site.disk.read path = r, site'.disk.read path = r' at hread ⊢
  cases hread with
  | ok htext => exact .pure htext
  | error he => exact .throw (he ▸ .same _)

/-- **The tasks of a file are loaded alike.** -/
theorem loadTasksIn (o : Option OriginId) (role : Option RoleId) (play : Option PlayId)
    (path : FilePath) :
    Load.Alike lines Eq (loadTasksIn site o role play path)
      (loadTasksIn site' o role play path) := by
  unfold Runlist.loadTasksIn
  refine (h.readFile path).bind fun text text' htext => ?_
  have htasks := htext.tasks
  generalize Declaration.ofText Declaration.taskList text =
    r, Declaration.ofText Declaration.taskList text' = r'
    at htasks ⊢
  cases htasks with
  | ok hds => exact .change fun g g' hg => Graph.stampTasks_alike _ _ _ hds hg
  | error => exact .throw .taskDecode

/-- A reading of a document that spellings have no part in. -/
theorem readDeclared {α : Type} {read : Document → Declaration.Decoded α}
    (hread : ∀ text text', TextAlike lines text text' →
      Both (fun _ _ => True) Eq (Declaration.ofText read text) (Declaration.ofText read text'))
        (path : FilePath) :
    Both (fun _ _ => True) Eq (readDeclared site read path) (readDeclared site' read path) := by
  unfold Runlist.readDeclared
  have hfile := h.read path
  generalize site.disk.read path = r, site'.disk.read path = r' at hfile ⊢
  cases hfile with
  | ok htext => exact (hread _ _ htext).mapError fun _ _ _ => trivial
  | error => exact .error trivial

theorem loadVarsFile (dir : FilePath) (file : String) :
    Both LoadError.Alike Eq (loadVarsFile site dir file) (loadVarsFile site' dir file) :=
  (h.readDeclared (fun _ _ htext => htext.vars) _).mapError fun _ _ _ => .varsFileRead

theorem loadRoleVars (path : FilePath) :
    Load.Alike lines Eq (loadRoleVars site path) (loadRoleVars site' path) := by
  unfold Runlist.loadRoleVars
  have hvars : Both (fun _ _ => True) Eq (Runlist.readDeclared site Declaration.vars path)
      (Runlist.readDeclared site' Declaration.vars path) :=
    h.readDeclared (fun _ _ htext => htext.vars) path
  generalize Runlist.readDeclared site Declaration.vars path = r,
    Runlist.readDeclared site' Declaration.vars path = r' at hvars ⊢
  cases hvars with
  | ok hvars => exact .pure hvars
  | error => exact (Twin.note _ _).next fun _ => .pure rfl

/-! ## Roles -/

variable (hlines : ∀ l, lines l l)
include hlines

theorem loadRoleFile (selection : RoleSelection) (id : RoleId) (folder : String)
    (file : List String) (path : FilePath) :
    Load.Alike lines Eq (loadRoleFile site selection id folder file path)
    (loadRoleFile site' selection id folder file path) := by
  unfold Runlist.loadRoleFile
  refine Twin.graph.bind fun g g' hg => ?_
  simp only [hg.role]
  split
  · split
    · exact (h.loadTasksIn _ _ _ _).next fun _ => .update fun _ _ hg => hg.modifyRole _ _
    · exact .pure rfl
  · split
    · exact (h.loadRoleVars _).next fun _ => .update fun _ _ hg => hg.modifyRole _ _
    · exact .pure rfl
  · split
    · exact (h.loadRoleVars _).next fun _ => .update fun _ _ hg => hg.modifyRole _ _
    · exact .pure rfl
  · split
    · have hmeta : Both (fun _ _ => True) Eq (Runlist.readDeclared site Declaration.roleMeta path)
          (Runlist.readDeclared site' Declaration.roleMeta path) :=
        h.readDeclared (fun _ _ htext => htext.declared) path
      generalize Runlist.readDeclared site Declaration.roleMeta path = r,
        Runlist.readDeclared site' Declaration.roleMeta path = r' at hmeta ⊢
      cases hmeta with
      | error => exact .note _ _
      | ok hmeta =>
        subst hmeta
        exact (Twin.change fun g g' hg => hg.stampMeta hlines _ _ _).next fun _ =>
          .update fun _ _ hg => hg.modifyRole _ _
    · exact .pure rfl
  · exact .pure rfl

theorem loadRoleFiles (selection : RoleSelection) (id : RoleId) (dir : FilePath) :
    Load.Alike lines Eq (loadRoleFiles site selection id dir)
      (loadRoleFiles site' selection id dir) := by
  unfold Runlist.loadRoleFiles
  rw [h.filesBelow]
  cases site.disk.filesBelow dir with
  | error e => exact .throw (.same _)
  | ok files =>
    refine Twin.forM (fun names => ?_) files
    cases names with
    | nil => exact .pure rfl
    | cons folder file => exact h.loadRoleFile hlines _ _ _ _ _

/-- **A role is loaded alike.** -/
theorem loadRoleWith (o : Option OriginId) (play : Option PlayId) (name : String)
    (selection : RoleSelection) :
    Load.Alike lines Eq (loadRoleWith site o play name selection)
      (loadRoleWith site' o play name selection) := by
  unfold Runlist.loadRoleWith
  refine Twin.get.bind fun s s' hs => ?_
  have hlocate : s'.locate site' name = s.locate site name := by
    unfold Store.locate Store.roleDir?
    rw [hs.roleDirs, h.findRole]
  rw [hlocate]
  refine (Twin.ofExcept (.refl .same (fun _ => rfl) _)).next fun dir => ?_
  refine (Twin.change fun g g' hg => ?_).next fun id => ?_
  · have hnext :=
      hg.addOrigin (o := ⟨.role, dir, .unknown, some name, o⟩) ⟨rfl, rfl, hlines _, rfl, rfl⟩
    unfold Graph.addOrigin Graph.addRole
    dsimp only
    rw [hg.origins]
    exact ⟨by rw [hg.roles], hnext.addRole _⟩
  · refine (h.loadRoleFiles hlines selection id dir).next fun _ => ?_
    refine (Twin.modify fun s s' hs => ?_).next fun _ => .pure rfl
    exact ⟨hs.graph, congrArg (List.cons (name, dir)) hs.roleDirs⟩

/-! ## Playbooks -/

theorem loadDefinitions (play : Option PlayId) (definitions : List RoleDefinition) :
    Load.Alike lines Eq (loadDefinitions site play definitions)
      (loadDefinitions site' play definitions) := by
  unfold Runlist.loadDefinitions
  refine Twin.mapM_same (fun d => ?_) definitions
  unfold loadRole
  exact h.loadRoleWith hlines (some d.origin) play d.name .main

/-- **Plays that are alike are loaded alike.** -/
theorem loadPlay (path : FilePath) (o : Option OriginId) {d d' : PlayDeclaration}
    (hd : d.Alike lines d') :
    Load.Alike lines Eq (loadPlay site path o d) (loadPlay site' path o d') := by
  have hstamp : ∀ (id : PlayId) (o : OriginId) {ds ds'}, TaskDeclaration.AllAlike lines ds ds' →
      Load.Alike lines Eq (Load.change fun g => g.stampTasks ⟨path, none, some id⟩ (some o) none ds)
        (Load.change fun g => g.stampTasks ⟨path, none, some id⟩ (some o) none ds') :=
    fun id o _ _ hds => .change fun g g' hg => Graph.stampTasks_alike _ _ _ hds hg
  unfold Runlist.loadPlay
  refine (Twin.change fun g g' hg => hg.stampPlay path o hd).next fun ids => ?_
  refine (hstamp ids.1 ids.2 hd.preTasks).next fun preTasks =>
    (hstamp ids.1 ids.2 hd.mainTasks).next fun mainTasks => ?_
  refine (hstamp ids.1 ids.2 hd.postTasks).next fun postTasks => ?_
  refine (Twin.change fun g g' hg => hg.stampReferences path ids.2 hd.roles).next
    fun definitions => ?_
  refine (h.loadDefinitions hlines _ _).next fun roles =>
    (Twin.update fun g g' hg => ?_).next fun _ => .pure rfl
  refine hg.modifyPlay fun p p' hp => ⟨?_, hp.imports⟩
  rw [hp.same]

/-- **The plays of a document are loaded alike.** -/
theorem loadPlaybook (o : Option OriginId) (path : FilePath) :
    Load.Alike lines Eq (loadPlaybook site o path) (loadPlaybook site' o path) := by
  unfold Runlist.loadPlaybook
  refine (h.readFile path).bind fun text text' htext => ?_
  have hplays := htext.plays
  generalize Declaration.ofText Declaration.playbook text =
    r, Declaration.ofText Declaration.playbook text' = r'
    at hplays ⊢
  cases hplays with
  | error => exact (Twin.note _ _).next fun _ => .pure rfl
  | ok hds =>
    have hplays := Twin.mapM hds fun d d' hd => h.loadPlay hlines path o hd
    rw [List.forall₂_eq_eq_eq] at hplays
    exact hplays.next fun plays => .pure rfl

/-! ## Dependencies and variables -/

theorem directDependencies (r : RoleId) :
    Load.Alike lines Eq (directDependencies site r) (directDependencies site' r) := by
  unfold Runlist.directDependencies
  refine Twin.graph.bind fun g g' hg => ?_
  simp only [hg.role]
  cases (g.role r).directDependencies with
  | some known => exact .pure rfl
  | none =>
    exact (h.loadDefinitions hlines _ _).next fun found =>
      (Twin.update fun _ _ hg => hg.modifyRole _ _).next fun _ => .pure rfl

theorem collectDependencies (n : Nat) (r : RoleId) (path : List String) :
    Load.Alike lines Eq (collectDependencies site n r path)
      (collectDependencies site' n r path) := by
  induction n generalizing r path with
  | zero => exact .throw (.same _)
  | succ n ih =>
    unfold Runlist.collectDependencies
    refine Twin.graph.bind fun g g' hg => ?_
    simp only [hg.role]
    cases (g.role r).allDependencies with
    | some known => exact .pure rfl
    | none =>
      refine Twin.graph.bind fun g g' hg => ?_
      rw [show enterDependency g' r path =
        enterDependency g r path by unfold enterDependency; rw [hg.role]]
      refine (Twin.ofExcept (.refl .same (fun _ => rfl) _)).next fun path => ?_
      refine (h.directDependencies hlines r).next fun direct => ?_
      refine (Twin.concatEach (fun dep => (ih dep path).next fun _ => .pure rfl) direct).next
        fun found => ?_
      exact (Twin.update fun _ _ hg => hg.modifyRole _ _).next fun _ => .pure rfl

theorem allDependencies (r : RoleId) :
    Load.Alike lines Eq (allDependencies site r) (allDependencies site' r) := by
  unfold Runlist.allDependencies
  refine Twin.get.bind fun s s' hs => ?_
  have hbound : dependencyBound site' s' = dependencyBound site s := by
    unfold dependencyBound Runlist.roleNames
    rw [hs.graph.roles, h.roleNames]
  rw [hbound]
  exact h.collectDependencies hlines _ r []

theorem defaultVars (r : RoleId) :
    Load.Alike lines Eq (defaultVars site r) (defaultVars site' r) := by
  unfold Runlist.defaultVars
  refine (h.allDependencies hlines r).next fun found => Twin.graph.bind fun g g' hg => .pure ?_
  simp only [hg.role]

omit hlines in
theorem assignFiles (dir : FilePath) (vars : Variables) (files : List String) :
    Load.Alike lines Eq (assignFiles site dir vars files) (assignFiles site' dir vars files) := by
  unfold Runlist.assignFiles
  refine Twin.foldlM (fun vars file => ?_) files vars
  split
  · exact (Twin.note _ _).next fun _ => .pure rfl
  · have hvars := h.loadVarsFile dir file
    generalize Runlist.loadVarsFile site dir file =
      r, Runlist.loadVarsFile site' dir file = r' at hvars ⊢
    cases hvars with
    | ok hvars => exact .pure (congrArg _ hvars)
    | error he => exact .throw he

omit hlines in
theorem assignPlay (vars : Variables) (play : Option PlayId) :
    Load.Alike lines Eq (assignPlay site vars play) (assignPlay site' vars play) := by
  cases play with
  | none => exact .pure rfl
  | some p =>
    unfold Runlist.assignPlay
    refine Twin.graph.bind fun g g' hg => ?_
    rw [(hg.play p).same]
    dsimp only
    rw [(hg.origin _).path]
    refine (h.assignFiles _ _ _).next fun vars => Twin.graph.bind fun g g' hg => .pure ?_
    unfold assignRoleVars
    simp only [hg.role]

theorem resolveVars (play : Option PlayId) (task : Option TaskId) :
    Load.Alike lines Eq (resolveVars site play task) (resolveVars site' play task) := by
  unfold Runlist.resolveVars
  refine Twin.graph.bind fun g g' hg => ?_
  have hroles : g'.defaultRoles play task = g.defaultRoles play task := by
    unfold Graph.defaultRoles
    simp only [hg.play_roles, hg.task_role]
  rw [hroles]
  refine Twin.next
    (Twin.foldlM (fun vars r => (h.defaultVars hlines r).next fun _ => .pure rfl) _ _)
    fun vars => ?_
  refine (h.assignPlay vars play).next fun vars => ?_
  cases task with
  | none => exact .pure rfl
  | some x =>
    refine Twin.graph.bind fun g g' hg => .pure ?_
    unfold assignRoleVars
    rw [hg.task_role, hg.task_vars]
    simp only [hg.role]

/-- **The variables of a task are the same.** -/
theorem taskVars (x : TaskId) : Load.Alike lines Eq (taskVars site x) (taskVars site' x) := by
  unfold Runlist.taskVars
  refine Twin.graph.bind fun g g' hg => ?_
  rw [hg.task_cached, hg.taskPlay]
  cases (g.task x).cachedVars with
  | some vars => exact .pure rfl
  | none =>
    refine (h.resolveVars hlines _ _).next fun vars =>
      (Twin.update fun g g' hg => ?_).next fun _ => .pure rfl
    exact hg.fillTask (fun t t' ht => by rw [ht]) (fun _ => rfl) fun _ => rfl

end Site.Alike

/-- The same parameters are rendered to the same, whatever else was loaded. -/
theorem renderParams_alike (t : Templater) (vars : Variables) (action : String) (params : Fields) :
    Load.Alike lines Eq (renderParams t vars action params)
      (renderParams t vars action params) := by
  induction params with
  | nil => exact .pure rfl
  | cons entry rest ih =>
    unfold Runlist.renderParams
    cases renderValue t vars entry.2 with
    | ok value => exact ih.next fun _ => .pure rfl
    | error e => exact (Twin.note _ _).next fun _ => ih

end Runlist
