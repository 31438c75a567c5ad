import Runlist.Proofs.Along
import Runlist.Proofs.Graph.Writes

/-!
# Dependencies that are discovered

The tree of files may change between two requests, so that a state may remember what the files no
longer say. But what it learns while the tree stays is what the files say then: whatever is asked,
dependencies that become known are roles that were loaded for it, of the names that the role
declares.

* `Discovered`: a role that was loaded from the files of its name.
* `Discovers`: **from one state to a later one, dependencies that are known stay, and those that
  become known are discovered.** `Discovers.refl`, `Discovers.trans`.
* `loadRoleWith_discovers`: a role that is loaded declares what its files do.
* `steady_discovers`: **whatever is done to a state only discovers.**
-/

namespace Runlist

variable {site : Site} {s s₁ s₂ : Store} {r : RoleId} {name : String}

/-! ## The relation -/

/-- What a role declares besides its tasks. -/
def Role.head (role : Role) : RoleHead :=
  ⟨role.declared.dependencies.map (·.name), role.defaults, role.vars⟩

/-- **A role that was loaded** between two states, from the files of its name. -/
structure Discovered (site : Site) (s s' : Store) (name : String) (r : RoleId) : Prop where
  new : ¬ s.graph.HasRole r
  has : s'.graph.HasRole r
  named : (s'.graph.role r).name = name
  reads : ∃ text, s.readRole site name .main = .ok text ∧ (s'.graph.role r).head = text.toRoleHead

/-- The name of a role, what it declares besides its tasks and its known dependencies stay. -/
structure KeepsDeclared (old new : Role) : Prop where
  name : new.name = old.name
  declared : new.declared = old.declared
  head : new.head = old.head
  direct : ∀ ds, old.directDependencies = some ds → new.directDependencies = some ds

/-- **Only dependencies are discovered**: what is known stays, and what becomes known was loaded in
between. -/
structure Discovers (site : Site) (s s' : Store) : Prop where
  roles_le : s.graph.roles.size ≤ s'.graph.roles.size
  retains : ∀ r, s.graph.HasRole r → KeepsDeclared (s.graph.role r) (s'.graph.role r)
  locate : ∀ name, s'.locate site name = s.locate site name
  introduced : ∀ r ds, (s'.graph.role r).directDependencies = some ds →
    (s.graph.role r).directDependencies = some ds ∨
      List.Forall₂ (Discovered site s s') ((s'.graph.role r).declared.dependencies.map (·.name)) ds

theorem KeepsDeclared.refl (role : Role) : KeepsDeclared role role := ⟨rfl, rfl, rfl, fun _ h => h⟩

theorem KeepsDeclared.trans {a b c : Role} (h : KeepsDeclared a b) (h' : KeepsDeclared b c) :
    KeepsDeclared a c :=
  ⟨h'.name.trans h.name, h'.declared.trans h.declared, h'.head.trans h.head, fun ds hd =>
    h'.direct ds (h.direct ds hd)⟩

namespace Discovers

theorem hasRole (h : Discovers site s s₁) (hr : s.graph.HasRole r) : s₁.graph.HasRole r :=
  lt_of_lt_of_le hr h.roles_le

theorem readRole (h : Discovers site s s₁) (name : String) (selection : RoleSelection) :
    s₁.readRole site name selection = s.readRole site name selection := by
  rw [Store.readRole, Store.readRole, h.locate]

/-- What was discovered stays so. -/
theorem later (h : Discovers site s₁ s₂) (hr : Discovered site s s₁ name r) :
    Discovered site s s₂ name r where
  new := hr.new
  has := h.hasRole hr.has
  named := (h.retains r hr.has).name.trans hr.named
  reads := by rw [(h.retains r hr.has).head]; exact hr.reads

/-- What was discovered since was discovered. -/
theorem earlier (h : Discovers site s s₁) (hr : Discovered site s₁ s₂ name r) :
    Discovered site s s₂ name r where
  new hold := hr.new (h.hasRole hold)
  has := hr.has
  named := hr.named
  reads := by rw [← h.readRole]; exact hr.reads

theorem refl (s : Store) : Discovers site s s :=
  ⟨le_rfl, fun _ _ => .refl _, fun _ => rfl, fun _ _ hd => .inl hd⟩

theorem trans (h : Discovers site s s₁) (h' : Discovers site s₁ s₂) : Discovers site s s₂ where
  roles_le := h.roles_le.trans h'.roles_le
  retains r hr := (h.retains r hr).trans (h'.retains r (h.hasRole hr))
  locate name := (h'.locate name).trans (h.locate name)
  introduced r ds hd := by
    rcases h'.introduced r ds hd with hd | hnew
    · rcases h.introduced r ds hd with hd' | hnew
      · exact .inl hd'
      · rw [(h'.retains r (Graph.hasRole_of_direct hd)).declared]
        exact .inr (hnew.imp fun _ _ => h'.later)
    · exact .inr (hnew.imp fun _ _ => h.earlier)

instance isPreorder : IsPreorder Store (Discovers site) where
  refl := refl
  trans _ _ _ := trans

/-- The same roles, up to what does not count. -/
theorem of_same (hsize : s₁.graph.roles.size = s.graph.roles.size)
    (hrole : ∀ r, ∃ all, s₁.graph.role r = { s.graph.role r with allDependencies := all })
    (hdirs : s₁.roleDirs = s.roleDirs) : Discovers site s s₁ where
  roles_le := hsize.ge
  retains r _ := by
    obtain ⟨all, hr⟩ := hrole r
    rw [hr]
    exact ⟨rfl, rfl, rfl, fun _ hd => hd⟩
  locate name := by rw [Store.locate, Store.locate, Store.roleDir?, Store.roleDir?, hdirs]
  introduced r ds hd := by
    obtain ⟨all, hr⟩ := hrole r
    rw [hr] at hd
    exact .inl hd

theorem of_roles (hroles : s₁.graph.roles = s.graph.roles) (hdirs : s₁.roleDirs = s.roleDirs) :
    Discovers site s s₁ := by
  have hrole : ∀ r, s₁.graph.role r = s.graph.role r :=
    fun r => by rw [Graph.role, Graph.role, hroles]
  exact of_same (congrArg Array.size hroles) (fun r => ⟨_, hrole r⟩) hdirs

end Discovers

/-! ## Roles that are loaded -/

/-- A step that leaves roles and their directories alone. -/
def LeavesRoles {α : Type} (x : Load α) : Prop :=
  Along (fun s s' => s'.graph.roles = s.graph.roles ∧ s'.roleDirs = s.roleDirs) x

theorem LeavesRoles.discovers {α : Type} {x : Load α} (h : LeavesRoles x) :
    Along (Discovers site) x :=
  fun s => (h s).mono (fun _ _ h => .of_roles h.1 h.2) fun _ _ h => .of_roles h.1 h.2

theorem leavesRoles_note (n : Notice) : LeavesRoles (Load.note n) := fun _ => ⟨rfl, rfl⟩

theorem leavesRoles_change {α : Type} {f : Graph → α × Graph} (h : ∀ g, (f g).2.roles = g.roles) :
    LeavesRoles (Load.change f) := fun s => ⟨h s.graph, rfl⟩

/-- To load tasks is to read them, and leaves roles alone. -/
theorem loadTasksIn_reads (site : Site) (o : Option OriginId) (role : Option RoleId)
    (play : Option PlayId) (path : FilePath) (s : Store) :
    Ends (loadTasksIn site o role play path) s
      (fun _ s' => (s'.graph.roles = s.graph.roles ∧ s'.roleDirs = s.roleDirs) ∧
        ∃ ds, site.readTasks path = .ok ds)
      fun e s' => s' = s ∧ site.readTasks path = .error e := by
  unfold loadTasksIn readFile Site.readTasks
  rw [ends_bind]
  cases site.disk.read path with
  | error e => exact ⟨rfl, rfl⟩
  | ok text =>
    simp only [ends_pure]
    cases Declaration.ofText Declaration.taskList text with
    | error e => exact ⟨rfl, rfl⟩
    | ok ds => exact ⟨⟨roles_stampTasks s.graph _ o none ds, rfl⟩, ds, rfl⟩

theorem leavesRoles_tasks (site : Site) (o : Option OriginId) (role : Option RoleId)
    (play : Option PlayId) (path : FilePath) : LeavesRoles (loadTasksIn site o role play path) :=
  fun s => (loadTasksIn_reads site o role play path s).mono (fun _ _ h => h.1) fun _ _ h => by
    rw [h.1]; exact ⟨rfl, rfl⟩

theorem loadRoleVars_reads (site : Site) (path : FilePath) (s : Store) :
    Ends (loadRoleVars site path) s
      (fun vars s' => (s'.graph.roles = s.graph.roles ∧ s'.roleDirs = s.roleDirs) ∧
        vars = site.readRoleVars path)
      fun _ _ => False := by
  unfold loadRoleVars Site.readRoleVars
  cases readDeclared site Declaration.vars path with
  | ok vars => exact ⟨⟨rfl, rfl⟩, rfl⟩
  | error e => exact ⟨⟨rfl, rfl⟩, rfl⟩

/-- References keep their names. -/
theorem names_stampReferences (g : Graph) (path : FilePath) (o : OriginId)
    (rs : List RoleReference) : (g.stampReferences path o rs).1.map (·.name) = rs.map (·.name) := by
  induction rs generalizing g with
  | nil => rfl
  | cons r rs ih => exact congrArg (r.name :: ·) (ih _)

/-- **A state with one more role**, of which the name and what it declares are given. -/
structure OneMore (s s' : Store) (name : String) (head : RoleHead) : Prop where
  size : s'.graph.roles.size = s.graph.roles.size + 1
  old : ∀ r, s.graph.HasRole r → s'.graph.role r = s.graph.role r
  named : (s'.graph.role ⟨s.graph.roles.size⟩).name = name
  direct : (s'.graph.role ⟨s.graph.roles.size⟩).directDependencies = none
  declares : (s'.graph.role ⟨s.graph.roles.size⟩).head = head
  dirs : s'.roleDirs = s.roleDirs

namespace OneMore

variable {head head' : RoleHead}

theorem has (h : OneMore s s₁ name head) : s₁.graph.HasRole ⟨s.graph.roles.size⟩ := by
  rw [Graph.HasRole, h.size]; exact Nat.lt_succ_self _

theorem leaves (h : OneMore s s₁ name head)
    (h' : s₂.graph.roles = s₁.graph.roles ∧ s₂.roleDirs = s₁.roleDirs) :
    OneMore s s₂ name head := by
  have hrole : ∀ r, s₂.graph.role r = s₁.graph.role r :=
    fun r => by rw [Graph.role, Graph.role, h'.1]
  refine ⟨by rw [h'.1]; exact h.size, fun r hr => (hrole r).trans (h.old r hr), ?_, ?_, ?_,
    h'.2.trans h.dirs⟩
  · rw [hrole]; exact h.named
  · rw [hrole]; exact h.direct
  · rw [hrole]; exact h.declares

/-- The role is changed. -/
theorem fill (h : OneMore s s₁ name head) {f : Role → Role}
    (hname : ∀ role, (f role).name = role.name)
    (hdirect : ∀ role, (f role).directDependencies = role.directDependencies)
    (hhead : ∀ role : Role, role.head = head → (f role).head = head') :
    OneMore s { s₁ with graph := s₁.graph.modifyRole ⟨s.graph.roles.size⟩ f } name head' := by
  have hself : (s₁.graph.modifyRole ⟨s.graph.roles.size⟩ f).role ⟨s.graph.roles.size⟩ =
      f (s₁.graph.role ⟨s.graph.roles.size⟩) := Graph.role_modifyRole_self h.has
  refine ⟨?_, fun r hr => ?_, ?_, ?_, ?_, h.dirs⟩
  · simp only [Graph.modifyRole, Array.size_modify]; exact h.size
  · have hne : r ≠ ⟨s.graph.roles.size⟩ := by rintro rfl; exact lt_irrefl _ hr
    exact (Graph.role_modifyRole_of_ne hne).trans (h.old r hr)
  · rw [hself, hname]; exact h.named
  · rw [hself, hdirect]; exact h.direct
  · rw [hself]; exact hhead _ h.declares

/-- One more role, without known dependencies, is no discovery. -/
theorem discovers (h : OneMore s s₁ name head) : Discovers site s s₁ where
  roles_le := h.size ▸ Nat.le_succ _
  retains r hr := by rw [h.old r hr]; exact .refl _
  locate name := by rw [Store.locate, Store.locate, Store.roleDir?, Store.roleDir?, h.dirs]
  introduced r ds hd := by
    by_cases hr : s.graph.HasRole r
    · rw [h.old r hr] at hd
      exact .inl hd
    · -- every other role is the new one
      have hlt := Graph.hasRole_of_direct hd
      rw [Graph.HasRole, h.size] at hlt
      have hself : r = ⟨s.graph.roles.size⟩ :=
        congrArg RoleId.mk (by rw [Graph.HasRole] at hr; omega)
      rw [hself, h.direct] at hd
      cases hd

end OneMore

/-- **To load one file of a role is to read it.** -/
theorem loadRoleFile_reads (site : Site) (selection : RoleSelection) {text : RoleText}
    (folder : String) (file : List String) (path : FilePath)
    (h : OneMore s s₁ name text.toRoleHead) :
    Ends (loadRoleFile site selection ⟨s.graph.roles.size⟩ folder file path) s₁
      (fun _ s₂ => ∃ text', site.readRoleFile selection text folder file path = .ok text' ∧
        OneMore s s₂ name text'.toRoleHead)
      fun e s₂ => site.readRoleFile selection text folder file path = .error e ∧
        OneMore s s₂ name text.toRoleHead := by
  unfold loadRoleFile Site.readRoleFile
  rw [ends_bind, ends_graph]
  split
  · split
    · rw [ends_bind]
      refine (loadTasksIn_reads site _ _ _ path s₁).mono ?_ ?_
      · rintro xs s₂ ⟨hleaves, ds, hread⟩
        rw [ends_update, hread]
        exact ⟨_, rfl, (h.leaves hleaves).fill (fun _ => rfl) (fun _ => rfl) fun _ h => h⟩
      · rintro e s₂ ⟨rfl, hread⟩
        rw [hread]
        exact ⟨rfl, h⟩
    · exact ⟨text, rfl, h⟩
  · split
    · rw [ends_bind]
      refine (loadRoleVars_reads site path s₁).mono ?_ fun _ _ h => h.elim
      rintro _ s₂ ⟨hleaves, rfl⟩
      refine ⟨_, rfl, (h.leaves hleaves).fill (fun _ => rfl) (fun _ => rfl) fun role hhead => ?_⟩
      rw [← hhead]
      rfl
    · exact ⟨text, rfl, h⟩
  · split
    · rw [ends_bind]
      refine (loadRoleVars_reads site path s₁).mono ?_ fun _ _ h => h.elim
      rintro _ s₂ ⟨hleaves, rfl⟩
      refine ⟨_, rfl, (h.leaves hleaves).fill (fun _ => rfl) (fun _ => rfl) fun role hhead => ?_⟩
      rw [← hhead]
      rfl
    · exact ⟨text, rfl, h⟩
  · split
    · cases readDeclared site Declaration.roleMeta path with
      | error e => exact ⟨text, rfl, h.leaves ⟨rfl, rfl⟩⟩
      | ok m =>
        rw [ends_bind, ends_change]
        have hroles :
            (s₁.graph.stampMeta path (s₁.graph.role ⟨s.graph.roles.size⟩).origin m).2.roles =
            s₁.graph.roles := Graph.roles_stampReferences _ path _ m.dependencies
        have hleaves : OneMore s { s₁ with graph := (s₁.graph.stampMeta path
            (s₁.graph.role ⟨s.graph.roles.size⟩).origin m).2 } name text.toRoleHead :=
          h.leaves ⟨hroles, rfl⟩
        refine ⟨_, rfl, hleaves.fill (fun _ => rfl) (fun _ => rfl) fun role hhead => ?_⟩
        have hnames := names_stampReferences (s₁.graph.addOrigin ⟨.roleMeta, path, m.range, none,
          some (s₁.graph.role ⟨s.graph.roles.size⟩).origin⟩).2 path ⟨s₁.graph.origins.size⟩
            m.dependencies
        rw [← hhead]
        exact congrArg (fun names => RoleHead.mk names role.defaults role.vars) hnames
    · exact ⟨text, rfl, h⟩
  · exact ⟨text, by simp only, h⟩

theorem loadRoleFiles_reads (site : Site) (selection : RoleSelection) (dir : FilePath)
    (h : OneMore s s₁ name ⟨[], [], []⟩) :
    Ends (loadRoleFiles site selection ⟨s.graph.roles.size⟩ dir) s₁
      (fun _ s₂ => ∃ text, site.readRoleAt selection dir = .ok text ∧
        OneMore s s₂ name text.toRoleHead)
      fun err s₂ => site.readRoleAt selection dir = .error err ∧
      ∃ head, OneMore s s₂ name head := by
  unfold loadRoleFiles Site.readRoleAt
  cases site.disk.filesBelow dir with
  | error e => exact ⟨rfl, _, h⟩
  | ok files =>
    refine (Ends.forM (P := fun _ (text : RoleText) s₂ => OneMore s s₂ name text.toRoleHead)
      (E := fun _ _ _ s₂ => ∃ head, OneMore s s₂ name head) ?_ h).mono (fun _ _ h => h) ?_
    · rintro front (_ | ⟨folder, file⟩) back - text s₂ h₂
      · exact ⟨text, rfl, h₂⟩
      · exact (loadRoleFile_reads site selection folder file _ h₂).mono (fun _ _ h => h)
          fun _ _ h => ⟨h.1, _, h.2⟩
    · rintro err s₂ ⟨hread, _, _, _, -, h₂⟩
      exact ⟨hread, h₂⟩

/-- A role without files. -/
theorem oneMore_new (s : Store) {role : Role} (origin : Origin)
    (hdirect : role.directDependencies = none) (hhead : role.head = ⟨[], [], []⟩) :
    OneMore s { s with graph := ((s.graph.addOrigin origin).2.addRole role).2 } role.name
      ⟨[], [], []⟩ := by
  have hself : ((s.graph.addOrigin origin).2.addRole role).2.role ⟨s.graph.roles.size⟩ = role :=
    Graph.role_addRole_self (g := (s.graph.addOrigin origin).2) role
  refine ⟨Array.size_push _, fun r hr =>
    Graph.role_addRole_of_has (g := (s.graph.addOrigin origin).2) role hr,
    ?_, ?_, ?_, rfl⟩
  · rw [hself]
  · rw [hself]; exact hdirect
  · rw [hself]; exact hhead

theorem discovers_addRoleDir {dir : FilePath} (h : s.locate site name = .ok dir) :
    Discovers site s (s.addRoleDir name dir) := by
  have hg := graph_addRoleDir s name dir
  refine ⟨by rw [hg], fun r _ => by rw [hg]; exact .refl _, fun _ => locate_addRoleDir h,
    fun r ds hd => .inl ?_⟩
  rw [hg] at hd; exact hd

/-- **A role that is loaded declares what its files do.** -/
theorem loadRoleWith_discovers (site : Site) (o : Option OriginId) (play : Option PlayId)
    (name : String) (selection : RoleSelection) (s : Store) :
    Ends (loadRoleWith site o play name selection) s
      (fun r s' => Discovers site s s' ∧ ∃ text, s.readRole site name selection = .ok text ∧
        ¬ s.graph.HasRole r ∧ s'.graph.HasRole r ∧ (s'.graph.role r).name = name ∧
        (s'.graph.role r).head = text.toRoleHead)
      fun err s' => Discovers site s s' ∧ s.readRole site name selection = .error err := by
  unfold loadRoleWith Store.readRole
  rw [ends_bind, ends_get, ends_bind, ends_ofExcept]
  refine ⟨fun dir hlocate => ?_, fun e hlocate => ⟨.refl s, by rw [hlocate]; rfl⟩⟩
  rw [ends_bind, ends_change, ends_bind]
  refine (loadRoleFiles_reads site selection dir (oneMore_new s _ rfl rfl)).mono ?_ ?_
  · rintro _ s₁ ⟨text, hread, h⟩
    rw [ends_bind, ends_modify, ends_pure, graph_addRoleDir]
    refine ⟨h.discovers.trans (discovers_addRoleDir ((h.discovers.locate name).trans hlocate)),
      text, ?_,
      lt_irrefl _, h.has, h.named, h.declares⟩
    rw [hlocate]; exact hread
  · rintro err s₁ ⟨hread, _, h⟩
    exact ⟨h.discovers, by rw [hlocate]; exact hread⟩

/-- The roles that references name are discovered. -/
theorem loadDefinitions_discovers (site : Site) (play : Option PlayId)
    (definitions : List RoleDefinition) (s : Store) :
    Ends (loadDefinitions site play definitions) s
      (fun rs s' => Discovers site s s' ∧
        List.Forall₂ (Discovered site s s') (definitions.map (·.name)) rs)
      fun err s' => Discovers site s s' ∧ ∃ name, s.readRole site name .main = .error err := by
  unfold loadDefinitions loadRole
  refine (Ends.mapM (R := Discovers site) (P := fun (d : RoleDefinition) r s' =>
    Discovered site s s' d.name r)
    (F := fun d err => s.readRole site d.name .main = .error err) .refl Discovers.trans
      (fun h hr => h.later hr)
    fun d _ s₁ h₁ => ?_).mono ?_ ?_
  · refine (loadRoleWith_discovers site (some d.origin) play d.name .main s₁).mono ?_ ?_
    · rintro r s₂ ⟨h₂, text, hread, hnew, hhas, hname, hhead⟩
      exact ⟨h₂, h₁.earlier ⟨hnew, hhas, hname, text, hread, hhead⟩⟩
    · rintro err s₂ ⟨h₂, hread⟩
      exact ⟨h₂, by rw [← h₁.readRole]; exact hread⟩
  · rintro rs s' ⟨h, hrs⟩
    exact ⟨h, List.forall₂_map_left_iff.2 hrs⟩
  · rintro err s' ⟨h, _, d, _, -, -, hread⟩
    exact ⟨h, d.name, hread⟩

/-- **What a role depends on is filled in**, after it was discovered. -/
theorem Discovers.setDirect (h : Discovers site s s₁) (hr : s.graph.HasRole r) {ds : List RoleId}
    (hnone : (s.graph.role r).directDependencies = none)
    (hds : List.Forall₂ (Discovered site s s₁)
      ((s.graph.role r).declared.dependencies.map (·.name)) ds)
    {g : Graph} (hsize : g.roles.size = s₁.graph.roles.size)
    (hself : g.role r = { s₁.graph.role r with directDependencies := some ds })
    (hother : ∀ q, q ≠ r → g.role q = s₁.graph.role q) :
    Discovers site s { s₁ with graph := g } := by
  have hsame : ∀ q, (g.role q).name = (s₁.graph.role q).name ∧
      (g.role q).declared = (s₁.graph.role q).declared ∧
      (g.role q).head = (s₁.graph.role q).head := by
    intro q
    by_cases hqr : q = r
    · rw [hqr, hself]; exact ⟨rfl, rfl, rfl⟩
    · rw [hother q hqr]; exact ⟨rfl, rfl, rfl⟩
  have hlater : ∀ name q, Discovered site s s₁ name q →
      Discovered site s { s₁ with graph := g } name q := by
    intro name q hq
    refine ⟨hq.new, ?_, (hsame q).1.trans hq.named, by rw [(hsame q).2.2]; exact hq.reads⟩
    rw [Graph.HasRole, hsize]; exact hq.has
  refine ⟨by rw [hsize]; exact h.roles_le, fun q hq => ⟨?_, ?_, ?_, fun ds' hd => ?_⟩, h.locate,
    fun q ds' hd => ?_⟩
  · exact (hsame q).1.trans (h.retains q hq).name
  · exact (hsame q).2.1.trans (h.retains q hq).declared
  · exact (hsame q).2.2.trans (h.retains q hq).head
  · by_cases hqr : q = r
    · rw [hqr, hnone] at hd; cases hd
    · rw [hother q hqr]; exact (h.retains q hq).direct ds' hd
  · rw [(hsame q).2.1]
    by_cases hqr : q = r
    · rw [hqr, hself] at hd
      cases hd
      rw [hqr, (h.retains r hr).declared]
      exact .inr (hds.imp hlater)
    · rw [hother q hqr] at hd
      exact (h.introduced q ds' hd).imp_right fun hnew => hnew.imp hlater

/-- **The direct dependencies of a role are discovered**, unless they are known. -/
theorem directDependencies_discovers (site : Site) (r : RoleId) (s : Store) :
    Ends (directDependencies site r) s
      (fun ds s' => Discovers site s s' ∧
        (s.graph.HasRole r → (s'.graph.role r).directDependencies = some ds))
      fun err s' => Discovers site s s' ∧ ∃ name, s.readRole site name .main = .error err := by
  unfold directDependencies
  rw [ends_bind, ends_graph]
  simp only
  cases hd : (s.graph.role r).directDependencies with
  | some known => exact ⟨.refl s, fun _ => hd⟩
  | none =>
    rw [ends_bind]
    by_cases hr : s.graph.HasRole r
    · refine (loadDefinitions_discovers site _ _ s).mono ?_ fun _ _ h => h
      rintro ds s₁ ⟨h₁, hds⟩
      rw [ends_bind, ends_update, ends_pure]
      have hself :
          (s₁.graph.modifyRole r fun r => { r with directDependencies := some ds }).role r =
          { s₁.graph.role r with directDependencies := some ds } :=
        Graph.role_modifyRole_self (h₁.hasRole hr)
      exact ⟨h₁.setDirect hr hd hds (Array.size_modify ..) hself fun q hq =>
        Graph.role_modifyRole_of_ne hq,
        fun _ => congrArg Role.directDependencies hself⟩
    · -- a handle without a role declares nothing, and nothing is filled in
      rw [Graph.role_of_not_has hr]
      refine ⟨.of_same (Array.size_modify ..) (fun q => ⟨(s.graph.role q).allDependencies, ?_⟩) rfl,
        fun h => absurd h hr⟩
      simp only [Graph.role_modifyRole, hr, and_false, if_false]

/-- A play and its roles. -/
theorem loadPlay_discovers (site : Site) (path : FilePath) (o : Option OriginId)
    (d : PlayDeclaration) : Along (Discovers site) (loadPlay site path o d) := by
  have hstamp :
      ∀ context o ds, Along (Discovers site)
        (Load.change fun g => g.stampTasks context o none ds) :=
    fun context o ds => (leavesRoles_change fun g => roles_stampTasks g context o none ds).discovers
  unfold loadPlay
  refine .bind (leavesRoles_change fun _ => rfl).discovers fun play =>
    (hstamp _ _ _).bind fun preTasks =>
    (hstamp _ _ _).bind fun mainTasks => (hstamp _ _ _).bind fun postTasks =>
      .bind ?_ fun definitions => ?_
  · exact (leavesRoles_change fun g => Graph.roles_stampReferences g path _ _).discovers
  · refine .bind (fun s => ?_) fun roles => .bind (fun s => .of_roles rfl rfl) fun _ => .pure _
    exact (loadDefinitions_discovers site _ definitions s).mono (fun _ _ h => h.1) fun _ _ h => h.1

theorem loadPlaybook_discovers (site : Site) (o : Option OriginId) (path : FilePath) :
    Along (Discovers site) (loadPlaybook site o path) := by
  unfold loadPlaybook readFile
  refine .bind ?_ fun text => ?_
  · split
    · exact .pure _
    · exact .throw _
  · split
    · exact .bind (leavesRoles_note _).discovers fun _ => .pure _
    · exact .bind (.mapM (loadPlay_discovers site path o) _) fun _ => .pure _

theorem roles_adopt (g : Graph) (xs : List TaskId) (x : TaskId) :
    (g.adopt xs x).roles = g.roles := by
  unfold Graph.adopt
  induction xs generalizing g with
  | nil => rfl
  | cons y xs ih =>
    rw [List.foldl_cons, ih]
    unfold Graph.adoptOne
    simp only
    split <;> rfl

/-- **Whatever is done to a state only discovers.** -/
theorem steady_discovers (site : Site) : Steady site (Discovers site) where
  note n := (leavesRoles_note n).discovers
  tasks o role play path := (leavesRoles_tasks site o role play path).discovers
  role o play name selection s :=
    (loadRoleWith_discovers site o play name selection s).mono (fun _ _ h => h.1)
    fun _ _ h => h.1
  playbook := loadPlaybook_discovers site
  direct r s := (directDependencies_discovers site r s).mono (fun _ _ h => h.1) fun _ _ h => h.1
  all r found s := by
    refine .of_same (Array.size_modify ..) (fun q => ?_) rfl
    simp only [Graph.role_modifyRole]
    split
    · rename_i hq; rw [hq.1]; exact ⟨_, rfl⟩
    · exact ⟨_, rfl⟩
  cached _ _ _ := .of_roles rfl rfl
  adopt xs x s := .of_roles (roles_adopt s.graph xs x) rfl

end Runlist
