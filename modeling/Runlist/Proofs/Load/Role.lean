import Runlist.Proofs.Load.State

/-!
# Loading roles

* `loadTasksIn_ends`: the tasks of a file become new tasks that show them.
* `LoadedRole`: a role that was just loaded, and the files that it shows.
* `loadRoleWith_ends`: **to load a role is to read its files**, and to add what they declare.
-/

namespace Runlist

variable {site : Site} {s : Store}

/-! ## Files of tasks -/

mutual
/-- Declared tasks add no roles. -/
theorem roles_stampTask (g : Graph) (context : TaskContext) (o : Option OriginId)
    (parent : Option TaskId) (d : TaskDeclaration) :
    (g.stampTask context o parent d).2.roles = g.roles := by
  match d with
  | ⟨range, name, vars, raw, block⟩ =>
    rw [Graph.stampTask_eq]; exact roles_stampTasks _ context _ _ block

theorem roles_stampTasks (g : Graph) (context : TaskContext) (o : Option OriginId)
    (parent : Option TaskId) (ds : List TaskDeclaration) :
    (Graph.stampTasks context o parent g ds).2.roles = g.roles := by
  match ds with
  | [] => rw [Graph.stampTasks]
  | d :: ds =>
    rw [Graph.stampTasks]
    exact (roles_stampTasks _ context o parent ds).trans (roles_stampTask g context o parent d)
end

/-- Declared tasks as entities. -/
theorem stampTasks_ends (site : Site) (hs : s.graph.Sound) {context : TaskContext}
    {o : Option OriginId} (ha : s.graph.Admits context o none) {ds : List TaskDeclaration}
    (hd : TaskDeclaration.OrderedAll ds) :
    Ends (Load.change fun g => g.stampTasks context o none ds) s
      (fun xs s' => Extends site s s' ∧ s'.graph.roles = s.graph.roles ∧
        (∀ x ∈ xs, Graph.Stamped s.graph s'.graph context o none x) ∧
        s'.graph.ShowsAll context.path xs ds)
      fun _ _ => False := by
  obtain ⟨⟨hsound, hadds⟩, hstamped, hshows⟩ := Graph.stampTasks_spec hs ha hd
  have h : s.Adds site { s with graph := (Graph.stampTasks context o none s.graph ds).2 } :=
    ⟨fun _ => hsound, hadds, fun _ => rfl⟩
  have hroles := roles_stampTasks s.graph context o none ds
  exact ⟨h.extends_of_roles hroles, hroles, hstamped, hshows⟩

theorem loadTasksIn_ends (hs : s.graph.Sound) {o : Option OriginId} {role : Option RoleId}
    {play : Option PlayId} {path : FilePath} (ha : s.graph.Admits ⟨path, role, play⟩ o none) :
    Ends (loadTasksIn site o role play path) s
      (fun xs s' => Extends site s s' ∧ s'.graph.roles = s.graph.roles ∧
        (∀ x ∈ xs, Graph.Stamped s.graph s'.graph ⟨path, role, play⟩ o none x) ∧
        ∃ ds, site.readTasks path = .ok ds ∧ s'.graph.ShowsAll path xs ds)
      fun e s' => Extends site s s' ∧ s'.graph.roles = s.graph.roles ∧
      site.readTasks path = .error e := by
  unfold loadTasksIn readFile Site.readTasks
  rw [ends_bind]
  cases hread : site.disk.read path with
  | error e => exact ⟨Extends.refl s, rfl, rfl⟩
  | ok text =>
    simp only [ends_pure]
    cases hds : Declaration.ofText Declaration.taskList text with
    | error e => exact ⟨Extends.refl s, rfl, rfl⟩
    | ok ds =>
      refine (stampTasks_ends site hs ha (Declaration.ordered_taskList hds)).mono ?_
        fun _ _ h => h.elim
      rintro xs s' ⟨hext, hroles, hstamped, hshows⟩
      exact ⟨hext, hroles, hstamped, ds, rfl, hshows⟩

/-! ## References -/

namespace Graph

variable {g g' : Graph}

/-- A reference to a role that was stamped inside an origin. -/
structure StampedReference (g : Graph) (path : FilePath) (o : OriginId) (d : RoleDefinition)
    (r : RoleReference) : Prop where
  has : g.HasOrigin d.origin
  name : d.name = r.name
  origin : g.origin d.origin = ⟨.roleDefinition, path, r.range, some r.name, some o⟩

namespace StampedReference

variable {path : FilePath} {o : OriginId} {d : RoleDefinition} {r : RoleReference}

theorem keeps (k : g.Keeps g') (h : g.StampedReference path o d r) :
    g'.StampedReference path o d r :=
  ⟨k.hasOrigin h.has, h.name, (k.origin _ h.has).trans h.origin⟩

theorem inside (h : g.StampedReference path o d r) : g.Inside .roleDefinition o d.origin :=
  ⟨h.has, congrArg Origin.kind h.origin, congrArg Origin.parent h.origin⟩

theorem trail (hs : g.Sound) (h : g.StampedReference path o d r) :
    g.trail d.origin = ⟨.roleDefinition, path, r.range, some r.name, none⟩ :: g.trail o := by
  rw [hs.origins.trail h.has, h.origin]; rfl

end StampedReference

/-- What is declared about a role becomes new origins. -/
theorem stampReferences_spec (hs : g.Sound) (path : FilePath) {o : OriginId} (ho : g.HasOrigin o)
    (rs : List RoleReference) :
    Enlarges g (g.stampReferences path o rs).2 ∧
      List.Forall₂ ((g.stampReferences path o rs).2.StampedReference path o)
        (g.stampReferences path o rs).1 rs := by
  induction rs generalizing g with
  | nil => exact ⟨⟨hs, Adds.refl g⟩, .nil⟩
  | cons r rs ih =>
    have hadds := adds_addOrigin (g := g) ⟨.roleDefinition, path, r.range, some r.name, some o⟩
    have hs₁ := hs.addOrigin (o := ⟨.roleDefinition, path, r.range, some r.name, some o⟩)
      (fun p hp => by cases hp; exact ho)
    obtain ⟨⟨hs₂, hadds₂⟩, hrest⟩ := ih hs₁ (hadds.keeps.hasOrigin ho)
    refine ⟨⟨hs₂, hadds.trans hadds₂⟩,
      .cons (StampedReference.keeps hadds₂.keeps ⟨?_, rfl, ?_⟩) hrest⟩
    · exact hasOrigin_addOrigin.2 (Or.inl rfl)
    · exact origin_addOrigin_self _

/-- References add no roles. -/
theorem roles_stampReferences (g : Graph) (path : FilePath) (o : OriginId)
    (rs : List RoleReference) :
    (g.stampReferences path o rs).2.roles = g.roles := by
  induction rs generalizing g with
  | nil => rfl
  | cons r rs ih => exact (ih _).trans rfl

theorem stampMeta_spec (hs : g.Sound) (path : FilePath) {o : OriginId} (ho : g.HasOrigin o)
    (m : MetaDeclaration) :
    Enlarges g (g.stampMeta path o m).2 ∧
      (∀ d ∈ (g.stampMeta path o m).1.dependencies, ∃ i,
        (g.stampMeta path o m).2.Inside .roleMeta o i ∧
        (g.stampMeta path o m).2.Inside .roleDefinition i d.origin) ∧
      List.Forall₂ ((g.stampMeta path o m).2.RefersTo o) (g.stampMeta path o m).1.dependencies
        (m.references path) := by
  have hadds := adds_addOrigin (g := g) ⟨.roleMeta, path, m.range, none, some o⟩
  have hs₁ := hs.addOrigin (o := ⟨.roleMeta, path, m.range, none, some o⟩)
    (fun p hp => by cases hp; exact ho)
  have hself := origin_addOrigin_self (g := g) ⟨.roleMeta, path, m.range, none, some o⟩
  have hhas : (g.addOrigin ⟨.roleMeta, path, m.range, none, some o⟩).2.HasOrigin ⟨g.origins.size⟩ :=
    hasOrigin_addOrigin.2 (Or.inl rfl)
  obtain ⟨⟨hs₂, hadds₂⟩, hrest⟩ := stampReferences_spec hs₁ path hhas m.dependencies
  have hmeta := (hadds₂.origin _ hhas).trans hself
  refine ⟨⟨hs₂, hadds.trans hadds₂⟩, fun d hd => ?_, ?_⟩
  · obtain ⟨_, _, hd⟩ := exists_right hrest hd
    refine ⟨_, ⟨hadds₂.keeps.hasOrigin hhas, ?_, ?_⟩, hd.inside⟩
    · exact congrArg Origin.kind hmeta
    · exact congrArg Origin.parent hmeta
  · rw [MetaDeclaration.references, List.forall₂_map_right_iff]
    refine hrest.imp fun d r hd => ⟨hd.name, (hd.trail hs₂).trans ?_⟩
    rw [hs₂.origins.trail (hadds₂.keeps.hasOrigin hhas), hmeta]; rfl

/-- What a role without known dependencies may be changed to. -/
structure Filled (g : Graph) (r : RoleId) (new : Role) : Prop where
  origin : new.origin = (g.role r).origin
  play : new.play = (g.role r).play
  name : new.name = (g.role r).name
  direct : new.directDependencies = none
  all : new.allDependencies = none
  tasks : ∀ x ∈ new.tasks, g.Placed (some (g.role r).origin) (some r) (g.role r).play x
  declared : ∀ d ∈ new.declared.dependencies, ∃ m, g.Inside .roleMeta (g.role r).origin m ∧
    g.Inside .roleDefinition m d.origin
  defaults : Fields.Sorted new.defaults
  vars : Fields.Sorted new.vars

/-- A role without known dependencies may be filled. -/
theorem Sound.fillRole (hs : g.Sound) {r : RoleId} {f : Role → Role}
    (hd : (g.role r).directDependencies = none) (ha : (g.role r).allDependencies = none)
    (h : g.Filled r (f (g.role r))) : (g.modifyRole r f).Sound := by
  have hk : KeepsRole (g.role r) (f (g.role r)) :=
    ⟨h.origin, h.play, h.name, fun _ h => (Option.some_ne_none _ (h.symm.trans hd)).elim,
      fun _ h => (Option.some_ne_none _ (h.symm.trans ha)).elim⟩
  have k := keeps_modifyRole hk
  refine hs.modifyRole hk fun hr => ?_
  obtain ⟨h₁, h₂, h₃, h₄⟩ := SoundRole.frame k hs hr
  refine ⟨h₁, h₂, h₃, h₄, fun x hx => ?_, fun d hdep => ?_,
    fun ds hds => ?_, fun l hl => ?_, ?_, ?_⟩
  · rw [role_modifyRole_self hr] at hx ⊢
    rw [h.origin, h.play]
    exact (h.tasks x hx).keeps k hs
  · rw [role_modifyRole_self hr] at hdep ⊢
    obtain ⟨m, hm, hdm⟩ := h.declared d hdep
    rw [h.origin]
    exact ⟨m, hm.keeps k, hdm.keeps k⟩
  · rw [role_modifyRole_self hr, h.direct] at hds; cases hds
  · rw [role_modifyRole_self hr, h.all] at hl; cases hl
  · rw [role_modifyRole_self hr]; exact h.defaults
  · rw [role_modifyRole_self hr]; exact h.vars

end Graph

/-! ## Roles -/

/-- **A role that was just loaded**, from `s` to `s'`, and what it shows of its files so far. -/
structure LoadedRole (site : Site) (s s' : Store) (o : Option OriginId) (play : Option PlayId)
    (r : RoleId) (role : NamedRole) : Prop where
  ext : s.Adds site s'
  new : ¬ s.graph.HasRole r
  only : ∀ q, s'.graph.HasRole q → s.graph.HasRole q ∨ q = r
  newOrigin : ¬ s.graph.HasOrigin (s'.graph.role r).origin
  origin : (s'.graph.origin (s'.graph.role r).origin).parent = o
  play : (s'.graph.role r).play = play
  shows : s'.graph.ShowsNamed r role

namespace LoadedRole

variable {s' s'' : Store} {o : Option OriginId} {play : Option PlayId} {r : RoleId}
  {role role' : NamedRole}

theorem has (h : LoadedRole site s s' o play r role) : s'.graph.HasRole r := h.shows.shows.has

/-- More is added beside the role. -/
theorem more (h : LoadedRole site s s' o play r role) (hs : s'.graph.Sound) (he : s'.Adds site s'')
    (hroles : s''.graph.roles = s'.graph.roles) : LoadedRole site s s'' o play r role := by
  have hr := he.adds.role r h.has
  have ho := he.adds.origin _ (hs.roles r h.has).origin
  refine ⟨h.ext.trans he, h.new, fun q hq => h.only q ?_, by rw [hr]; exact h.newOrigin,
    by rw [hr, ho]; exact h.origin, by
  rw [hr]; exact h.play, h.shows.stays hs he.adds.grows.toStays⟩
  rw [Graph.HasRole, ← hroles]; exact hq

/-- The role is filled with what one more file declares. -/
theorem fill (h : LoadedRole site s s' o play r role) (hs : s'.graph.Sound) {f : Role → Role}
    (hf : s'.graph.Filled r (f (s'.graph.role r)))
    (head : (⟨(f (s'.graph.role r)).declared.dependencies.map (·.name),
      (f (s'.graph.role r)).defaults,
      (f (s'.graph.role r)).vars⟩ : RoleHead) = role'.toRoleHead)
    (tasks : List.Forall₂ (fun x (e : FilePath × TaskDeclaration) => s'.graph.Shows e.1 x e.2)
      (f (s'.graph.role r)).tasks role'.tasks) (hname : role'.name = role.name)
      (hdir : role'.dir = role.dir)
    (references : List.Forall₂ (s'.graph.RefersTo (s'.graph.role r).origin)
      (f (s'.graph.role r)).declared.dependencies role'.references) :
    LoadedRole site s { s' with graph := s'.graph.modifyRole r f } o play r role' := by
  have hmemo := h.ext.adds.newRole r h.new
  have hr : (s'.graph.modifyRole r f).role r = f (s'.graph.role r) :=
    Graph.role_modifyRole_self h.has
  refine ⟨⟨fun _ => hs.fillRole hmemo.1 hmemo.2 hf, h.ext.adds.modifyRole h.new ⟨hf.direct, hf.all⟩,
    h.ext.locate⟩, h.new, fun q hq => h.only q (Graph.hasRole_modifyRole.1 hq), ?_, ?_, ?_,
    ⟨Graph.hasRole_modifyRole.2 h.has, ?_, ?_⟩, ?_, ?_, ?_⟩
  · rw [hr, hf.origin]; exact h.newOrigin
  · rw [hr, hf.origin]; exact h.origin
  · rw [hr, hf.play]; exact h.play
  · rw [Graph.roleHead, hr]; exact head
  · rw [hr]
    refine tasks.imp fun _ _ hx => ?_
    show (s'.graph.modifyRole r f).Shows _ _ _
    refine hx.of_eq ?_ ?_ <;> rfl
  · rw [hr, hf.name, hname]; exact h.shows.name
  · rw [hr, hf.origin, hname, hdir]; exact h.shows.place
  · rw [hr, hf.origin]
    have ho : (s'.graph.modifyRole r f).origins = s'.graph.origins := rfl
    exact references.imp fun _ _ hde => hde.of_origins ho

/-- A role may be filled with what it holds. -/
theorem filled (h : LoadedRole site s s' o play r role) (hs : s'.graph.Sound) :
    s'.graph.Filled r (s'.graph.role r) where
  origin := rfl
  play := rfl
  name := rfl
  direct := (h.ext.adds.newRole r h.new).1
  all := (h.ext.adds.newRole r h.new).2
  tasks := (hs.roles r h.has).tasks
  declared := (hs.roles r h.has).declared
  defaults := (hs.roles r h.has).defaults
  vars := (hs.roles r h.has).vars

/-- More defaults. -/
theorem assignDefaults (h : LoadedRole site s s' o play r role) (hs : s'.graph.Sound)
    (vars : Variables) :
    LoadedRole site s { s' with graph := s'.graph.modifyRole r fun r =>
        { r with defaults := r.defaults.assign vars } } o play r
      { role with defaults := role.defaults.assign vars } := by
  have hf := h.filled hs
  refine h.fill hs { hf with defaults := Variables.sorted_assign hf.defaults } ?_
    h.shows.shows.tasks rfl rfl
    h.shows.references
  rw [← h.shows.shows.head]; rfl

/-- More variables. -/
theorem assignVars (h : LoadedRole site s s' o play r role) (hs : s'.graph.Sound)
    (vars : Variables) :
    LoadedRole site s { s' with graph := s'.graph.modifyRole r fun r =>
        { r with vars := r.vars.assign vars } } o play r
      { role with vars := role.vars.assign vars } := by
  have hf := h.filled hs
  refine h.fill hs { hf with vars := Variables.sorted_assign hf.vars } ?_
    h.shows.shows.tasks rfl rfl
    h.shows.references
  rw [← h.shows.shows.head]; rfl

/-- What the role declares about itself. -/
theorem declare (h : LoadedRole site s s' o play r role) (hs : s'.graph.Sound)
    (path : FilePath) (m : MetaDeclaration) {declared : RoleMeta} {g : Graph}
    (hstamp : s'.graph.stampMeta path (s'.graph.role r).origin m = (declared, g)) :
    LoadedRole site s { s' with graph := g.modifyRole r fun r => { r with declared } } o play r
      { role with dependencies := m.dependencies.map (·.name), declared := some (path, m) } := by
  obtain ⟨⟨hs₂, hadds⟩, hin, hreferences⟩ :=
    Graph.stampMeta_spec hs path (hs.roles r h.has).origin m
  have hroles : (s'.graph.stampMeta path (s'.graph.role r).origin m).2.roles = s'.graph.roles :=
    Graph.roles_stampReferences _ path _ m.dependencies
  rw [hstamp] at hs₂ hadds hin hreferences hroles
  have h₂ : LoadedRole site s { s' with graph := g } o play r role :=
    h.more hs ⟨fun _ => hs₂, hadds, fun _ => rfl⟩ hroles
  have hrole := hadds.role r h.has
  have hnames : declared.dependencies.map (·.name) = m.dependencies.map (·.name) := by
    rw [MetaDeclaration.references, List.forall₂_map_right_iff] at hreferences
    exact forall₂_map_eq (hreferences.imp fun _ _ h => h.1)
  refine h₂.fill hs₂ { h₂.filled hs₂ with declared := fun d hd => ?_ } ?_
    h₂.shows.shows.tasks rfl rfl ?_
  · rw [hrole]; exact hin d hd
  · rw [hnames, ← h₂.shows.shows.head]; rfl
  · show List.Forall₂ (g.RefersTo (g.role r).origin) declared.dependencies (m.references path)
    rw [hrole]; exact hreferences

end LoadedRole

/-- A role that was loaded from its directory, as far as it goes, is the only one that is new. -/
theorem LoadedRole.extends {s' : Store} {o : Option OriginId} {play : Option PlayId} {r : RoleId}
    {role : NamedRole} (h : LoadedRole site s s' o play r role)
    (hdir : s.locate site role.name = .ok role.dir)
    (hdeclared : site.disk.tree.Ordered → role.declared = site.readMeta role.dir) :
    Extends site s s' := by
  refine h.ext.extends fun hordered hlocate q hq hnew => ?_
  rcases h.only q hq with hold | rfl
  · exact absurd hold hnew
  · exact h.shows.real ((hlocate _).symm.trans hdir) (hdeclared hordered)

/-- The variables of one of a role's files. -/
theorem loadRoleVars_ends {path : FilePath} : Ends (loadRoleVars site path) s
    (fun vars s' => vars = site.readRoleVars path ∧ s.Adds site s' ∧ s'.graph.roles = s.graph.roles)
    fun _ _ => False := by
  unfold loadRoleVars Site.readRoleVars
  cases hread : readDeclared site Declaration.vars path with
  | ok vars => exact ⟨rfl, .refl s, rfl⟩
  | error e =>
    rw [ends_bind, ends_note, ends_pure]
    exact ⟨rfl, ⟨id, Graph.Adds.refl _, fun _ => rfl⟩, rfl⟩

section File

variable {s' : Store} {o : Option OriginId} {play : Option PlayId} {r : RoleId} {role : NamedRole}

/-- A file of tasks. -/
theorem loadRoleTasks_ends (hs : s.graph.Sound) (h : LoadedRole site s s' o play r role)
    (path : FilePath) :
    Ends (do
        let tasks ← loadTasksIn site (some (s'.graph.role r).origin) (some r)
          (s'.graph.role r).play path
        Load.update fun g => g.modifyRole r fun r => { r with tasks := r.tasks ++ tasks }) s'
      (fun _ s'' => ∃ ds, site.readTasks path = .ok ds ∧ LoadedRole site s s'' o play r
        { role with tasks := role.tasks ++ ds.map fun d => (path, d) })
      fun e s'' => site.readTasks path = .error e ∧ LoadedRole site s s'' o play r role := by
  have hs' := h.ext.sound hs
  have hr := hs'.roles r h.has
  have ha :
      s'.graph.Admits ⟨path, some r, (s'.graph.role r).play⟩
        (some (s'.graph.role r).origin) none := by
    refine ⟨?_, hr.play, ?_, ?_⟩
    · rintro _ ⟨⟩; exact h.has
    · rintro _ ⟨⟩; exact hr.origin
    · intro p hp; cases hp
  rw [ends_bind]
  refine (loadTasksIn_ends hs' ha).mono ?_ ?_
  · rintro xs s₂ ⟨hext, hroles, hstamped, ds, hread, hshows⟩
    rw [ends_update]
    have hs₂ := hext.sound hs'
    have h₂ := h.more hs' hext.toAdds hroles
    have hrole := hext.adds.role r h.has
    refine ⟨ds, hread,
      h₂.fill hs₂ { h₂.filled hs₂ with tasks := fun x hx => ?_ } h₂.shows.shows.head ?_
      rfl rfl h₂.shows.references⟩
    · rcases List.mem_append.1 hx with hx | hx
      · exact (h₂.filled hs₂).tasks x hx
      · have := (hstamped x hx).placed
        rw [← hrole] at this
        exact this
    · refine List.rel_append h₂.shows.shows.tasks ?_
      rw [List.forall₂_map_right_iff]
      exact Graph.showsAll_iff.1 hshows
  · rintro e s₂ ⟨hext, hroles, hread⟩
    exact ⟨hread, h.more hs' hext.toAdds hroles⟩

/-- **To load one file of a role is to read it.** Only a file of tasks fails. -/
theorem loadRoleFile_ends (hs : s.graph.Sound) {text : RoleText} {name : String} {dir : FilePath}
    {declared : Option (FilePath × MetaDeclaration)}
    (h : LoadedRole site s s' o play r ⟨text, name, dir, declared⟩) (selection : RoleSelection)
    (folder : String) (file : List String) :
    Ends (loadRoleFile site selection r folder file (dir.below (folder :: file))) s'
      (fun _ s'' => ∃ text',
        site.readRoleFile selection text folder file (dir.below (folder :: file)) = .ok text' ∧
        LoadedRole site s s'' o play r
          ⟨text', name, dir, site.readMetaFile dir declared (folder :: file)⟩)
      fun e s'' =>
        site.readRoleFile selection text folder file (dir.below (folder :: file)) = .error e ∧
        folder = "tasks" ∧ LoadedRole site s s'' o play r ⟨text, name, dir, declared⟩ := by
  have hs' := h.ext.sound hs
  have hother : ∀ folder, folder ≠ "meta" →
      site.readMetaFile dir declared (folder :: file) = declared :=
    fun _ hne => readMetaFile_other hne
  unfold loadRoleFile Site.readRoleFile
  rw [ends_bind, ends_graph]
  split
  · rw [hother _ (by decide)]
    split
    · refine (loadRoleTasks_ends hs h (dir.below ("tasks" :: file))).mono ?_ ?_
      · rintro _ s₂ ⟨ds, hread, h₂⟩
        rw [hread]; exact ⟨_, rfl, h₂⟩
      · rintro e s₂ ⟨hread, h₂⟩
        rw [hread]; exact ⟨rfl, rfl, h₂⟩
    · exact ⟨text, rfl, h⟩
  · rw [hother _ (by decide)]
    split
    · rw [ends_bind]
      refine loadRoleVars_ends.mono ?_ fun _ _ h => h.elim
      rintro vars s₂ ⟨rfl, hadds, hroles⟩
      exact ⟨_, rfl, (h.more hs' hadds hroles).assignDefaults (hadds.sound hs') _⟩
    · exact ⟨text, rfl, h⟩
  · rw [hother _ (by decide)]
    split
    · rw [ends_bind]
      refine loadRoleVars_ends.mono ?_ fun _ _ h => h.elim
      rintro vars s₂ ⟨rfl, hadds, hroles⟩
      exact ⟨_, rfl, (h.more hs' hadds hroles).assignVars (hadds.sound hs') _⟩
    · exact ⟨text, rfl, h⟩
  · split
    · rename_i hselects
      rw [readMetaFile_meta hselects]
      cases hread : readDeclared site Declaration.roleMeta (dir.below ("meta" :: file)) with
      | error e =>
        rw [ends_note]
        exact ⟨text, rfl, h.more hs' ⟨id, Graph.Adds.refl _, fun _ => rfl⟩ rfl⟩
      | ok m =>
        rw [ends_bind, ends_change]
        exact ⟨_, rfl, h.declare hs' _ m rfl⟩
    · rename_i hselects
      rw [readMetaFile_not_selected hselects]
      exact ⟨text, rfl, h⟩
  · rename_i hmeta
    rw [hother folder hmeta]
    refine ⟨text, ?_, h⟩
    simp only

theorem loadRoleFiles_ends (hs : s.graph.Sound) {name : String} {dir : FilePath}
    (h : LoadedRole site s s' o play r ⟨⟨⟨[], [], []⟩, []⟩, name, dir, none⟩)
    (selection : RoleSelection) :
    Ends (loadRoleFiles site selection r dir) s'
      (fun _ s'' => ∃ text, site.readRoleAt selection dir = .ok text ∧
        LoadedRole site s s'' o play r ⟨text, name, dir, site.readMeta dir⟩)
      fun e s'' => site.readRoleAt selection dir = .error e ∧ ∃ text declared,
        LoadedRole site s s'' o play r ⟨text, name, dir, declared⟩ ∧
          (site.disk.tree.Ordered → declared = site.readMeta dir) := by
  unfold loadRoleFiles Site.readRoleAt Site.readMeta
  cases hfiles : site.disk.filesBelow dir with
  | error e => exact ⟨rfl, _, _, h, fun _ => rfl⟩
  | ok files =>
    refine (Ends.forM (P := fun front text s'' => LoadedRole site s s'' o play r
        ⟨text, name, dir, front.foldl (site.readMetaFile dir) none⟩)
      (E := fun front names _ s'' => names.head? = some "tasks" ∧
        ∃ text, LoadedRole site s s'' o play r
        ⟨text, name, dir, front.foldl (site.readMetaFile dir) none⟩) ?_ h).mono (fun _ _ h => h) ?_
    · rintro front (_ | ⟨folder, file⟩) back - text s₁ h₁
      · refine ⟨text, rfl, ?_⟩
        rw [List.foldl_append]; exact h₁
      · refine (loadRoleFile_ends hs h₁ selection folder file).mono ?_ ?_
        · rintro _ s₂ ⟨text', hread, h₂⟩
          refine ⟨text', hread, ?_⟩
          rw [List.foldl_append]; exact h₂
        · rintro e s₂ ⟨hread, hfolder, h₂⟩
          exact ⟨hread, congrArg some hfolder, text, h₂⟩
    · rintro e s₂ ⟨hread, front, names, back, hsplit, htasks, text, h₂⟩
      refine ⟨hread, text, _, h₂, fun hordered => ?_⟩
      -- what a role declares about itself comes before its tasks
      exact (readMeta_front (Disk.filesBelow_ordered hordered hfiles) hsplit htasks).symm

end File

/-- A role without files. -/
theorem loadedRole_new (hs : s.graph.Sound) {o : Option OriginId} {play : Option PlayId}
    (ho : ∀ o', o = some o' → s.graph.HasOrigin o') (hp : ∀ p, play = some p → s.graph.HasPlay p)
    (name : String) {dir : FilePath} {new : Role} (hname : new.name = name)
    (horigin : new.origin = ⟨s.graph.origins.size⟩) (hplay : new.play = play)
    (htasks : new.tasks = []) (hdefaults : new.defaults = []) (hvars : new.vars = [])
    (hdeclared : new.declared = .empty) (hdirect : new.directDependencies = none)
    (hall : new.allDependencies = none) :
    LoadedRole site s
      { s with graph := ((s.graph.addOrigin ⟨.role, dir, .unknown, some name, o⟩).2.addRole new).2 }
      o play ⟨s.graph.roles.size⟩ ⟨⟨⟨[], [], []⟩, []⟩, name, dir, none⟩ := by
  have hs₁ := hs.addOrigin (o := ⟨.role, dir, .unknown, some name, o⟩) ho
  have hself := Graph.origin_addOrigin_self (g := s.graph) ⟨.role, dir, .unknown, some name, o⟩
  have hrole : ((s.graph.addOrigin ⟨.role, dir, .unknown, some name, o⟩).2.addRole new).2.role
      ⟨s.graph.roles.size⟩ = new := Graph.role_addRole_self (g := (s.graph.addOrigin _).2) new
  have hnew : Graph.NewRole (s.graph.addOrigin ⟨.role, dir, .unknown, some name, o⟩).2 new := by
    refine ⟨?_, ?_, fun q hq => ?_, ?_, htasks, hdeclared, hdefaults, hvars, hdirect, hall⟩
    · rw [horigin]; exact Graph.hasOrigin_addOrigin.2 (Or.inl rfl)
    · rw [horigin, hself]
    · rw [horigin]; exact (hs.roles q hq).origin
    · rw [hplay]; exact hp
  refine ⟨⟨fun _ => hs₁.addRole hnew,
    (Graph.adds_addOrigin _).trans (Graph.adds_addRole hdirect hall),
    fun _ => rfl⟩, lt_irrefl _, fun q hq => ?_, ?_, ?_, ?_,
    ⟨Graph.hasRole_addRole.2 (Or.inl rfl), ?_, ?_⟩,
    ?_, ?_, ?_⟩
  · rcases Graph.hasRole_addRole.1 hq with hq | hq
    · exact Or.inr (congrArg RoleId.mk hq)
    · exact Or.inl hq
  · rw [hrole, horigin]; exact lt_irrefl _
  · rw [hrole, horigin]; exact congrArg Origin.parent hself
  · rw [hrole, hplay]
  · rw [Graph.roleHead, hrole, hdeclared, hdefaults, hvars]; rfl
  · rw [hrole, htasks]; exact .nil
  · rw [hrole]; exact hname
  · rw [hrole, horigin]; exact congrArg Origin.bare hself
  · rw [hrole, hdeclared]; exact .nil

theorem graph_addRoleDir (s : Store) (name : String) (dir : FilePath) :
    (s.addRoleDir name dir).graph = s.graph := rfl

/-- To remember where a role is found adds nothing else. -/
theorem adds_addRoleDir {name : String} {dir : FilePath} (h : s.locate site name = .ok dir) :
    s.Adds site (s.addRoleDir name dir) := by
  have hg := graph_addRoleDir s name dir
  exact ⟨fun hs => by rw [hg]; exact hs, by rw [hg]; exact Graph.Adds.refl _,
    fun _ => locate_addRoleDir h⟩

/-- **To load a role is to read its files**, and to add what they declare. -/
theorem loadRoleWith_ends (hs : s.graph.Sound) {o : Option OriginId} {play : Option PlayId}
    (ho : ∀ o', o = some o' → s.graph.HasOrigin o') (hp : ∀ p, play = some p → s.graph.HasPlay p)
    (name : String) (selection : RoleSelection) :
    Ends (loadRoleWith site o play name selection) s
      (fun r s' => Extends site s s' ∧ ∃ role, s.readNamed site name selection = .ok role ∧
        LoadedRole site s s' o play r role)
      fun e s' => Extends site s s' ∧ s.readNamed site name selection = .error e := by
  unfold loadRoleWith Store.readNamed
  rw [ends_bind, ends_get, ends_bind, ends_ofExcept]
  refine ⟨fun dir hlocate => ?_, fun e hlocate => ?_⟩
  · rw [ends_bind, ends_change, ends_bind]
    simp only [hlocate]
    refine Ends.mono (loadRoleFiles_ends hs
      (loadedRole_new hs ho hp name rfl rfl rfl rfl rfl rfl rfl rfl rfl) selection) ?_ ?_
    · rintro _ s₂ ⟨text, hread, h₂⟩
      rw [ends_bind, ends_modify, ends_pure]
      have h₃ := h₂.more (h₂.ext.sound hs) (adds_addRoleDir ((h₂.ext.locate name).trans hlocate))
        (congrArg Graph.roles (graph_addRoleDir s₂ name dir))
      refine ⟨h₃.extends hlocate fun _ => rfl, _, ?_, h₃⟩
      exact except_bind_ok.2 ⟨dir, rfl, except_bind_ok.2 ⟨text, hread, rfl⟩⟩
    · rintro e s₂ ⟨hread, text, declared, h₂, hdeclared⟩
      refine ⟨h₂.extends hlocate hdeclared, ?_⟩
      exact except_bind_error.2 (Or.inr ⟨dir, rfl, except_bind_error.2 (Or.inl hread)⟩)
  · exact ⟨.refl s, by rw [hlocate]; rfl⟩

end Runlist
