import Runlist.Proofs.Graph.Scopes
import Runlist.Proofs.Load.Stamp
import Runlist.Proofs.Named

/-!
# States over a tree of files

What entities of a graph stand for in the documents, and how operations change a state.

* `Graph.scope`: where a task of the graph stands. `Graph.ShowsRole`: a role is what files declare.
* `Graph.ShowsNamed`: it is so with its name, its place and its references.
* `Graph.Real`: a role depends on what the files of its name declare.
* `Store.readRole`, `Store.readNamed`: the role of a name, its directory found as the state finds
  it.
* `Faithful`: **what a state remembers is what the documents say.**
* `Extends`: an operation only adds. `Advances`: it may also fill in what is remembered.
-/

namespace Runlist

/-! ## What entities stand for -/

namespace Graph

variable {g g' : Graph} {r : RoleId} {p : PlayId} {x : TaskId}

/-- What a role declares besides its tasks. -/
def roleHead (g : Graph) (r : RoleId) : RoleHead :=
  ⟨(g.role r).declared.dependencies.map (·.name), (g.role r).defaults, (g.role r).vars⟩

/-- What a play declares besides its tasks. -/
def playHead (g : Graph) (p : PlayId) : PlayHead :=
  ⟨(g.origin (g.play p).origin).path, (g.play p).vars, (g.play p).varsFiles,
    (g.play p).roles.map g.roleHead⟩

/-- The role is one of its play's own. -/
def listed (g : Graph) (r : RoleId) : Bool :=
  match (g.role r).play with
  | some p => (g.play p).roles.contains r
  | none => false

/-- **Where a task stands.** -/
def scope (g : Graph) (x : TaskId) : Scope where
  play := (g.taskPlay x).map g.playHead
  role := (g.task x).role.map g.roleHead
  listed := match (g.task x).role with
    | some r => g.listed r
    | none => false

theorem roleHead_stays (h : g.Stays g') (hr : g.HasRole r) : g'.roleHead r = g.roleHead r := by
  rw [roleHead, roleHead, (h.role r hr).same]

theorem playHead_stays (hs : g.Sound) (h : g.Stays g') (hp : g.HasPlay p) :
    g'.playHead p = g.playHead p := by
  rw [playHead, playHead, h.play p hp, h.origin _ (hs.plays p hp).origin]
  congr 1
  refine List.map_congr_left fun r hr => ?_
  obtain ⟨_, _, hst⟩ := (hs.plays p hp).roles r hr
  exact roleHead_stays h hst.has

theorem listed_stays (hs : g.Sound) (h : g.Stays g') (hr : g.HasRole r) :
    g'.listed r = g.listed r := by
  rw [listed, listed, (h.role r hr).same]
  simp only
  cases hp : (g.role r).play with
  | none => rfl
  | some p => simp only [h.play p ((hs.roles r hr).play p hp)]

theorem scope_stays (hs : g.Sound) (h : g.Stays g') (hx : g.HasTask x) :
    g'.scope x = g.scope x := by
  rw [scope, scope, taskPlay_keeps hs h.keeps hx, (h.task x hx).same]
  simp only
  congr 1
  · cases hp : g.taskPlay x with
    | none => rfl
    | some p => exact congrArg some (playHead_stays hs h (hasPlay_taskPlay hs hx hp))
  · cases hr : (g.task x).role with
    | none => rfl
    | some r => exact congrArg some (roleHead_stays h ((hs.tasks x hx).role r hr))
  · cases hr : (g.task x).role with
    | none => rfl
    | some r => exact listed_stays hs h ((hs.tasks x hx).role r hr)

/-- **A role depends on what the files of its name declare.** -/
def Real (site : Site) (g : Graph) (r : RoleId) : Prop :=
  (g.roleHead r).dependencies = site.dependencyNames (g.role r).name

theorem Real.stays {site : Site} (h : g.Stays g') (hr : g.HasRole r) (hreal : g.Real site r) :
    g'.Real site r := by
  unfold Real
  rw [roleHead_stays h hr, (h.keeps.role r hr).name]; exact hreal

/-- **A role is what files declare.** -/
structure ShowsRole (g : Graph) (r : RoleId) (text : RoleText) : Prop where
  has : g.HasRole r
  head : g.roleHead r = text.toRoleHead
  tasks : List.Forall₂ (fun x (e : FilePath × TaskDeclaration) => g.Shows e.1 x e.2)
    (g.role r).tasks text.tasks

theorem ShowsRole.stays (hs : g.Sound) (h : g.Stays g') {text : RoleText}
    (hr : g.ShowsRole r text) : g'.ShowsRole r text where
  has := h.keeps.hasRole hr.has
  head := (roleHead_stays h hr.has).trans hr.head
  tasks := by
    rw [(h.role r hr.has).same]
    exact hr.tasks.imp fun _ _ hx => hx.stays hs h

theorem ShowsRole.of_eq (ht : g'.tasks = g.tasks) (ho : g'.origins = g.origins)
    (he : g'.roles = g.roles) {text : RoleText} (hr : g.ShowsRole r text) :
    g'.ShowsRole r text where
  has := by rw [HasRole, he]; exact hr.has
  head := by rw [roleHead, role, he]; exact hr.head
  tasks := by rw [role, he]; exact hr.tasks.imp fun _ _ hx => hx.of_eq ht ho

/-- A definition is a reference to another role, in its place inside the origin of the role that has
it. -/
def RefersTo (g : Graph) (o : OriginId) (d : RoleDefinition)
    (reference : String × List Origin) : Prop :=
  d.name = reference.1 ∧ g.trail d.origin = reference.2 ++ g.trail o

/-- **A role is what files declare**, with its name, its place and its references. -/
structure ShowsNamed (g : Graph) (r : RoleId) (role : NamedRole) : Prop where
  shows : g.ShowsRole r role.toRoleText
  name : (g.role r).name = role.name
  place : (g.origin (g.role r).origin).bare = ⟨.role, role.dir, .unknown, some role.name, none⟩
  references :
      List.Forall₂ (g.RefersTo (g.role r).origin) (g.role r).declared.dependencies role.references

theorem refersTo_keeps (hs : g.Sound) (h : g.Keeps g') (hr : g.HasRole r)
    {references : List (String × List Origin)}
    (hrefs : List.Forall₂ (g.RefersTo (g.role r).origin)
      (g.role r).declared.dependencies references) :
    List.Forall₂ (g'.RefersTo (g.role r).origin) (g.role r).declared.dependencies references := by
  have hrole := hs.roles r hr
  refine forall₂_mem hrefs fun d e hd _ hde => ⟨hde.1, ?_⟩
  obtain ⟨m, -, hin⟩ := hrole.declared d hd
  rw [trail_keeps h hin.has, trail_keeps h hrole.origin]; exact hde.2

theorem ShowsNamed.stays (hs : g.Sound) (h : g.Stays g') {role : NamedRole}
    (hr : g.ShowsNamed r role) : g'.ShowsNamed r role where
  shows := hr.shows.stays hs h
  name := by rw [(h.role r hr.shows.has).same]; exact hr.name
  place := by
    rw [(h.role r hr.shows.has).same, h.origin _ (hs.roles r hr.shows.has).origin]; exact hr.place
  references := by
    rw [(h.role r hr.shows.has).same]
    exact refersTo_keeps hs h.keeps hr.shows.has hr.references

/-- A role whose directory is that of its name depends on what the files of its name declare. -/
theorem ShowsNamed.real {site : Site} {role : NamedRole} (h : g.ShowsNamed r role)
    (hdir : site.findRole role.name = .ok role.dir)
    (hdeclared : role.declared = site.readMeta role.dir) : g.Real site r := by
  have hnames : (g.roleHead r).dependencies = role.references.map (·.1) :=
    forall₂_map_eq (h.references.imp fun _ _ h => h.1)
  rw [Real, hnames, h.name, role.references_names, hdeclared, dependencyNames_of_found hdir]

theorem trail_of_origins (ho : g'.origins = g.origins) (o : OriginId) : g'.trail o = g.trail o := by
  have horigin : ∀ o, g'.origin o = g.origin o := fun o => by rw [origin, origin, ho]
  have hlineage : g'.lineage o = g.lineage o := by
    induction o using lineage.induct with
    | case1 o ih =>
      rw [lineage, lineage, horigin]
      cases hp : (g.origin o).parent with
      | none => rfl
      | some p =>
        simp only
        split
        · rename_i hlt; rw [ih p hlt]
        · rfl
  rw [trail, trail, hlineage]
  exact List.map_congr_left fun m _ => by rw [horigin]

theorem trailOf_of_origins (ho : g'.origins = g.origins) (o : Option OriginId) :
    g'.trailOf o = g.trailOf o := by
  cases o with
  | none => rfl
  | some o => exact trail_of_origins ho o

theorem RefersTo.of_origins (ho : g'.origins = g.origins) {o : OriginId} {d : RoleDefinition}
    {reference : String × List Origin} (h : g.RefersTo o d reference) :
    g'.RefersTo o d reference := by
  refine ⟨h.1, ?_⟩
  rw [trail_of_origins ho, trail_of_origins ho]; exact h.2

theorem ShowsNamed.of_eq (ht : g'.tasks = g.tasks) (ho : g'.origins = g.origins)
    (he : g'.roles = g.roles) {role : NamedRole} (hr : g.ShowsNamed r role) :
    g'.ShowsNamed r role where
  shows := hr.shows.of_eq ht ho he
  name := by rw [Graph.role, he]; exact hr.name
  place := by rw [origin, Graph.role, ho, he]; exact hr.place
  references := by
    rw [Graph.role, he]
    exact hr.references.imp fun _ _ hde => hde.of_origins ho

end Graph

/-! ## Where roles are found -/

/-- The role of a name, as a state finds it. -/
def Store.readRole (site : Site) (s : Store) (name : String) (selection : RoleSelection) :
    Except LoadError RoleText :=
  s.locate site name >>= site.readRoleAt selection

/-- The role of a name with its place, as a state finds it. -/
def Store.readNamed (site : Site) (s : Store) (name : String) (selection : RoleSelection) :
    Except LoadError NamedRole := do
  let dir ← s.locate site name
  let text ← site.readRoleAt selection dir
  return ⟨text, name, dir, site.readMeta dir⟩

variable {site : Site} {s s₁ s₂ : Store}

theorem Store.readNamed_ok {name : String} {selection : RoleSelection} {r : NamedRole}
    (h : s.readNamed site name selection = .ok r) : s.readRole site name selection =
      .ok r.toRoleText := by
  obtain ⟨dir, hdir, h⟩ := except_bind_ok.1 h
  obtain ⟨text, htext, h⟩ := except_bind_ok.1 h
  cases h
  exact except_bind_ok.2 ⟨dir, hdir, htext⟩

theorem Store.readNamed_name {name : String} {selection : RoleSelection} {r : NamedRole}
    (h : s.readNamed site name selection = .ok r) : r.name = name := by
  obtain ⟨dir, -, h⟩ := except_bind_ok.1 h
  obtain ⟨text, -, h⟩ := except_bind_ok.1 h
  cases h; rfl

theorem Store.readNamed_error {name : String} {selection : RoleSelection} {e : LoadError} :
    s.readNamed site name selection = .error e ↔ s.readRole site name selection = .error e := by
  unfold Store.readNamed Store.readRole
  rw [except_bind_error, except_bind_error]
  refine or_congr_right (exists_congr fun dir => and_congr_right fun _ => ?_)
  rw [except_bind_error]
  constructor
  · rintro (h | ⟨text, -, h⟩)
    · exact h
    · cases h
  · exact Or.inl

/-- What is remembered is the directory of one more name, and what was remembered of the others. -/
theorem roleDir?_addRoleDir (s : Store) (name other : String) (dir : FilePath) :
    (s.addRoleDir name dir).roleDir? other = if other = name then some dir
      else s.roleDir? other := by
  unfold Store.addRoleDir Store.roleDir?
  rw [List.lookup_cons]
  by_cases hname : other = name
  · rw [if_pos hname, beq_iff_eq.2 hname]
  · rw [if_neg hname, beq_eq_false_iff_ne.2 hname]

/-- To remember where a role is found changes nothing about where roles are found: a name that is
known is found where it was. -/
theorem locate_addRoleDir {name n : String} {dir : FilePath} (h : s.locate site name = .ok dir) :
    (s.addRoleDir name dir).locate site n = s.locate site n := by
  rw [Store.locate, roleDir?_addRoleDir]
  by_cases hname : n = name
  · rw [if_pos hname, hname, h]
  · rw [if_neg hname]
    rfl

/-! ## How operations change a state -/

/-- The state has more in it, and finds roles where they were found. -/
structure Store.Adds (site : Site) (s s' : Store) : Prop where
  sound : s.graph.Sound → s'.graph.Sound
  adds : s.graph.Adds s'.graph
  locate : ∀ name, s'.locate site name = s.locate site name

/-- Where roles are found by a search, every role depends on what the files of its name declare. -/
def Store.Real (site : Site) (s : Store) : Prop :=
  site.disk.tree.Ordered → (∀ name, s.locate site name = site.findRole name) →
    ∀ r, s.graph.HasRole r → s.graph.Real site r

theorem Store.Real.stays (h : s.Real site) (hst : s.graph.Stays s₁.graph)
    (locate : ∀ name, s₁.locate site name = s.locate site name)
    (hroles : ∀ r, s₁.graph.HasRole r → s.graph.HasRole r) : s₁.Real site := by
  intro hordered hlocate r hr
  have hold := hroles r hr
  exact (h hordered (fun name => (locate name).symm.trans (hlocate name)) r hold).stays hst hold

/-- **An operation only adds**, and the roles that it adds depend on what their files declare. -/
structure Extends (site : Site) (s s' : Store) : Prop extends s.Adds site s' where
  real : s.Real site → s'.Real site

theorem Store.Adds.refl (s : Store) : s.Adds site s := ⟨id, Graph.Adds.refl _, fun _ => rfl⟩

theorem Store.Adds.trans (h : s.Adds site s₁) (h' : s₁.Adds site s₂) : s.Adds site s₂ where
  sound hs := h'.sound (h.sound hs)
  adds := h.adds.trans h'.adds
  locate name := (h'.locate name).trans (h.locate name)

/-- A state with one more role, or none. -/
theorem Store.Adds.extends (h : s.Adds site s₁) (new : site.disk.tree.Ordered →
    (∀ name, s.locate site name = site.findRole name) →
    ∀ r, s₁.graph.HasRole r → ¬ s.graph.HasRole r → s₁.graph.Real site r) : Extends site s s₁ where
  toAdds := h
  real hreal hordered hlocate r hr := by
    have hbefore : ∀ name, s.locate site name = site.findRole name :=
      fun name => (h.locate name).symm.trans (hlocate name)
    by_cases hold : s.graph.HasRole r
    · exact (hreal hordered hbefore r hold).stays h.adds.grows.toStays hold
    · exact new hordered hbefore r hr hold

/-- A state with the same roles. -/
theorem Store.Real.of_roles (h : s.Real site) (hroles : s₁.graph.roles = s.graph.roles)
    (locate : ∀ name, s₁.locate site name = s.locate site name) : s₁.Real site := by
  intro hordered hlocate r hr
  rw [Graph.HasRole, hroles] at hr
  have hreal := h hordered (fun name => (locate name).symm.trans (hlocate name)) r hr
  rw [Graph.Real, Graph.roleHead, Graph.role] at hreal ⊢
  rw [hroles]; exact hreal

theorem Store.Adds.extends_of_roles (h : s.Adds site s₁) (hroles : s₁.graph.roles = s.graph.roles) :
    Extends site s s₁ := ⟨h, fun hreal => hreal.of_roles hroles h.locate⟩

theorem Extends.refl (s : Store) : Extends site s s := ⟨.refl s, id⟩

theorem Extends.trans (h : Extends site s s₁) (h' : Extends site s₁ s₂) : Extends site s s₂ :=
  ⟨h.toAdds.trans h'.toAdds, fun hreal => h'.real (h.real hreal)⟩

/-- A notice adds nothing. -/
theorem extends_note (s : Store) (notice : Notice) :
    Extends site s { s with notices := s.notices ++ [notice] } :=
  Store.Adds.extends_of_roles ⟨id, Graph.Adds.refl _, fun _ => rfl⟩ rfl

/-- A role is read as before. -/
theorem Extends.readNamed (h : Extends site s s₁) (name : String) (selection : RoleSelection) :
    s₁.readNamed site name selection = s.readNamed site name selection := by
  rw [Store.readNamed, Store.readNamed, h.locate]

/-- **What a state remembers is what the documents say**: where roles are, which roles a role
depends on, and the variables of tasks. -/
structure Faithful (site : Site) (s : Store) : Prop where
  dirs : ∀ name, s.locate site name = site.findRole name
  real : s.Real site
  direct : ∀ r ds, (s.graph.role r).directDependencies = some ds → ∃ roles,
    (s.graph.roleHead r).dependencies.mapM (site.readNamed · .main) = .ok roles ∧
    List.Forall₂ s.graph.ShowsNamed ds roles
  cached : ∀ x vars, (s.graph.task x).cachedVars = some vars →
    (s.graph.scope x).Resolves site (s.graph.task x).vars vars

/-- **An operation fills in what is remembered**, and only as the documents say. -/
structure Advances (site : Site) (s s' : Store) : Prop where
  sound : s.graph.Sound → s'.graph.Sound
  grows : s.graph.Grows s'.graph
  locate : ∀ name, s'.locate site name = s.locate site name
  faithful : s.graph.Sound → Faithful site s → Faithful site s'

theorem Advances.refl (s : Store) : Advances site s s :=
  ⟨id, Graph.Grows.refl _, fun _ => rfl, fun _ h => h⟩

theorem Advances.trans (h : Advances site s s₁) (h' : Advances site s₁ s₂) :
    Advances site s s₂ where
  sound hs := h'.sound (h.sound hs)
  grows := h.grows.trans h'.grows
  locate name := (h'.locate name).trans (h.locate name)
  faithful hs hf := h'.faithful (h.sound hs) (h.faithful hs hf)

/-- What is filled in has to be as the documents say; the rest was there before. -/
theorem Faithful.stays (hs : s.graph.Sound) (hf : Faithful site s) (hst : s.graph.Stays s₁.graph)
    (locate : ∀ name, s₁.locate site name = s.locate site name) (real : s.Real site → s₁.Real site)
    (direct : ∀ r ds, (s₁.graph.role r).directDependencies = some ds →
      (s.graph.role r).directDependencies = some ds ∨ ∃ roles,
        (s₁.graph.roleHead r).dependencies.mapM (site.readNamed · .main) = .ok roles ∧
        List.Forall₂ s₁.graph.ShowsNamed ds roles)
    (cached : ∀ x vars, (s₁.graph.task x).cachedVars = some vars →
      (s.graph.task x).cachedVars = some vars ∨
        (s₁.graph.scope x).Resolves site (s₁.graph.task x).vars vars) : Faithful site s₁ := by
  refine ⟨fun name => (locate name).trans (hf.dirs name), real hf.real,
    fun r ds hd => ?_, fun x vars hv => ?_⟩
  · rcases direct r ds hd with hd | h
    · obtain ⟨roles, hread, hshows⟩ := hf.direct r ds hd
      rw [Graph.roleHead_stays hst (hs.hasRole_of_direct hd)]
      exact ⟨roles, hread, hshows.imp fun _ _ hsh => hsh.stays hs hst⟩
    · exact h
  · rcases cached x vars hv with hv | h
    · have hx : s.graph.HasTask x := by
        by_contra hx
        rw [Graph.task_of_not_has hx] at hv; cases hv
      rw [Graph.scope_stays hs hst hx, (hst.task x hx).same]
      exact hf.cached x vars hv
    · exact h

theorem Advances.of_grows (sound : s.graph.Sound → s₁.graph.Sound) (grows : s.graph.Grows s₁.graph)
    (locate : ∀ name, s₁.locate site name = s.locate site name) (real : s.Real site → s₁.Real site)
    (direct : s.graph.Sound → Faithful site s →
      ∀ r ds, (s₁.graph.role r).directDependencies = some ds →
      (s.graph.role r).directDependencies = some ds ∨ ∃ roles,
        (s₁.graph.roleHead r).dependencies.mapM (site.readNamed · .main) = .ok roles ∧
        List.Forall₂ s₁.graph.ShowsNamed ds roles)
    (cached : s.graph.Sound → Faithful site s → ∀ x vars, (s₁.graph.task x).cachedVars = some vars →
      (s.graph.task x).cachedVars = some vars ∨
        (s₁.graph.scope x).Resolves site (s₁.graph.task x).vars vars) : Advances site s s₁ where
  sound := sound
  grows := grows
  locate := locate
  faithful hs hf := hf.stays hs grows.toStays locate real (direct hs hf) (cached hs hf)

/-- What an operation that only adds has not filled in was there before. -/
theorem Extends.advances (h : Extends site s s₁) : Advances site s s₁ := by
  refine .of_grows h.sound h.adds.grows h.locate h.real (fun _ _ r ds hd => Or.inl ?_)
    fun _ _ x vars hv => Or.inl ?_
  · by_cases hr : s.graph.HasRole r
    · rw [h.adds.role r hr] at hd; exact hd
    · rw [(h.adds.newRole r hr).1] at hd; cases hd
  · by_cases hx : s.graph.HasTask x
    · rw [h.adds.task x hx] at hv; exact hv
    · rw [h.adds.newTask x hx] at hv; cases hv

/-- **An operation learns dependencies**: it fills in nothing else. -/
structure Learns (site : Site) (s s' : Store) : Prop extends Advances site s s' where
  tasks : ∀ x, s.graph.HasTask x → s'.graph.task x = s.graph.task x

theorem Learns.refl (s : Store) : Learns site s s := ⟨.refl s, fun _ _ => rfl⟩

theorem Learns.trans (h : Learns site s s₁) (h' : Learns site s₁ s₂) : Learns site s s₂ :=
  ⟨h.toAdvances.trans h'.toAdvances,
    fun x hx => (h'.tasks x (h.grows.keeps.hasTask hx)).trans (h.tasks x hx)⟩

theorem Extends.learns (h : Extends site s s₁) : Learns site s s₁ := ⟨h.advances, h.adds.task⟩

/-- A role is read as before. -/
theorem Advances.readRole (h : Advances site s s₁) (name : String) (selection : RoleSelection) :
    s₁.readRole site name selection = s.readRole site name selection := by
  rw [Store.readRole, Store.readRole, h.locate]

/-- Where the directories that are known are those of a search, a role is the one of the
documents. -/
theorem Faithful.readRole (h : Faithful site s) (name : String) (selection : RoleSelection) :
    s.readRole site name selection = site.readRole name selection := by
  rw [Store.readRole, Site.readRole, h.dirs]

theorem Faithful.readNamed (h : Faithful site s) (name : String) (selection : RoleSelection) :
    s.readNamed site name selection = site.readNamed name selection := by
  rw [Store.readNamed, Site.readNamed, h.dirs]

/-- The known dependencies of a role are the roles that its files name. -/
theorem Faithful.texts (h : Faithful site s) {r : RoleId} {ds : List RoleId}
    (hd : (s.graph.role r).directDependencies = some ds) : ∃ texts,
      site.readRoles (s.graph.roleHead r).dependencies = .ok texts ∧
      List.Forall₂ s.graph.ShowsRole ds texts := by
  obtain ⟨roles, hread, hshows⟩ := h.direct r ds hd
  refine ⟨roles.map (·.toRoleText), readRoles_of_named hread, ?_⟩
  rw [List.forall₂_map_right_iff]
  exact hshows.imp fun _ _ h => h.shows

end Runlist
