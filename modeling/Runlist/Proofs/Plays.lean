import Runlist.Proofs.Forms
import Runlist.Proofs.Load.Added

/-!
# Plays that are loaded

To load a playbook fails for two reasons: its file is no text, or a role of one of its plays cannot
be loaded. A document that is no playbook gives none, and then nothing is added. This holds from any
state, sound or not.

* `Graph.PlantedSection`: the tasks of a section are what a mapping says, in the scope of the play.
* `RoleLoadedFor`: a role was loaded for a reference.
* `Graph.PlayFrom`, `AddedPlay`: a play was added, as a mapping says.
* `loadDefinitions_adds`, `loadPlay_adds`, `loadPlays_adds`: roles, a play and all plays are added
  in their order.
* `playbook_loaded`: **the three ways in which the loading of a playbook ends**.
-/

namespace Runlist

variable {site : Site} {s : Store} {o : Option OriginId} {path : FilePath}
  {entries : Fields} {p : PlayId}

/-! ## Sections and references -/

namespace Graph

variable {g₀ g₁ g g' : Graph} {around : OriginId}

/-- **New tasks are what the section of a mapping says**, in the scope of a play and of no role. -/
def PlantedSection (g₀ g : Graph) (path : FilePath) (p : PlayId) (around : OriginId)
    (entries : Fields) (key : String) (xs : List TaskId) : Prop :=
  ∃ items, taskMappings? (entries.get? key) = some items ∧
    g₀.Planted g ⟨path, none, some p⟩ around items xs

namespace PlantedSection

variable {key : String} {xs : List TaskId}

theorem adds (h : PlantedSection g₀ g path p around entries key xs) (hadds : g.Adds g') :
    PlantedSection g₀ g' path p around entries key xs := by
  obtain ⟨items, hitems, hplanted⟩ := h
  exact ⟨items, hitems, hplanted.adds hadds⟩

theorem since (h : PlantedSection g₁ g path p around entries key xs) (hadds : g₀.Adds g₁) :
    PlantedSection g₀ g path p around entries key xs := by
  obtain ⟨items, hitems, hplanted⟩ := h
  exact ⟨items, hitems, hplanted.since hadds⟩

theorem modifyPlay (h : PlantedSection g₀ g path p around entries key xs) (q : PlayId)
    (f : Play → Play) : PlantedSection g₀ (g.modifyPlay q f) path p around entries key xs := by
  obtain ⟨items, hitems, hplanted⟩ := h
  exact ⟨items, hitems, hplanted.of_eq rfl rfl⟩

end PlantedSection

/-- A reference of a play is what an item says. -/
structure DefinedBy (g : Graph) (path : FilePath) (around : OriginId) (d : RoleDefinition)
    (item : Json) : Prop where
  refers : Refers item d.name d.vars
  has : g.HasOrigin d.origin
  origin : ∃ range, g.origin d.origin = ⟨.roleDefinition, path, range, some d.name, some around⟩

theorem DefinedBy.adds {d : RoleDefinition} {item : Json} (h : g.DefinedBy path around d item)
    (hadds : g.Adds g') : g'.DefinedBy path around d item := by
  obtain ⟨range, horigin⟩ := h.origin
  exact ⟨h.refers, hadds.keeps.hasOrigin h.has, range, (hadds.origin _ h.has).trans horigin⟩

/-- The references of a play are defined by the items that they stand for. -/
theorem definedBy_stampReferences (g : Graph) (path : FilePath) (around : OriginId)
    {rs : List RoleReference} {items : List Json}
    (h : List.Forall₂ (fun (r : RoleReference) item => Refers item r.name r.vars) rs items) :
    List.Forall₂ ((g.stampReferences path around rs).2.DefinedBy path around)
      (g.stampReferences path around rs).1 items := by
  obtain ⟨-, hstamped⟩ := addsTasks_stampReferences g path around rs
  refine forall₂_trans (forall₂_both hstamped (vars_stampReferences g path around rs)) h ?_
  rintro d r item ⟨hd, hvars⟩ hrefers
  refine ⟨?_, hd.has, r.range, ?_⟩
  · rw [hd.name, hvars]; exact hrefers
  · rw [hd.origin, hd.name]

end Graph

/-! ## Roles of a play -/

/-- **A role was loaded for a reference of a play**: it is new, and it is what this loading made of
it. -/
structure RoleLoadedFor (site : Site) (g₀ g : Graph) (p : PlayId) (d : RoleDefinition)
    (r : RoleId) : Prop where
  new : ¬ g₀.HasRole r
  has : g.HasRole r
  name : (g.role r).name = d.name
  play : (g.role r).play = some p
  hasOrigin : g.HasOrigin (g.role r).origin
  parent : (g.origin (g.role r).origin).parent = some d.origin
  loaded : ∃ s₁ s₂, g₀.Adds s₁.graph ∧
      (loadRole site (some d.origin) (some p) d.name).run.run s₁ = (.ok r, s₂) ∧
      g.role r = s₂.graph.role r

theorem RoleLoadedFor.adds {g₀ g g' : Graph} {d : RoleDefinition} {r : RoleId}
    (h : RoleLoadedFor site g₀ g p d r) (hadds : g.Adds g') : RoleLoadedFor site g₀ g' p d r := by
  obtain ⟨s₁, s₂, h₁, hrun, hsame⟩ := h.loaded
  have hrole := hadds.role r h.has
  refine ⟨h.new, hadds.keeps.hasRole h.has, ?_, ?_, ?_, ?_, s₁, s₂, h₁, hrun, hrole.trans hsame⟩ <;>
    rw [hrole]
  · exact h.name
  · exact h.play
  · exact hadds.keeps.hasOrigin h.hasOrigin
  · rw [hadds.origin _ h.hasOrigin]; exact h.parent

theorem RoleLoadedFor.since {g₀ g₁ g : Graph} {d : RoleDefinition} {r : RoleId}
    (h : RoleLoadedFor site g₁ g p d r) (hadds : g₀.Adds g₁) : RoleLoadedFor site g₀ g p d r := by
  obtain ⟨s₁, s₂, h₁, hloaded⟩ := h.loaded
  exact { h with
    new := fun hhas => h.new (hadds.keeps.hasRole hhas)
    loaded := ⟨s₁, s₂, hadds.trans h₁, hloaded⟩ }

/-- The loading of a role of a play, by its name, failed and left a state. -/
def RoleFailed (site : Site) (s s' : Store) (name : String) (e : LoadError) : Prop :=
  ∃ o p s₁, s.graph.Adds s₁.graph ∧
    (loadRole site (some o) (some p) name).run.run s₁ = (.error e, s')

/-- A role is loaded for a reference, or its loading fails. -/
theorem loadDefinition_adds (site : Site) (p : PlayId) (d : RoleDefinition) (s : Store) :
    Ends (loadRole site (some d.origin) (some p) d.name) s
      (fun r s' => s.graph.Adds s'.graph ∧ s'.graph.plays = s.graph.plays ∧
        r = ⟨s.graph.roles.size⟩ ∧
        s'.graph.roles.size = s.graph.roles.size + 1 ∧ RoleLoadedFor site s.graph s'.graph p d r)
      fun e s' => s.graph.Adds s'.graph ∧ s'.graph.plays = s.graph.plays ∧
      RoleFailed site s s' d.name e := by
  refine ((loadRoleWith_adds site (some d.origin) (some p) d.name .main s).and (Ends.run _ s)).mono
    ?_ ?_
  · rintro r s' ⟨⟨rfl, dir, s₁, -, hadded, hs'⟩, hrun⟩
    have hgraph : s'.graph = s₁.graph := by rw [hs']; exact graph_addRoleDir s₁ d.name dir
    obtain ⟨tasks, defaults, vars, declared, hrole⟩ := hadded.role
    rw [hgraph]
    refine ⟨hadded.adds, hadded.plays, rfl, hadded.size, ?_⟩
    refine ⟨lt_irrefl _, hadded.has, ?_, ?_, ?_, ?_, s, s', .refl _, hrun, by rw [hgraph]⟩ <;>
      rw [hrole]
    · exact hadded.hasOrigin
    · rw [hadded.origin]
  · rintro e s' ⟨⟨hadds, -, hplays⟩, hrun⟩
    exact ⟨hadds, hplays, d.origin, p, s, .refl _, hrun⟩

/-- **The roles of references are added in their order**, up to the first that fails. -/
theorem loadDefinitions_adds (site : Site) (p : PlayId) (ds : List RoleDefinition) (s : Store) :
    Ends (loadDefinitions site (some p) ds) s
      (fun rs s' => s.graph.Adds s'.graph ∧ s'.graph.plays = s.graph.plays ∧
        rs.map (·.index) = List.range' s.graph.roles.size rs.length ∧
        List.Forall₂ (RoleLoadedFor site s.graph s'.graph p) ds rs)
      fun e s' => s.graph.Adds s'.graph ∧ s'.graph.plays = s.graph.plays ∧
      ∃ d ∈ ds, RoleFailed site s s' d.name e := by
  unfold loadDefinitions
  induction ds generalizing s with
  | nil =>
    rw [List.mapM_nil, ends_pure]
    exact ⟨.refl _, rfl, rfl, .nil⟩
  | cons d ds ih =>
    rw [List.mapM_cons, ends_bind]
    refine (loadDefinition_adds site p d s).mono ?_ ?_
    · rintro r s₁ ⟨h₁, hplays₁, hr, hsize, hfirst⟩
      rw [ends_bind]
      refine (ih s₁).mono ?_ ?_
      · rintro rs s₂ ⟨h₂, hplays₂, hindices, hothers⟩
        refine ⟨h₁.trans h₂, hplays₂.trans hplays₁, ?_,
          .cons (hfirst.adds h₂) (hothers.imp fun _ _ h => h.since h₁)⟩
        rw [List.map_cons, hindices, hr, hsize, List.length_cons, List.range'_succ]
      · rintro e s₂ ⟨h₂, hplays₂, d', hmem, o', p', s₃, h₃, hrun⟩
        exact ⟨h₁.trans h₂, hplays₂.trans hplays₁, d', List.mem_cons_of_mem _ hmem, o', p', s₃,
          h₁.trans h₃, hrun⟩
    · rintro e s₁ ⟨h₁, hplays₁, hfailed⟩
      exact ⟨h₁, hplays₁, d, List.mem_cons_self, hfailed⟩

/-! ## Plays -/

/-- **A play is what a mapping says**: its values, its three sections, its references, and beside
each reference a role that was loaded for it. The roles are loaded one after the other. -/
structure Graph.PlayFrom (site : Site) (g₀ g : Graph) (o : Option OriginId) (path : FilePath)
    (entries : Fields) (p : PlayId) (play : Play) : Prop where
  name : play.name = declaredName (entries.get? "name")
  hosts : play.hosts = joinedStrings (entries.get? "hosts")
  vars : play.vars = declaredVars (entries.get? "vars")
  varsFiles : listedStrings? (varsFilesOf entries) = some play.varsFiles
  raw : play.raw = entries
  hasOrigin : g.HasOrigin play.origin
  origin : ∃ range, g.origin play.origin =
      ⟨.play, path, range, declaredName (entries.get? "name"), o⟩
  preTasks : Graph.PlantedSection g₀ g path p play.origin entries "pre_tasks" play.preTasks
  mainTasks : Graph.PlantedSection g₀ g path p play.origin entries "tasks" play.mainTasks
  postTasks : Graph.PlantedSection g₀ g path p play.origin entries "post_tasks" play.postTasks
  definitions : ∃ items, taskMappings? (entries.get? "roles") = some items ∧
    List.Forall₂ (g.DefinedBy path play.origin) play.roleDefinitions items
  roles : List.Forall₂ (RoleLoadedFor site g₀ g p) play.roleDefinitions play.roles
  rolesInOrder : ∃ first, play.roles.map (·.index) = List.range' first play.roles.length

namespace Graph.PlayFrom

variable {g₀ g₁ g g' : Graph} {play : Play}

theorem adds (h : Graph.PlayFrom site g₀ g o path entries p play) (hadds : g.Adds g') :
    Graph.PlayFrom site g₀ g' o path entries p play := by
  obtain ⟨range, horigin⟩ := h.origin
  obtain ⟨items, hitems, hdefined⟩ := h.definitions
  exact { h with
    hasOrigin := hadds.keeps.hasOrigin h.hasOrigin
    origin := ⟨range, (hadds.origin _ h.hasOrigin).trans horigin⟩
    preTasks := h.preTasks.adds hadds
    mainTasks := h.mainTasks.adds hadds
    postTasks := h.postTasks.adds hadds
    definitions := ⟨items, hitems, hdefined.imp fun _ _ hd => hd.adds hadds⟩
    roles := h.roles.imp fun _ _ hr => hr.adds hadds }

theorem since (h : Graph.PlayFrom site g₁ g o path entries p play) (hadds : g₀.Adds g₁) :
    Graph.PlayFrom site g₀ g o path entries p play :=
  { h with
    preTasks := h.preTasks.since hadds
    mainTasks := h.mainTasks.since hadds
    postTasks := h.postTasks.since hadds
    roles := h.roles.imp fun _ _ hr => hr.since hadds }

/-- Whether the play is in the graph does not matter for what it is made of. -/
theorem modifyPlay (h : Graph.PlayFrom site g₀ g o path entries p play) (q : PlayId)
    (f : Play → Play) : Graph.PlayFrom site g₀ (g.modifyPlay q f) o path entries p play := by
  obtain ⟨items, hitems, hdefined⟩ := h.definitions
  exact { h with
    hasOrigin := h.hasOrigin
    origin := h.origin
    preTasks := h.preTasks.modifyPlay q f
    mainTasks := h.mainTasks.modifyPlay q f
    postTasks := h.postTasks.modifyPlay q f
    definitions := ⟨items, hitems, hdefined.imp fun _ _ hd => ⟨hd.refers, hd.has, hd.origin⟩⟩
    roles :=
      h.roles.imp fun _ _ hr =>
        ⟨hr.new, hr.has, hr.name, hr.play, hr.hasOrigin, hr.parent, hr.loaded⟩ }

end Graph.PlayFrom

/-- **A play was added**, as a mapping says. -/
structure AddedPlay (site : Site) (g₀ g : Graph) (o : Option OriginId) (path : FilePath)
    (entries : Fields) (p : PlayId) : Prop where
  new : ¬ g₀.HasPlay p
  has : g.HasPlay p
  source : Graph.PlayFrom site g₀ g o path entries p (g.play p)

namespace AddedPlay

variable {g₀ g₁ g g' : Graph}

theorem adds (h : AddedPlay site g₀ g o path entries p) (hadds : g.Adds g') :
    AddedPlay site g₀ g' o path entries p where
  new := h.new
  has := hadds.keeps.hasPlay h.has
  source := by rw [hadds.play p h.has]; exact h.source.adds hadds

theorem since (h : AddedPlay site g₁ g o path entries p) (hadds : g₀.Adds g₁) :
    AddedPlay site g₀ g o path entries p where
  new hhas := h.new (hadds.keeps.hasPlay hhas)
  has := h.has
  source := h.source.since hadds

end AddedPlay

/-- A new play, with its tasks, its references and its roles in the graph, is filled with them. -/
theorem addedPlay_fill {g₀ g : Graph} (hadds : g₀.Adds g) (new : ¬ g₀.HasPlay p) (has : g.HasPlay p)
    {f : Play → Play} (hfilled : Graph.PlayFrom site g₀ g o path entries p (f (g.play p))) :
    g₀.Adds (g.modifyPlay p f) ∧ AddedPlay site g₀ (g.modifyPlay p f) o path entries p := by
  refine ⟨hadds.modifyPlay new, new, Graph.hasPlay_modifyPlay.2 has, ?_⟩
  rw [Graph.play_modifyPlay_self has]
  exact hfilled.modifyPlay p f

/-- A play was added that is still without its tasks and roles. -/
structure BarePlay (g₀ g : Graph) (o : Option OriginId) (path : FilePath) (d : PlayDeclaration)
    (p : PlayId) (around : OriginId) : Prop where
  adds : g₀.Adds g
  index : p = ⟨g₀.plays.size⟩
  size : g.plays.size = g₀.plays.size + 1
  hasOrigin : g.HasOrigin around
  origin : g.origin around = ⟨.play, path, d.range, d.name, o⟩
  play : g.play p = {
    name := d.name, hosts := d.hosts, roleDefinitions := [], preTasks := [], mainTasks := []
    postTasks := [], vars := d.vars, varsFiles := d.varsFiles, raw := d.raw, roles := []
    origin := around }

theorem stampPlay_adds (o : Option OriginId) (path : FilePath) (d : PlayDeclaration) (s : Store) :
    Ends (Load.change fun g => g.stampPlay path o d) s
      (fun r s' => BarePlay s.graph s'.graph o path d r.1 r.2) fun _ _ => False := by
  rw [ends_change]
  exact {
    adds := (Graph.adds_addOrigin _).trans (Graph.adds_addPlay _)
    index := rfl
    size := Array.size_push _
    hasOrigin := Graph.hasOrigin_addOrigin.2 (.inl rfl)
    origin := Graph.origin_addOrigin_self _
    play := Graph.play_addPlay_self _ }

theorem stampSection_adds {ds : List TaskDeclaration} {key : String}
    (h : DeclaresSection ds entries key) (path : FilePath) (p : PlayId) (around : OriginId)
    (s : Store) :
    Ends (Load.change fun g => g.stampTasks ⟨path, none, some p⟩ (some around) none ds) s
      (fun xs s' => s.graph.AddsTasks s'.graph ∧
        Graph.PlantedSection s.graph s'.graph path p around entries key xs)
      fun _ _ => False :=
  by
  obtain ⟨items, hitems, hdeclares⟩ := h
  exact ends_change.2 ⟨Graph.addsTasks_stampTasks _ _ _ _ ds, items, hitems,
    Graph.planted_stampTasks hdeclares s.graph _ around⟩

theorem stampDefinitions_adds {rs : List RoleReference} {items : List Json}
    (h : List.Forall₂ (fun (r : RoleReference) item => Refers item r.name r.vars) rs items)
    (path : FilePath) (around : OriginId) (s : Store) :
    Ends (Load.change fun g => g.stampReferences path around rs) s
      (fun ds s' => s.graph.AddsTasks s'.graph ∧
        List.Forall₂ (s'.graph.DefinedBy path around) ds items)
      fun _ _ => False :=
  ends_change.2 ⟨(Graph.addsTasks_stampReferences _ path around rs).1,
    Graph.definedBy_stampReferences s.graph path around h⟩

/-- A mapping names a role in its list of roles. -/
def NamesRole (entries : Fields) (name : String) : Prop :=
  ∃ items item vars, taskMappings? (entries.get? "roles") = some items ∧ item ∈ items ∧
    Refers item name vars

/-- **A declared play is added**, or a role that it names cannot be loaded. -/
theorem loadPlay_adds {d : PlayDeclaration} (hd : DeclaresPlay d entries) (site : Site)
    (o : Option OriginId) (path : FilePath) (s : Store) :
    Ends (loadPlay site path o d) s
      (fun p s' => s.graph.Adds s'.graph ∧ p = ⟨s.graph.plays.size⟩ ∧
        s'.graph.plays.size = s.graph.plays.size + 1 ∧
        AddedPlay site s.graph s'.graph o path entries p)
      fun e s' => s.graph.Adds s'.graph ∧ ∃ name, NamesRole entries name ∧
      RoleFailed site s s' name e := by
  obtain ⟨items, hitems, hrefer⟩ := hd.roles
  unfold loadPlay
  rw [ends_bind]
  refine (stampPlay_adds o path d s).mono ?_ fun _ _ h => h.elim
  rintro ⟨p, around⟩ s₁ (hplay : BarePlay s.graph s₁.graph o path d p around)
  simp only [ends_bind]
  refine (stampSection_adds hd.preTasks path p around s₁).mono ?_ fun _ _ h => h.elim
  rintro preTasks s₂ ⟨h₂, hpre⟩
  refine (stampSection_adds hd.mainTasks path p around s₂).mono ?_ fun _ _ h => h.elim
  rintro mainTasks s₃ ⟨h₃, hmain⟩
  refine (stampSection_adds hd.postTasks path p around s₃).mono ?_ fun _ _ h => h.elim
  rintro postTasks s₄ ⟨h₄, hpost⟩
  refine (stampDefinitions_adds hrefer path around s₄).mono ?_ fun _ _ h => h.elim
  rintro definitions s₅ ⟨h₅, hdefined⟩
  -- the sections and references only add tasks and origins, the roles add to the graph whatever
  -- they need
  have h₁₂ := hplay.adds.trans h₂.toAdds
  have h₁₃ := h₁₂.trans h₃.toAdds
  have h₁₅ := h₁₃.trans (h₄.trans h₅).toAdds
  have hplays₅ : s₅.graph.plays = s₁.graph.plays := (h₂.trans (h₃.trans (h₄.trans h₅))).plays_eq
  refine (loadDefinitions_adds site p definitions s₅).mono ?_ ?_
  · rintro roles s₆ ⟨h₆, hplays₆, hindices, hroles⟩
    rw [ends_update, ends_pure]
    have hadds := h₁₅.trans h₆
    have h₃₆ := h₄.toAdds.trans (h₅.toAdds.trans h₆)
    have hsize : s₆.graph.plays.size = s.graph.plays.size + 1 := by
      rw [hplays₆, hplays₅, hplay.size]
    have hnew : ¬ s.graph.HasPlay p := by rw [hplay.index]; exact lt_irrefl _
    have hhas : s₆.graph.HasPlay p := by
      rw [hplay.index, Graph.HasPlay, hsize]; exact Nat.lt_succ_self _
    -- nothing has touched the new play before it is filled
    have hbare : s₆.graph.play p = s₁.graph.play p := by
      rw [Graph.play, Graph.play, hplays₆, hplays₅]
    have h₁₆ := (h₂.trans (h₃.trans (h₄.trans h₅))).toAdds.trans h₆
    rw [hplay.play] at hbare
    have hfilled : Graph.PlayFrom site s.graph s₆.graph o path entries p
        { s₆.graph.play p with
          preTasks, mainTasks, postTasks, roleDefinitions := definitions, roles } := by
      rw [hbare]
      exact {
        name := hd.name
        hosts := hd.hosts
        vars := hd.vars
        varsFiles := hd.varsFiles
        raw := hd.raw
        hasOrigin := h₁₆.keeps.hasOrigin hplay.hasOrigin
        origin := ⟨d.range, by rw [h₁₆.origin _ hplay.hasOrigin, hplay.origin, hd.name]⟩
        preTasks := (hpre.adds (h₃.toAdds.trans h₃₆)).since hplay.adds
        mainTasks := (hmain.adds h₃₆).since h₁₂
        postTasks := (hpost.adds (h₅.toAdds.trans h₆)).since h₁₃
        definitions := ⟨items, hitems, hdefined.imp fun _ _ h => h.adds h₆⟩
        roles := hroles.imp fun _ _ h => h.since h₁₅
        rolesInOrder := ⟨_, hindices⟩ }
    obtain ⟨hfinal, hadded⟩ := addedPlay_fill hadds hnew hhas
      (f := fun play =>
        { play with preTasks, mainTasks, postTasks, roleDefinitions := definitions, roles }) hfilled
    refine ⟨hfinal, hplay.index, ?_, hadded⟩
    simp only [Graph.modifyPlay, Array.size_modify]
    exact hsize
  · rintro e s₆ ⟨h₆, -, definition, hmem, o', p', s', h', hrun⟩
    obtain ⟨item, hitem, hdefinition⟩ := exists_right hdefined hmem
    exact ⟨h₁₅.trans h₆, definition.name, ⟨items, item, _, hitems, hitem, hdefinition.refers⟩, o',
      p', s', h₁₅.trans h', hrun⟩

/-! ## Playbooks -/

/-- **Declared plays are added in their order**, up to the first with a role that cannot be
loaded. -/
theorem loadPlays_adds {ds : List PlayDeclaration} {plays : List Fields}
    (h : List.Forall₂ DeclaresPlay ds plays) (site : Site) (o : Option OriginId) (path : FilePath)
    (s : Store) :
    Ends (ds.mapM (loadPlay site path o)) s
      (fun ps s' => s.graph.Adds s'.graph ∧
        ps.map (·.index) = List.range' s.graph.plays.size plays.length ∧
        List.Forall₂ (AddedPlay site s.graph s'.graph o path) plays ps)
      fun e s' => s.graph.Adds s'.graph ∧ ∃ entries name, entries ∈ plays ∧ NamesRole entries name ∧
        RoleFailed site s s' name e := by
  induction h generalizing s with
  | nil =>
    rw [List.mapM_nil, ends_pure]
    exact ⟨.refl _, rfl, .nil⟩
  | @cons d entries ds plays hd _ ih =>
    rw [List.mapM_cons, ends_bind]
    refine (loadPlay_adds hd site o path s).mono ?_ ?_
    · rintro p s₁ ⟨h₁, hp, hsize, hfirst⟩
      rw [ends_bind]
      refine (ih s₁).mono ?_ ?_
      · rintro ps s₂ ⟨h₂, hindices, hothers⟩
        refine ⟨h₁.trans h₂, ?_, .cons (hfirst.adds h₂) (hothers.imp fun _ _ h => h.since h₁)⟩
        rw [List.map_cons, hindices, hp, hsize, List.length_cons, List.range'_succ]
      · rintro e s₂ ⟨h₂, entries', name, hmem, hnames, o', p', s₃, h₃, hrun⟩
        exact ⟨h₁.trans h₂, entries', name, List.mem_cons_of_mem _ hmem, hnames, o', p', s₃,
          h₁.trans h₃, hrun⟩
    · rintro e s₁ ⟨h₁, name, hnames, hfailed⟩
      exact ⟨h₁, entries, name, List.mem_cons_self, hnames, hfailed⟩

/-- **The three ways in which the loading of a playbook ends**, from any state. The file is no text:
then it fails, and the state is as before. The text is not a list of well-formed plays: then the
playbook is empty, and the state is as before but for a notice. Or else there is a new play for each
of the plays, in their order and as its mapping says, unless the loading of a role fails that one of
them names. -/
theorem playbook_loaded (site : Site) (o : Option OriginId) (path : FilePath) (s : Store) :
    (∃ e, site.disk.read path = .error e ∧
      (loadPlaybook site o path).run.run s = (.error (.io path e), s)) ∨
    (∃ text e, site.disk.read path = .ok text ∧ (∀ plays, ¬ PlaybookText text plays) ∧
      (loadPlaybook site o path).run.run s =
        (.ok ⟨path, []⟩, { s with notices := s.notices ++ [.notPlaybook path e] })) ∨
    ∃ text plays, site.disk.read path = .ok text ∧ PlaybookText text plays ∧
      Ends (loadPlaybook site o path) s
        (fun pb s' => pb.path = path ∧ s.graph.Adds s'.graph ∧
          pb.plays.map (·.index) = List.range' s.graph.plays.size plays.length ∧
          List.Forall₂ (AddedPlay site s.graph s'.graph o path) plays pb.plays)
        fun e s' => s.graph.Adds s'.graph ∧ ∃ entries name, entries ∈ plays ∧
        NamesRole entries name ∧
          RoleFailed site s s' name e := by
  cases hread : site.disk.read path with
  | error e =>
    refine .inl ⟨e, rfl, ?_⟩
    have hfile : readFile site path = throw (.io path e) := by unfold readFile; rw [hread]
    unfold loadPlaybook
    rw [run_bind, hfile]
    rfl
  | ok text =>
    have hfile : readFile site path = pure text := by unfold readFile; rw [hread]
    cases hds : Declaration.ofText Declaration.playbook text with
    | error e =>
      refine .inr (.inl ⟨text, e, rfl, fun plays hplays => ?_, ?_⟩)
      · -- a list of well-formed plays would have been read
        obtain ⟨ds, hok⟩ := Declaration.playbook_form hplays
        rw [hds] at hok
        cases hok
      · have hpure : (pure text : Load String).run.run s = (.ok text, s) := rfl
        unfold loadPlaybook
        rw [run_bind, hfile, hpure]
        simp only [hds]
        rfl
    | ok ds =>
      obtain ⟨plays, htext, hdeclares⟩ := Declaration.playbook_ok hds
      refine .inr (.inr ⟨text, plays, rfl, htext, ?_⟩)
      unfold loadPlaybook
      rw [hfile, ends_bind, ends_pure]
      simp only [hds]
      rw [ends_bind]
      exact (loadPlays_adds hdeclares site o path s).mono (fun ps s' h => ⟨rfl, h⟩) fun _ _ h => h

end Runlist
