import Runlist.Proofs.Load.Role

/-!
# Loading playbooks

* `loadDefinitions_ends`: the roles that references name, each loaded from its files.
* `Graph.ShowsPlay`: a play is what a document declares.
* `loadPlaybook_ends`: **to load a playbook is to read it**, and to add what it declares.
-/

namespace Runlist

variable {site : Site} {s : Store}

/-- A role that was just loaded for a reference. -/
structure LoadedDefinition (site : Site) (s s' : Store) (play : Option PlayId) (d : RoleDefinition)
    (r : RoleId) : Prop where
  sound : s'.graph.Sound
  new : ¬ s.graph.HasRole r
  stands : s'.graph.Stands d.origin play r
  shows : ∃ role, s.readNamed site d.name .main = .ok role ∧ s'.graph.ShowsNamed r role

theorem LoadedDefinition.more {s' s'' : Store} {play : Option PlayId} {d : RoleDefinition}
    {r : RoleId} (he : Extends site s' s'') (h : LoadedDefinition site s s' play d r) :
    LoadedDefinition site s s'' play d r := by
  obtain ⟨role, hread, hshows⟩ := h.shows
  have hst := he.adds.grows.toStays
  exact ⟨he.sound h.sound, h.new, h.stands.keeps hst.keeps h.sound, role, hread,
    hshows.stays h.sound hst⟩

theorem LoadedDefinition.name {s' : Store} {play : Option PlayId} {d : RoleDefinition} {r : RoleId}
    (h : LoadedDefinition site s s' play d r) : (s'.graph.role r).name = d.name := by
  obtain ⟨role, hread, hshows⟩ := h.shows
  exact hshows.name.trans (Store.readNamed_name hread)

/-- **The roles that references name**, each loaded from its files. -/
theorem loadDefinitions_ends (hs : s.graph.Sound) {play : Option PlayId}
    (hp : ∀ p, play = some p → s.graph.HasPlay p) {definitions : List RoleDefinition}
    (hd : ∀ d ∈ definitions, s.graph.HasOrigin d.origin) :
    Ends (loadDefinitions site play definitions) s
      (fun rs s' => Extends site s s' ∧
        List.Forall₂ (LoadedDefinition site s s' play) definitions rs)
      fun e s' => Extends site s s' ∧
        (definitions.map (·.name)).mapM (s.readNamed site · .main) = .error e := by
  refine (Ends.mapM (R := Extends site) (P := fun d r s' => LoadedDefinition site s s' play d r)
    (F := fun d e => s.readNamed site d.name .main = .error e)
    Extends.refl Extends.trans LoadedDefinition.more fun d hmem s₁ h₁ =>
      ?_).mono (fun _ _ h => h) ?_
  · have ho : ∀ o', some d.origin = some o' → s₁.graph.HasOrigin o' := by
      rintro _ ⟨⟩; exact h₁.adds.keeps.hasOrigin (hd d hmem)
    refine (loadRoleWith_ends (h₁.sound hs) ho (fun p h => h₁.adds.keeps.hasPlay (hp p h)) d.name
      .main).mono ?_ ?_
    · rintro r s₂ ⟨hext, role, hread, h₂⟩
      rw [h₁.readNamed] at hread
      exact ⟨hext, hext.sound (h₁.sound hs), fun hr => h₂.new (h₁.adds.keeps.hasRole hr),
        ⟨h₂.has, h₂.origin, h₂.play⟩, role, hread, h₂.shows⟩
    · rintro e s₂ ⟨hext, hread⟩
      rw [h₁.readNamed] at hread
      exact ⟨hext, hread⟩
  · rintro e s' ⟨hext, front, d, back, rfl, ⟨rs, hrs⟩, hfail⟩
    refine ⟨hext, mapM_error_iff.2 ⟨front.map (·.name), d.name,
      back.map (·.name), by simp, ?_, hfail⟩⟩
    intro n hn
    obtain ⟨d', hd', rfl⟩ := List.mem_map.1 hn
    obtain ⟨r, -, hr⟩ := exists_right hrs hd'
    obtain ⟨role, hread, -⟩ := hr.shows
    exact ⟨role, hread⟩

/-- What the files of the loaded roles declare. -/
theorem loadedDefinition_roles {s' : Store} {play : Option PlayId} {ds : List RoleDefinition}
    {rs : List RoleId} (h : List.Forall₂ (LoadedDefinition site s s' play) ds rs) :
    ∃ roles, (ds.map (·.name)).mapM (s.readNamed site · .main) = .ok roles ∧
      List.Forall₂ s'.graph.ShowsNamed rs roles := by
  induction h with
  | nil => exact ⟨[], rfl, .nil⟩
  | cons hd _ ih =>
    obtain ⟨role, hread, hshows⟩ := hd.shows
    obtain ⟨roles, hreads, hall⟩ := ih
    refine ⟨role :: roles, ?_, .cons hshows hall⟩
    rw [List.map_cons, List.mapM_cons, hread, hreads]; rfl

/-! ## Plays -/

namespace Graph

variable {g g' : Graph}

/-- **A play is what a document declares**; `read` gives the roles of names. -/
structure ShowsPlay (g : Graph) (read : String → Except LoadError NamedRole) (path : FilePath)
    (p : PlayId) (d : PlayDeclaration) : Prop where
  has : g.HasPlay p
  place : (g.origin (g.play p).origin).bare = ⟨.play, path, d.range, d.name, none⟩
  vars : (g.play p).vars = d.vars
  varsFiles : (g.play p).varsFiles = d.varsFiles
  raw : (g.play p).raw = d.raw
  preTasks : g.ShowsAll path (g.play p).preTasks d.preTasks
  mainTasks : g.ShowsAll path (g.play p).mainTasks d.mainTasks
  postTasks : g.ShowsAll path (g.play p).postTasks d.postTasks
  roles : ∃ roles, (d.roles.map (·.name)).mapM read = .ok roles ∧
    List.Forall₂ g.ShowsNamed (g.play p).roles roles
  /-- The roles are in the places of their references. -/
  references :
      List.Forall₂ (fun r (ref : RoleReference) => g.trailOf (g.origin (g.role r).origin).parent =
    ⟨.roleDefinition, path, ref.range, some ref.name, none⟩ :: g.trail (g.play p).origin)
      (g.play p).roles d.roles

theorem ShowsPlay.path {read : String → Except LoadError NamedRole} {path : FilePath} {p : PlayId}
    {d : PlayDeclaration} (hp : g.ShowsPlay read path p d) :
    (g.origin (g.play p).origin).path = path :=
  congrArg Origin.path hp.place

theorem ShowsPlay.stays (hs : g.Sound) (h : g.Stays g') {read : String → Except LoadError NamedRole}
    {path : FilePath} {p : PlayId} {d : PlayDeclaration} (hp : g.ShowsPlay read path p d) :
    g'.ShowsPlay read path p d := by
  have he := h.play p hp.has
  have ho := (hs.plays p hp.has).origin
  obtain ⟨roles, hread, hroles⟩ := hp.roles
  constructor <;> (try rw [he])
  · exact h.keeps.hasPlay hp.has
  · rw [h.origin _ ho]; exact hp.place
  · exact hp.vars
  · exact hp.varsFiles
  · exact hp.raw
  · exact hp.preTasks.stays hs h
  · exact hp.mainTasks.stays hs h
  · exact hp.postTasks.stays hs h
  · exact ⟨roles, hread, hroles.imp fun _ _ hr => hr.stays hs h⟩
  · refine forall₂_mem hp.references fun r ref hr _ hrr => ?_
    obtain ⟨_, -, hst⟩ := (hs.plays p hp.has).roles r hr
    have hrole := hs.roles r hst.has
    rw [(h.keeps.role r hst.has).origin, h.origin _ hrole.origin, trail_keeps h.keeps ho,
      trailOf_keeps h.keeps fun o' => hs.origins.has hrole.origin]
    exact hrr

/-- A play may be filled with tasks and roles that are placed in it. -/
theorem Sound.fillPlay (hs : g.Sound) {p : PlayId} {f : Play → Play} (hp : g.HasPlay p)
    (horigin : (f (g.play p)).origin = (g.play p).origin)
    (hvars : (f (g.play p)).vars = (g.play p).vars)
    (htasks : ∀ x ∈ (f (g.play p)).tasks, g.Placed (some (g.play p).origin) none (some p) x)
    (hroles : ∀ r ∈ (f (g.play p)).roles, ∃ d, g.Inside .roleDefinition (g.play p).origin d ∧
      g.Stands d (some p) r) : (g.modifyPlay p f).Sound := by
  have k : g.Keeps (g.modifyPlay p f) := keeps_modifyPlay horigin
  have h := hs.plays p hp
  refine hs.modifyPlay horigin fun _ => ?_
  have he : (g.modifyPlay p f).play p = f (g.play p) := play_modifyPlay_self hp
  refine ⟨?_, ?_, fun q hq => ?_, fun x hx => ?_, fun r hr => ?_, ?_⟩
  · rw [he, horigin]; exact h.origin
  · rw [he, horigin]; exact h.kind
  · rw [k.play q (lt_trans hq hp), he, horigin]; exact h.order q hq
  · rw [he] at hx ⊢
    rw [horigin]; exact (htasks x hx).keeps k hs
  · rw [he] at hr ⊢
    rw [horigin]
    obtain ⟨d, hd, hst⟩ := hroles r hr
    exact ⟨d, hd.keeps k, hst.keeps k hs⟩
  · rw [he, hvars]; exact h.vars

end Graph

/-- A play that was just loaded. -/
structure LoadedPlay (site : Site) (s s' : Store) (o : Option OriginId) (path : FilePath)
    (d : PlayDeclaration) (p : PlayId) : Prop where
  sound : s'.graph.Sound
  new : ¬ s.graph.HasPlay p
  origin : (s'.graph.origin (s'.graph.play p).origin).parent = o
  shows : s'.graph.ShowsPlay (s.readNamed site · .main) path p d

theorem LoadedPlay.more {s' s'' : Store} {o : Option OriginId} {path : FilePath}
    {d : PlayDeclaration} {p : PlayId} (he : Extends site s' s'')
    (h : LoadedPlay site s s' o path d p) : LoadedPlay site s s'' o path d p where
  sound := he.sound h.sound
  new := h.new
  origin := by
    rw [he.adds.play p h.shows.has, he.adds.origin _ (h.sound.plays p h.shows.has).origin]
    exact h.origin
  shows := h.shows.stays h.sound he.adds.grows.toStays

/-- A play without its tasks and roles. -/
structure StampedPlay (site : Site) (s s' : Store) (o : Option OriginId) (path : FilePath)
    (d : PlayDeclaration) (p : PlayId) (around : OriginId) : Prop where
  ext : Extends site s s'
  new : ¬ s.graph.HasPlay p
  has : s'.graph.HasPlay p
  place : s'.graph.origin around = ⟨.play, path, d.range, d.name, o⟩
  play : s'.graph.play p = {
    name := d.name, hosts := d.hosts, roleDefinitions := [], preTasks := [], mainTasks := []
    postTasks := [], vars := d.vars, varsFiles := d.varsFiles, raw := d.raw, roles := []
    origin := around }

theorem StampedPlay.hasOrigin {s₁ : Store} {o : Option OriginId} {path : FilePath}
    {d : PlayDeclaration} {p : PlayId} {around : OriginId}
    (h : StampedPlay site s s₁ o path d p around) (hs₁ : s₁.graph.Sound) :
    s₁.graph.HasOrigin around := by
  have := (hs₁.plays p h.has).origin
  rw [h.play] at this; exact this

theorem stampPlay_ends (site : Site) (hs : s.graph.Sound) {o : Option OriginId}
    (ho : ∀ o', o = some o' → s.graph.HasOrigin o') {path : FilePath} {d : PlayDeclaration}
    (hd : d.Ordered) :
    Ends (Load.change fun g => g.stampPlay path o d) s
      (fun r s' => StampedPlay site s s' o path d r.1 r.2)
      fun _ _ => False := by
  have hs₁ := hs.addOrigin (o := ⟨.play, path, d.range, d.name, o⟩) ho
  have hself := Graph.origin_addOrigin_self (g := s.graph) ⟨.play, path, d.range, d.name, o⟩
  rw [ends_change, Graph.stampPlay]
  refine ⟨Store.Adds.extends_of_roles
    ⟨fun _ => hs₁.addPlay ⟨?_, ?_, fun q hq => ?_, rfl, rfl, hd.vars⟩,
    (Graph.adds_addOrigin _).trans (Graph.adds_addPlay _), fun _ => rfl⟩ rfl, lt_irrefl _,
    Graph.hasPlay_addPlay.2 (Or.inl rfl), hself,
    Graph.play_addPlay_self (g := (s.graph.addOrigin _).2) _⟩
  · exact Graph.hasOrigin_addOrigin.2 (Or.inl rfl)
  · exact congrArg Origin.kind hself
  · exact (hs.plays q hq).origin

/-- The references of a play become new origins inside it. -/
theorem stampReferences_ends (site : Site) (hs : s.graph.Sound) (path : FilePath)
    {around : OriginId} (ho : s.graph.HasOrigin around) (rs : List RoleReference) :
    Ends (Load.change fun g => g.stampReferences path around rs) s
      (fun definitions s' => Extends site s s' ∧
        List.Forall₂ (s'.graph.StampedReference path around) definitions rs) fun _ _ => False := by
  obtain ⟨⟨hs', hadds⟩, hstamped⟩ := Graph.stampReferences_spec hs path ho rs
  have hroles := Graph.roles_stampReferences s.graph path around rs
  rw [ends_change]
  exact ⟨Store.Adds.extends_of_roles ⟨fun _ => hs', hadds, fun _ => rfl⟩ hroles, hstamped⟩

/-- The play, put together after its tasks and roles are in the graph. -/
theorem StampedPlay.fill {s₁ s₂ : Store} {o : Option OriginId} {path : FilePath}
    {d : PlayDeclaration} {p : PlayId} {around : OriginId}
    (h : StampedPlay site s s₁ o path d p around) (hs₁ : s₁.graph.Sound) (h₂ : Extends site s₁ s₂)
    {preTasks mainTasks postTasks : List TaskId} {roleDefinitions : List RoleDefinition}
    {roles : List RoleId}
    (tasks : ∀ x ∈ preTasks ++ mainTasks ++ postTasks, s₂.graph.Placed (some around)
      none (some p) x)
    (stands : ∀ r ∈ roles, ∃ d, s₂.graph.Inside .roleDefinition around d ∧
      s₂.graph.Stands d (some p) r)
    (showPre : s₂.graph.ShowsAll path preTasks d.preTasks)
    (showMain : s₂.graph.ShowsAll path mainTasks d.mainTasks)
    (showPost : s₂.graph.ShowsAll path postTasks d.postTasks)
    (named : ∃ named, (d.roles.map (·.name)).mapM (s.readNamed site · .main) = .ok named ∧
      List.Forall₂ s₂.graph.ShowsNamed roles named)
    (references : List.Forall₂ (fun r (ref : RoleReference) =>
      s₂.graph.trailOf (s₂.graph.origin (s₂.graph.role r).origin).parent =
        ⟨.roleDefinition, path, ref.range, some ref.name, none⟩ :: s₂.graph.trail around)
          roles d.roles)
    {s₃ : Store}
    (hs₃ : s₃ = { s₂ with graph := s₂.graph.modifyPlay p fun p =>
      { p with preTasks, mainTasks, postTasks, roleDefinitions, roles } }) :
    Extends site s s₃ ∧ LoadedPlay site s s₃ o path d p := by
  have hhas := h₂.adds.keeps.hasPlay h.has
  have he : s₂.graph.play p = _ := (h₂.adds.play p h.has).trans h.play
  have hplace := (h₂.adds.origin _ (h.hasOrigin hs₁)).trans h.place
  have hsound : s₃.graph.Sound := by
    rw [hs₃]
    exact (h₂.sound hs₁).fillPlay hhas rfl rfl (by rw [he]; exact tasks) (by rw [he]; exact stands)
  have hplay : s₃.graph.play p = { s₂.graph.play p with
      preTasks, mainTasks, postTasks, roleDefinitions, roles } := by
    rw [hs₃]; exact Graph.play_modifyPlay_self hhas
  -- nothing but the play is changed
  have hts : s₃.graph.tasks = s₂.graph.tasks := by rw [hs₃]; rfl
  have hos : s₃.graph.origins = s₂.graph.origins := by rw [hs₃]; rfl
  have hrs : s₃.graph.roles = s₂.graph.roles := by rw [hs₃]; rfl
  have hext : Extends site s s₃ := by
    have h₂' := h.ext.trans h₂
    have hlocate : ∀ name, s₃.locate site name = s₂.locate site name := by
      rw [hs₃]; exact fun _ => rfl
    refine ⟨⟨fun _ => hsound, ?_, fun name => (hlocate name).trans (h₂'.locate name)⟩,
      fun hreal => (h₂'.real hreal).of_roles hrs hlocate⟩
    rw [hs₃]; exact (h.ext.adds.trans h₂.adds).modifyPlay h.new
  rw [he] at hplay
  have horigin : s₃.graph.origin around = ⟨.play, path, d.range, d.name, o⟩ := by
    rw [Graph.origin, hos]; exact hplace
  refine ⟨hext, hsound, h.new, ?_, ?_, ?_, ?_, ?_, ?_, ?_, ?_, ?_, ?_, ?_⟩
  · rw [hplay, horigin]
  · rw [hs₃]; exact Graph.hasPlay_modifyPlay.2 hhas
  · rw [hplay, horigin]; rfl
  · rw [hplay]
  · rw [hplay]
  · rw [hplay]
  · rw [hplay]; exact showPre.of_eq hts hos
  · rw [hplay]; exact showMain.of_eq hts hos
  · rw [hplay]; exact showPost.of_eq hts hos
  · obtain ⟨named, hread, hshows⟩ := named
    rw [hplay]
    exact ⟨named, hread, hshows.imp fun _ _ hr => hr.of_eq hts hos hrs⟩
  · rw [hplay]
    refine references.imp fun r ref hr => ?_
    rw [Graph.role, hrs, Graph.origin, hos, Graph.trailOf_of_origins hos,
      Graph.trail_of_origins hos]
    exact hr

/-- **A declared play becomes a new play** that shows it. -/
theorem loadPlay_ends (hs : s.graph.Sound) {o : Option OriginId}
    (ho : ∀ o', o = some o' → s.graph.HasOrigin o') {path : FilePath} {d : PlayDeclaration}
    (hd : d.Ordered) :
    Ends (loadPlay site path o d) s
      (fun p s' => Extends site s s' ∧ LoadedPlay site s s' o path d p)
      fun e s' => Extends site s s' ∧
      (d.roles.map (·.name)).mapM (s.readNamed site · .main) = .error e := by
  unfold loadPlay
  rw [ends_bind]
  refine (stampPlay_ends site hs ho hd).mono ?_ fun _ _ h => h.elim
  rintro ⟨p, around⟩ s₁ hplay
  simp only [ends_bind]
  have h₁ := hplay.ext
  have hs₁ := h₁.sound hs
  have horigin := hplay.hasOrigin hs₁
  have admits : ∀ {s'}, Extends site s₁ s' →
      s'.graph.Admits ⟨path, none, some p⟩ (some around) none := by
    intro s' h
    refine ⟨?_, ?_, ?_, ?_⟩
    · rintro _ ⟨⟩
    · rintro _ ⟨⟩; exact h.adds.keeps.hasPlay hplay.has
    · rintro _ ⟨⟩; exact h.adds.keeps.hasOrigin horigin
    · rintro _ ⟨⟩
  refine (stampTasks_ends site hs₁ (admits (.refl _)) hd.preTasks).mono ?_ fun _ _ h => h.elim
  rintro preTasks s₂ ⟨h₂, -, hpre, hshowPre⟩
  refine (stampTasks_ends site (h₂.sound hs₁) (admits h₂) hd.mainTasks).mono ?_ fun _ _ h => h.elim
  rintro mainTasks s₃ ⟨h₃, -, hmain, hshowMain⟩
  have h₁₃ := h₂.trans h₃
  refine (stampTasks_ends site (h₁₃.sound hs₁) (admits h₁₃) hd.postTasks).mono ?_
    fun _ _ h => h.elim
  rintro postTasks s₄ ⟨h₄, -, hpost, hshowPost⟩
  have h₁₄ := h₁₃.trans h₄
  refine (stampReferences_ends site (h₁₄.sound hs₁) path (h₁₄.adds.keeps.hasOrigin horigin)
    d.roles).mono ?_
    fun _ _ h => h.elim
  rintro definitions s₅ ⟨h₅, hdefinitions⟩
  have h₁₅ := h₁₄.trans h₅
  have hs₅ := h₁₅.sound hs₁
  have hp₅ : ∀ p', some p = some p' → s₅.graph.HasPlay p' := by
    rintro _ ⟨⟩; exact h₁₅.adds.keeps.hasPlay hplay.has
  have hd₅ : ∀ d ∈ definitions, s₅.graph.HasOrigin d.origin := by
    intro d hd
    obtain ⟨_, _, hd⟩ := exists_right hdefinitions hd
    exact hd.has
  have hnames : definitions.map (·.name) = d.roles.map (·.name) :=
    forall₂_map_eq (hdefinitions.imp fun _ _ h => h.name)
  -- a name means the same role as before, whatever was loaded since
  have hread : ∀ name, s₅.readNamed site name .main = s.readNamed site name .main :=
    fun name => (h₁.trans h₁₅).readNamed name .main
  refine (loadDefinitions_ends hs₅ hp₅ hd₅).mono ?_ ?_
  · rintro roles s₆ ⟨h₆, hroles⟩
    rw [ends_update]
    have h₄₆ := h₅.trans h₆
    have h₃₆ := h₄.trans h₄₆
    have h₂₆ := h₃.trans h₃₆
    have hs₆ := h₆.sound hs₅
    refine hplay.fill hs₁ (h₁₅.trans h₆) (fun x hx => ?_) (fun r hr => ?_) ?_ ?_ ?_ ?_ ?_ rfl
    · rcases List.mem_append.1 hx with hx | hx
      · rcases List.mem_append.1 hx with hx | hx
        · exact (hpre x hx).placed.keeps h₂₆.adds.keeps (h₂.sound hs₁)
        · exact (hmain x hx).placed.keeps h₃₆.adds.keeps (h₁₃.sound hs₁)
      · exact (hpost x hx).placed.keeps h₄₆.adds.keeps (h₁₄.sound hs₁)
    · obtain ⟨d, hmem, hloaded⟩ := exists_left hroles hr
      obtain ⟨_, _, hd⟩ := exists_right hdefinitions hmem
      exact ⟨d.origin, hd.inside.keeps h₆.adds.keeps, hloaded.stands⟩
    · exact hshowPre.stays (h₂.sound hs₁) h₂₆.adds.grows.toStays
    · exact hshowMain.stays (h₁₃.sound hs₁) h₃₆.adds.grows.toStays
    · exact hshowPost.stays (h₁₄.sound hs₁) h₄₆.adds.grows.toStays
    · obtain ⟨named, hnamed, hshows⟩ := loadedDefinition_roles hroles
      rw [hnames, funext hread] at hnamed
      exact ⟨named, hnamed, hshows⟩
    · refine forall₂_trans hroles.flip hdefinitions fun r d ref hr hd => ?_
      rw [hr.stands.origin]
      exact (hd.keeps h₆.adds.keeps).trail hs₆
  · rintro e s₆ ⟨h₆, hfail⟩
    rw [hnames, funext hread] at hfail
    exact ⟨(h₁.trans h₁₅).trans h₆, hfail⟩

/-! ## Playbooks -/

/-- **To load a playbook is to read it**, and to add what it declares. -/
theorem loadPlaybook_ends (hs : s.graph.Sound) {o : Option OriginId}
    (ho : ∀ o', o = some o' → s.graph.HasOrigin o') (path : FilePath) :
    Ends (loadPlaybook site o path) s
      (fun pb s' => Extends site s s' ∧ pb.path = path ∧ ∃ ds, site.readPlaybook path = .ok ds ∧
        List.Forall₂ (LoadedPlay site s s' o path) ds pb.plays)
      fun e s' => Extends site s s' ∧ (site.readPlaybook path >>= List.mapM fun d =>
        (d.roles.map (·.name)).mapM (s.readNamed site · .main)) = .error e := by
  unfold loadPlaybook readFile Site.readPlaybook
  rw [ends_bind]
  cases site.disk.read path with
  | error e => exact ⟨.refl s, rfl⟩
  | ok text =>
    simp only [ends_pure]
    cases hds : Declaration.ofText Declaration.playbook text with
    | error e =>
      rw [ends_bind, ends_note, ends_pure]
      exact ⟨extends_note s _, rfl, [], rfl, .nil⟩
    | ok ds =>
      rw [ends_bind]
      refine (Ends.mapM (R := Extends site) (P := fun d p s' => LoadedPlay site s s' o path d p)
        (F := fun d e => (d.roles.map (·.name)).mapM (s.readNamed site · .main) = .error e)
        Extends.refl Extends.trans LoadedPlay.more fun d hd s₁ h₁ => ?_).mono ?_ ?_
      · have ho₁ := fun o' h => h₁.adds.keeps.hasOrigin (ho o' h)
        have hread : (s₁.readNamed site · .main) = (s.readNamed site · .main) :=
          funext fun name => h₁.readNamed name .main
        refine (loadPlay_ends (h₁.sound hs) ho₁ (Declaration.ordered_playbook hds d hd)).mono ?_ ?_
        · rintro p s₂ ⟨h₂, hp⟩
          refine ⟨h₂, hp.sound, fun h => hp.new (h₁.adds.keeps.hasPlay h), hp.origin, ?_⟩
          rw [← hread]; exact hp.shows
        · rintro e s₂ ⟨h₂, hfail⟩
          rw [hread] at hfail
          exact ⟨h₂, hfail⟩
      · exact fun ps s' h => ⟨h.1, rfl, ds, rfl, h.2⟩
      · rintro e s' ⟨h, front, d, back, rfl, ⟨ps, hps⟩, hfail⟩
        refine ⟨h, mapM_error_iff.2 ⟨front, d, back, rfl, fun d' hd' => ?_, hfail⟩⟩
        obtain ⟨p, -, hp⟩ := exists_right hps hd'
        obtain ⟨roles, hroles, -⟩ := hp.shows.roles
        exact ⟨roles, hroles⟩

end Runlist
