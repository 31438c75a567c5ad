import Runlist.Proofs.Expand.Steps
import Runlist.Proofs.Reach

/-!
# Expansion gives the leaves of the documents

Where a state remembers what the documents say, the expansion of an entity that shows an item of the
documents gives the leaves of that item.

* `Graph.leaf`: what is seen of a task in the result.
* `Yields`: a step only goes on, and gives the leaves of some items.
* `expandTask_yields`, `expandRoleOn_yields`: **tasks and roles give the leaves of what they show.**
* `expandPlay_yields`, `expandPlaybook_yields`: the same of plays and playbooks.
-/

namespace Runlist

variable {site : Site} {t : Templater} {e : Expansion} {x c : TaskId} {r d : RoleId} {p : PlayId}

namespace Graph

variable {g g' : Graph}

/-- What is seen of a task in the result of an expansion. -/
def leaf (g : Graph) (x : TaskId) : Leaf := ⟨g.taskPath x, (g.task x).name, (g.task x).raw⟩

theorem leaf_stays (hs : g.Sound) (h : g.Stays g') (hx : g.HasTask x) : g'.leaf x = g.leaf x := by
  have hsame := (h.task x hx).same
  rw [leaf, leaf, taskPath, taskPath, (h.keeps.task x hx).origin,
    h.origin _ (hs.tasks x hx).origin, hsame]

theorem Shows.fields {path : FilePath} {d : TaskDeclaration} (h : g.Shows path x d) :
    g.taskPath x = path ∧ (g.task x).vars = d.vars ∧ (g.task x).raw = d.raw ∧
      g.ShowsAll path (g.task x).block d.block := by
  obtain ⟨range, name, vars, raw, block⟩ := d
  obtain ⟨-, hplace, -, hvars, hraw, hblock⟩ := h
  exact ⟨congrArg Origin.path hplace, hvars, hraw, hblock⟩

theorem Shows.leaf {path : FilePath} {d : TaskDeclaration} (h : g.Shows path x d) :
    g.leaf x = ⟨path, d.name, d.raw⟩ := by
  obtain ⟨range, name, vars, raw, block⟩ := d
  obtain ⟨-, hplace, hname, -, hraw, -⟩ := h
  have hpath : g.taskPath x = path := congrArg Origin.path hplace
  rw [Graph.leaf, hpath, hname, hraw]

/-- To be adopted changes nothing that is seen. -/
theorem leaf_adopt (g : Graph) (ids : List TaskId) (directive x : TaskId) :
    (g.adopt ids directive).leaf x = g.leaf x ∧
    ((g.adopt ids directive).HasTask x ↔ g.HasTask x) := by
  induction ids generalizing g with
  | nil => exact ⟨rfl, Iff.rfl⟩
  | cons y ids ih =>
    obtain ⟨hleaf, hhas⟩ := ih (g.adoptOne directive y)
    have hone : (g.adoptOne directive y).leaf x = g.leaf x ∧
        ((g.adoptOne directive y).HasTask x ↔ g.HasTask x) := by
      unfold adoptOne
      simp only
      split
      · refine ⟨?_, hasTask_modifyTask⟩
        rw [Graph.leaf, Graph.leaf, taskPath, taskPath, task_modifyTask]
        split
        · rename_i h
          rw [h.1]; rfl
        · rfl
      · exact ⟨rfl, Iff.rfl⟩
    exact ⟨hleaf.trans hone.1, hhas.trans hone.2⟩

end Graph

/-! ## What entities show -/

/-- What can be expanded. -/
inductive Entity where
  | task (x : TaskId)
  | role (r : RoleId)
  | play (p : PlayId)
  | playbook (pb : Playbook)

/-- The expansion of an entity. -/
def Entity.expand (site : Site) (t : Templater) (n : Nat) : Entity → Expand (List TaskId)
  | task x => expandTask site t n x
  | role r => expandRole site t n r
  | play p => expandPlay site t n p
  | playbook pb => expandPlaybook site t n pb

namespace Graph

variable {g g' : Graph}

/-- **An entity shows an item of the documents**: what it declares, and where it stands. -/
inductive Denotes (site : Site) (g : Graph) : Entity → Item → Prop
  | task {path : FilePath} {x : TaskId} {d : TaskDeclaration} : g.Shows path x d →
      Denotes site g (.task x) (.task (g.scope x) path d)
  | role {r : RoleId} {text : RoleText} : g.ShowsRole r text →
      Denotes site g (.role r) (.role ((g.role r).play.map g.playHead) (g.listed r) text)
  | play {path : FilePath} {p : PlayId} {d : PlayDeclaration} :
      g.ShowsPlay (site.readNamed · .main) path p d → Denotes site g (.play p) (.play path d)
  | playbook {pb : Playbook} {ds : List PlayDeclaration} :
      List.Forall₂ (g.ShowsPlay (site.readNamed · .main) pb.path) pb.plays ds →
      Denotes site g (.playbook pb) (.playbook pb.path ds)

theorem Denotes.hasRole {item : Item} (h : g.Denotes site (.role r) item) : g.HasRole r := by
  cases h with
  | role hr => exact hr.has

theorem playHeads_stays (hs : g.Sound) (h : g.Stays g') {play : Option PlayId}
    (hp : ∀ p, play = some p → g.HasPlay p) : play.map g'.playHead = play.map g.playHead := by
  cases play with
  | none => rfl
  | some p => exact congrArg some (playHead_stays hs h (hp p rfl))

theorem Denotes.stays (hs : g.Sound) (h : g.Stays g') {a : Entity} {item : Item}
    (ha : g.Denotes site a item) : g'.Denotes site a item := by
  cases ha with
  | task hx => rw [← scope_stays hs h hx.has]; exact .task (hx.stays hs h)
  | @role r text hr =>
    have hplay : (g'.role r).play.map g'.playHead = (g.role r).play.map g.playHead := by
      rw [(h.keeps.role r hr.has).play]
      exact playHeads_stays hs h (hs.roles r hr.has).play
    rw [← hplay, ← listed_stays hs h hr.has]
    exact .role (hr.stays hs h)
  | play hp => exact .play (hp.stays hs h)
  | playbook hps => exact .playbook (hps.imp fun _ _ hp => hp.stays hs h)

/-! ## Where entities stand -/

/-- A task inside another one stands where that stands. -/
theorem Placed.scope {o : Option OriginId} (h : g.Placed o (g.task x).role (g.task x).play c) :
    g.scope c = g.scope x := by
  rw [Graph.scope, Graph.scope, taskPlay, taskPlay, h.role, h.play]

/-- A task of a role stands in the role. -/
theorem Placed.scope_role {o : Option OriginId} {p : Option PlayId} (h : g.Placed o (some r) p c) :
    g.scope c = ⟨(g.role r).play.map g.playHead, some (g.roleHead r), g.listed r⟩ := by
  rw [Graph.scope, taskPlay, h.role]; rfl

/-- A task of a play stands in the play. -/
theorem Placed.scope_play {o : Option OriginId} (h : g.Placed o none (some p) c) :
    g.scope c = ⟨some (g.playHead p), none, false⟩ := by
  rw [Graph.scope, taskPlay, h.role, h.play]; rfl

/-- A dependency is none of its play's own roles. -/
theorem Sound.listed_depends (hs : g.Sound) (h : g.Depends r d) : g.listed d = false := by
  rw [listed]
  cases hp : (g.role d).play with
  | none => rfl
  | some p =>
    have hhas := (hs.roles d (hs.hasRole_depends h).2).play p hp
    simp only [List.contains_eq_mem, decide_eq_false_iff_not]
    exact fun hmem => hs.not_depends_playRole hhas hmem r h

/-- A role that is new since its play was put together is none of the play's own. -/
theorem listed_new (hs : g.Sound) (h : g.Stays g') (hnew : ¬ g.HasRole r)
    (hp : ∀ p, (g'.role r).play = some p → g.HasPlay p) : g'.listed r = false := by
  rw [listed]
  cases hplay : (g'.role r).play with
  | none => rfl
  | some p =>
    simp only [h.play p (hp p hplay), List.contains_eq_mem, decide_eq_false_iff_not]
    intro hmem
    obtain ⟨_, -, hst⟩ := (hs.plays p (hp p hplay)).roles r hmem
    exact hnew hst.has

/-- The roles of a play are its own. -/
theorem SoundPlay.listed (h : g.SoundPlay p) (hr : r ∈ (g.play p).roles) :
    (g.role r).play = some p ∧ g.listed r = true := by
  obtain ⟨_, -, hst⟩ := h.roles r hr
  refine ⟨hst.play, ?_⟩
  rw [Graph.listed, hst.play]
  simp only [List.contains_eq_mem, decide_eq_true_eq]
  exact hr

/-! ## Parts of entities -/

/-- The block of a task that shows a declaration is that of the declaration. -/
theorem Shows.isBlock {path : FilePath} {decl : TaskDeclaration} (h : g.Shows path x decl) :
    (g.task x).isBlock = true ↔ decl.block ≠ [] := by
  obtain ⟨-, -, -, hblock⟩ := h.fields
  have hlength := (showsAll_iff.1 hblock).length_eq
  rw [Task.isBlock, ← List.length_pos_iff, ← hlength]
  cases (g.task x).block <;> simp

/-- The tasks of a block. -/
theorem Shows.block_denotes (site : Site) (hs : g.Sound) {path : FilePath} {decl : TaskDeclaration}
    (hx : g.Shows path x decl) :
    List.Forall₂ (fun c item => g.Denotes site (.task c) item) (g.task x).block
      (decl.block.map (.task (g.scope x) path)) := by
  obtain ⟨-, -, -, hblock⟩ := hx.fields
  rw [List.forall₂_map_right_iff]
  refine forall₂_mem (showsAll_iff.1 hblock) fun c d hc _ h => ?_
  rw [← ((hs.tasks x hx.has).block c hc).2.scope]; exact .task h

/-- The tasks of a role. -/
theorem ShowsRole.tasks_denote (site : Site) (hs : g.Sound) {text : RoleText}
    (hr : g.ShowsRole r text) :
    List.Forall₂ (fun c item => g.Denotes site (.task c) item) (g.role r).tasks
      (text.tasks.map fun (path, d) =>
        .task ⟨(g.role r).play.map g.playHead, some text.toRoleHead, g.listed r⟩ path d) := by
  rw [List.forall₂_map_right_iff]
  refine forall₂_mem hr.tasks fun c d hc _ h => ?_
  rw [← hr.head, ← ((hs.roles r hr.has).tasks c hc).scope_role]; exact .task h

/-- The dependencies of a role. -/
theorem depends_denote (site : Site) (hs : g.Sound) {ds : List RoleId} {texts : List RoleText}
    (hd : (g.role r).directDependencies = some ds) (hshows : List.Forall₂ g.ShowsRole ds texts) :
    List.Forall₂ (fun d item => g.Denotes site (.role d) item) ds
      (texts.map (.role ((g.role r).play.map g.playHead) false)) := by
  rw [List.forall₂_map_right_iff]
  refine forall₂_mem hshows fun d text hmem _ h => ?_
  have hdep : g.Depends r d := ⟨ds, hd, hmem⟩
  rw [← hs.play_depends hdep, ← hs.listed_depends hdep]; exact .role h

/-- The tasks of a play. -/
theorem ShowsPlay.tasks_denote (hs : g.Sound) {path : FilePath} {d : PlayDeclaration}
    (hp : g.ShowsPlay (site.readNamed · .main) path p d) :
    List.Forall₂ (fun c item => g.Denotes site (.task c) item) (g.play p).tasks
      ((d.preTasks ++ d.mainTasks ++ d.postTasks).map
        (.task ⟨some (g.playHead p), none, false⟩ path)) := by
  rw [List.forall₂_map_right_iff]
  have hshows :=
    List.rel_append (List.rel_append (showsAll_iff.1 hp.preTasks) (showsAll_iff.1 hp.mainTasks))
    (showsAll_iff.1 hp.postTasks)
  refine forall₂_mem hshows fun c d hc _ h => ?_
  rw [← ((hs.plays p hp.has).tasks c hc).scope_play]; exact .task h

/-- The roles of a play. -/
theorem ShowsPlay.roles_denote (hs : g.Sound) {path : FilePath} {d : PlayDeclaration}
    (hp : g.ShowsPlay (site.readNamed · .main) path p d) : ∃ texts,
      site.readRoles (d.roles.map (·.name)) = .ok texts ∧
      g.playHead p = ⟨path, d.vars, d.varsFiles, texts.map (·.toRoleHead)⟩ ∧
      List.Forall₂ (fun r item => g.Denotes site (.role r) item) (g.play p).roles
        (texts.map (.role (some (g.playHead p)) true)) := by
  obtain ⟨roles, hread, hnamed⟩ := hp.roles
  have hshows : List.Forall₂ g.ShowsRole (g.play p).roles (roles.map (·.toRoleText)) := by
    rw [List.forall₂_map_right_iff]; exact hnamed.imp fun _ _ h => h.shows
  refine ⟨roles.map (·.toRoleText), readRoles_of_named hread, ?_, ?_⟩
  · rw [playHead, hp.path, hp.vars, hp.varsFiles, forall₂_map_eq (hshows.imp fun _ _ h => h.head)]
  · rw [List.forall₂_map_right_iff]
    refine forall₂_mem hshows fun r text hr _ h => ?_
    obtain ⟨hplay, hlisted⟩ := (hs.plays p hp.has).listed hr
    have hrole : g.Denotes site (.role r) _ := .role h
    rw [hplay, hlisted] at hrole; exact hrole

end Graph

/-- A playbook that was just loaded shows what its file declares. -/
theorem Graph.denotes_loaded {s s₁ : Store} (hf : Faithful site s) {o : Option OriginId}
    {path : FilePath} {pb : Playbook} {ds : List PlayDeclaration} (hpath : pb.path = path)
    (hloaded : List.Forall₂ (LoadedPlay site s s₁ o path) ds pb.plays) :
    s₁.graph.Denotes site (.playbook pb) (.playbook path ds) := by
  subst hpath
  refine .playbook (List.Forall₂.flip (hloaded.imp fun d q hq => ?_))
  rw [← funext fun name => hf.readNamed name .main]; exact hq.shows

/-! ## Steps -/

/-- **A step only goes on**, and gives the leaves of some items. -/
def Yields (site : Site) (t : Templater) (step : Expand (List TaskId)) (e : Expansion)
    (items : List Item) : Prop :=
  Ends step e (fun ids e' => Advances site e.store e'.store ∧
    (∀ x ∈ ids, e'.store.graph.HasTask x) ∧
    Expands site t items (ids.map e'.store.graph.leaf)) fun _ e' => Advances site e.store e'.store

/-- Two steps give the leaves of the items of both. -/
theorem Yields.append {step step' : Expand (List TaskId)} {items items' : List Item}
    (hs : e.store.graph.Sound) (hf : Faithful site e.store) (h : Yields site t step e items)
    (h' : ∀ e₁ : Expansion, e₁.store.graph.Sound → Faithful site e₁.store →
      Advances site e.store e₁.store →
      Yields site t step' e₁ items') :
    Yields site t (do return (← step) ++ (← step')) e (items ++ items') := by
  unfold Yields
  simp only [ends_bind, ends_pure]
  refine h.mono ?_ fun _ _ h => h
  rintro ids e₁ ⟨h₁, hhas₁, hfirst⟩
  have hs₁ := h₁.sound hs
  refine (h' e₁ hs₁ (h₁.faithful hs hf) h₁).mono ?_ fun _ _ h => h₁.trans h
  rintro others e₂ ⟨h₂, hhas₂, hothers⟩
  refine ⟨h₁.trans h₂, fun x hx => ?_, ?_⟩
  · rcases List.mem_append.1 hx with hx | hx
    · exact h₂.grows.keeps.hasTask (hhas₁ x hx)
    · exact hhas₂ x hx
  · rw [List.map_append]
    rw [← List.map_congr_left fun x hx =>
      Graph.leaf_stays hs₁ h₂.grows.toStays (hhas₁ x hx)] at hfirst
    exact hfirst.append hothers

/-- A loop gives the leaves that its rounds give. -/
theorem concatEach_yields {α : Type} {f : α → Expand (List TaskId)} {l : List α} {items : List Item}
    {R : α → Item → Prop} (hl : List.Forall₂ R l items) (hs : e.store.graph.Sound)
    (hf : Faithful site e.store)
    (round : ∀ a item, R a item → ∀ e₁ : Expansion, e₁.store.graph.Sound → Faithful site e₁.store →
      Advances site e.store e₁.store → Yields site t (f a) e₁ [item]) :
    Yields site t (concatEach f l) e items := by
  induction hl generalizing e with
  | nil => exact ⟨.refl _, fun _ hx => (List.not_mem_nil hx).elim, .nil⟩
  | @cons a item l items ha _ ih =>
    exact (round a item ha e hs hf (.refl _)).append hs hf fun e₁ hs₁ hf₁ h₁ =>
      ih hs₁ hf₁ fun a item ha e₂ hs₂ hf₂ h₂ => round a item ha e₂ hs₂ hf₂ (h₁.trans h₂)

/-- An item consists of others. -/
theorem Yields.unfold {step : Expand (List TaskId)} {item : Item} {items : List Item}
    (h : Yields site t step e items) (hu : Unfolds site t item items) :
    Yields site t step e [item] :=
  h.mono (fun _ _ h => ⟨h.1, h.2.1, hu.expands h.2.2⟩) fun _ _ h => h

/-- What a directive adopts is seen as before. -/
theorem leaves_adopt {items : List Item} {ids : List TaskId}
    (hhas : ∀ y ∈ ids, e.store.graph.HasTask y)
    (h : Expands site t items (ids.map e.store.graph.leaf)) (x : TaskId) :
    (∀ y ∈ ids, (e.close.adopt ids x).store.graph.HasTask y) ∧
      Expands site t items (ids.map (e.close.adopt ids x).store.graph.leaf) := by
  have hadopt := Graph.leaf_adopt e.store.graph ids x
  have hleaves : ids.map (e.close.adopt ids x).store.graph.leaf = ids.map e.store.graph.leaf :=
    List.map_congr_left fun y _ => (hadopt y).1
  refine ⟨fun y hy => (hadopt y).2.2 (hhas y hy), ?_⟩
  rw [hleaves]
  exact h

/-- A directive that includes a file of tasks gives the leaves of the file. -/
theorem expandTaskInclude_yields (hs : e.store.graph.Sound) (hf : Faithful site e.store)
    {path : FilePath} {decl : TaskDeclaration} (hx : e.store.graph.Shows path x decl)
    {action : String} (hb : decl.block = []) (ha : decl.action? Action.taskIncludes = some action)
    {expand : TaskId → Expand (List TaskId)}
    (hexpand : ∀ c item (e : Expansion), e.store.graph.Sound → Faithful site e.store →
      e.store.graph.Denotes site (.task c) item → Yields site t (expand c) e [item]) :
    Ends (expandTaskInclude site t expand x action) e
      (fun ids e' => (∀ x ∈ ids, e'.store.graph.HasTask x) ∧
        Expands site t [.task (e.store.graph.scope x) path decl] (ids.map e'.store.graph.leaf))
      fun _ _ => True := by
  obtain ⟨hpath, hvars, hraw, -⟩ := hx.fields
  refine (ends_congr (run_expandTaskInclude ..)).2 (ends_expandDirective_ok (fun _ _ => trivial) ?_)
  refine (includeParams_ends hs hx.has).mono ?_ fun _ _ _ => trivial
  rintro params e₁ ⟨h₁, hparams⟩
  have hincludes :
      site.Includes t (e.store.graph.scope x) decl TaskInclude.ofJson "file" action params := by
    refine ⟨?_⟩
    rw [← hraw, ← hvars]; exact hparams hf
  dsimp only
  rw [ends_bind, ends_load, hpath]
  generalize hfile : path.directory.join params.file = file
  refine (loadTasks_included hs hx.has h₁ file).mono ?_ fun _ _ _ => trivial
  rintro xs s₂ ⟨h₂, hstamped, ds, hread, hshows⟩
  have h₁₂ := h₁.trans h₂.advances
  have hs₂ := h₁₂.sound hs
  -- what was loaded stands where the directive stands
  have hscope : ∀ c ∈ xs, s₂.graph.scope c = e.store.graph.scope x := by
    intro c hc
    have k := h₁₂.grows.keeps.task x hx.has
    rw [← Graph.scope_stays hs h₁₂.grows.toStays hx.has]
    refine Graph.Placed.scope (o := some (e.store.graph.task x).origin) ?_
    rw [k.role, k.play]
    exact (hstamped c hc).placed
  have hitems : List.Forall₂ (fun c item => s₂.graph.Denotes site (.task c) item) xs
      (ds.map (Item.task (e.store.graph.scope x) file)) := by
    rw [List.forall₂_map_right_iff]
    refine forall₂_mem (Graph.showsAll_iff.1 hshows) fun c d hc _ h => ?_
    rw [← hscope c hc]; exact .task h
  refine (concatEach_yields (e := ⟨s₂, _⟩) hitems hs₂ (h₁₂.faithful hs hf)
    fun c item hc e₃ hs₃ hf₃ h₃ =>
    hexpand c item e₃ hs₃ hf₃ (hc.stays hs₂ h₃.grows.toStays)).mono ?_ fun _ _ _ => trivial
  rintro ids e₃ ⟨h₃, hhas, hexpands⟩
  subst hfile
  have hunfolds : Unfolds site t (.task (e.store.graph.scope x) path decl) _ :=
    .tasks hb ha hincludes hread
  exact leaves_adopt hhas (hunfolds.expands hexpands) x

/-- A directive that includes a role gives the leaves of the role. -/
theorem expandRoleInclude_yields (hs : e.store.graph.Sound) (hf : Faithful site e.store)
    {path : FilePath} {decl : TaskDeclaration} (hx : e.store.graph.Shows path x decl)
    {action : String} (hb : decl.block = []) (hn : decl.action? Action.taskIncludes = none)
    (ha : decl.action? Action.roleIncludes = some action) {expand : RoleId → Expand (List TaskId)}
    (hexpand : ∀ r item (e : Expansion), e.store.graph.Sound → Faithful site e.store →
      e.store.graph.Denotes site (.role r) item → Yields site t (expand r) e [item]) :
    Ends (expandRoleInclude site t expand x action) e
      (fun ids e' => (∀ x ∈ ids, e'.store.graph.HasTask x) ∧
        Expands site t [.task (e.store.graph.scope x) path decl] (ids.map e'.store.graph.leaf))
      fun _ _ => True := by
  obtain ⟨hpath, hvars, hraw, -⟩ := hx.fields
  refine (ends_congr (run_expandRoleInclude ..)).2 (ends_expandDirective_ok (fun _ _ => trivial) ?_)
  refine (includeParams_ends hs hx.has).mono ?_ fun _ _ _ => trivial
  rintro params e₁ ⟨h₁, hparams⟩
  have hincludes :
      site.Includes t (e.store.graph.scope x) decl RoleInclude.ofJson "name" action params := by
    refine ⟨?_⟩
    rw [← hraw, ← hvars]; exact hparams hf
  have hs₁ := h₁.sound hs
  have hf₁ := h₁.faithful hs hf
  have hplay : ∀ p, e₁.store.graph.taskPlay x = some p → e₁.store.graph.HasPlay p :=
    fun p hp => Graph.hasPlay_taskPlay hs₁ (h₁.grows.keeps.hasTask hx.has) hp
  rw [ends_bind, ends_load]
  refine (loadRole_included hs hx.has h₁ params.name params.selection).mono ?_ fun _ _ _ => trivial
  rintro r s₂ ⟨h₂, role, hread, hrole⟩
  have hread : site.readRole params.name params.selection = .ok role.toRoleText := by
    rw [← hf₁.readRole]; exact Store.readNamed_ok hread
  have hst := h₂.adds.grows.toStays
  have h₁₂ := h₁.trans h₂.advances
  have hs₂ := h₁₂.sound hs
  -- the role stands in the play of the directive, and is none of the play's own
  have hhead : (s₂.graph.role r).play.map s₂.graph.playHead = (e.store.graph.scope x).play := by
    rw [hrole.play, Graph.playHeads_stays hs₁ hst hplay]
    rw [← Graph.scope_stays hs h₁.grows.toStays hx.has]; rfl
  have hlisted : s₂.graph.listed r = false :=
    Graph.listed_new hs₁ hst hrole.new fun p hp => hplay p (hrole.play.symm.trans hp)
  refine (hexpand r _ ⟨s₂, _⟩ hs₂ (h₁₂.faithful hs hf) (.role hrole.shows.shows)).mono ?_
    fun _ _ _ => trivial
  rintro ids e₃ ⟨h₃, hhas, hexpands⟩
  simp only [hhead, hlisted] at hexpands
  have hunfolds : Unfolds site t (.task (e.store.graph.scope x) path decl) _ :=
    .role hb hn ha hincludes hread
  exact leaves_adopt hhas (hunfolds.expands hexpands) x

/-! ## Expansion -/

mutual
/-- **A task gives the leaves of what it shows.** -/
theorem expandTask_yields :
    ∀ (n : Nat) (x : TaskId) (item : Item) (e : Expansion), e.store.graph.Sound →
    Faithful site e.store → e.store.graph.Denotes site (.task x) item →
    Yields site t (expandTask site t n x) e [item]
  | 0, _, _, e, _, _, _ => ends_expandTask_zero.2 (Advances.refl e.store)
  | n + 1, x, item, e, hs, hf, hitem => by
    have ih := expandTask_yields n
    obtain @⟨path, _, decl, hx⟩ := hitem
    obtain ⟨-, -, hraw, -⟩ := hx.fields
    have hactions : ∀ actions, decl.action? actions =
        (e.store.graph.task x).firstAction? actions := by
      intro _; rw [TaskDeclaration.action?, Task.firstAction?, hraw]
    have hempty : (e.store.graph.task x).isBlock = false → decl.block = [] := by
      intro hb
      by_contra h
      rw [hx.isBlock.2 h] at hb
      cases hb
    have hleaves : Ends (expandTask site t (n + 1) x) e (fun ids e' =>
        (∀ y ∈ ids, e'.store.graph.HasTask y) ∧
          Expands site t [.task (e.store.graph.scope x) path decl]
          (ids.map e'.store.graph.leaf)) fun _ _ => True := by
      refine ends_expandTask (fun hb => ?_) (fun action hd => ?_) (fun action hd => ?_) fun hk => ?_
      · have hyields :=
          concatEach_yields (t := t) (hx.block_denotes site hs) hs hf fun c item hc e₁ hs₁ hf₁ h₁ =>
          ih c item e₁ hs₁ hf₁ (hc.stays hs h₁.grows.toStays)
        exact (hyields.unfold (.block (hx.isBlock.1 hb))).mono (fun _ _ h => h.2)
          fun _ _ _ => trivial
      · obtain ⟨hb, ha⟩ := hd
        exact expandTaskInclude_yields hs hf hx (hempty (Task.isBlock_eq_false.2 hb))
          ((hactions _).trans ha) ih
      · obtain - | ⟨hb, hn, ha⟩ := hd
        exact expandRoleInclude_yields hs hf hx (hempty (Task.isBlock_eq_false.2 hb))
          ((hactions _).trans hn)
          ((hactions _).trans ha) fun r item e hs hf hr =>
            expandRoleOn_yields n r [] item e hs hf hr
      · obtain ⟨hb, hn, hr⟩ := Task.kind_leaf hk
        refine ⟨fun y hy => by rw [List.mem_singleton.1 hy]; exact hx.has, ?_⟩
        rw [List.map_singleton, hx.leaf]
        exact .leaf (hempty hb) ((hactions _).trans hn) ((hactions _).trans hr) .nil
    exact ((expandTask_ends (n + 1) hs hx.has).and hleaves).mono (fun _ _ h => h) fun _ _ h => h.1

/-- **A role gives the leaves of what it shows.** -/
theorem expandRoleOn_yields :
    ∀ (n : Nat) (r : RoleId) (path : List String) (item : Item) (e : Expansion),
    e.store.graph.Sound → Faithful site e.store → e.store.graph.Denotes site (.role r) item →
    Yields site t (expandRoleOn site t n r path) e [item]
  | 0, _, _, _, e, _, _, _ => ends_expandRoleOn_zero.2 (Advances.refl e.store)
  | n + 1, r, path, item, e, hs, hf, hitem => by
    have hr : e.store.graph.HasRole r := hitem.hasRole
    refine ends_expandRoleOn (fun path _ => ?_) fun _ _ => .refl _
    rw [ends_bind, ends_load]
    refine (directDependencies_ends hs hr).mono ?_ fun _ _ h => h.1.toAdvances
    intro direct s₁ hfound
    have h₁ := hfound.learns.toAdvances
    have hs₁ := h₁.sound hs
    have hf₁ := h₁.faithful hs hf
    cases hitem.stays hs h₁.grows.toStays with
    | @role _ text hshows =>
      obtain ⟨texts, hread, hdeps⟩ := hf₁.texts hfound.direct
      rw [hshows.head] at hread
      have hbelow := concatEach_yields (t := t) (e := { e with store := s₁ })
        (Graph.depends_denote site hs₁ hfound.direct hdeps) hs₁ hf₁ fun d item hd e₂ hs₂ hf₂ h₂ =>
          expandRoleOn_yields n d path item e₂ hs₂ hf₂ (hd.stays hs₁ h₂.grows.toStays)
      -- the tasks are looked up after the dependencies are expanded, and are the same as before
      have hown : ∀ e₂ : Expansion, e₂.store.graph.Sound → Faithful site e₂.store →
          Advances site s₁ e₂.store →
          Yields site t (do concatEach (expandTask site t n) ((← Expand.graph).role r).tasks) e₂
            (text.tasks.map fun (path, d) => .task ⟨(s₁.graph.role r).play.map s₁.graph.playHead,
              some text.toRoleHead, s₁.graph.listed r⟩ path d) := by
        intro e₂ hs₂ hf₂ h₂
        unfold Yields
        rw [ends_bind, ends_expand_graph, (h₂.grows.role r hshows.has).same]
        exact concatEach_yields (hshows.tasks_denote site hs₁) hs₂ hf₂
          fun c item hc e₃ hs₃ hf₃ h₃ =>
          expandTask_yields n c item e₃ hs₃ hf₃ (hc.stays hs₁ (h₂.trans h₃).grows.toStays)
      have hrole := (hbelow.append hs₁ hf₁ hown).unfold (.ofRole hread)
      simp only [Yields, ends_bind, ends_expand_graph, ends_pure] at hrole ⊢
      exact hrole.mono
        (fun _ _ h => h.mono (fun _ _ h => ⟨h₁.trans h.1, h.2⟩) fun _ _ h => h₁.trans h)
        fun _ _ h => h₁.trans h
end

mutual
/-- **A play gives the leaves of what it shows.** -/
theorem expandPlay_yields :
    ∀ (n : Nat) (p : PlayId) (item : Item) (e : Expansion), e.store.graph.Sound →
    Faithful site e.store → e.store.graph.Denotes site (.play p) item →
    Yields site t (expandPlay site t n p) e [item]
  | 0, _, _, e, _, _, _ => ends_expandPlay_zero.2 (Advances.refl e.store)
  | n + 1, p, item, e, hs, hf, hitem => by
    obtain - | - | @⟨path, _, d, hp⟩ := hitem
    have hplay := hs.plays p hp.has
    have htarget : d.importTarget? = (e.store.graph.play p).importTarget? := by
      rw [PlayDeclaration.importTarget?, Play.importTarget?, hp.raw]
    refine ends_expandPlay (fun target ht => ?_) fun ht => ?_
    · rw [ends_bind, ends_load]
      have ho : ∀ o, some (e.store.graph.play p).origin = some o → e.store.graph.HasOrigin o := by
        rintro _ ⟨⟩; exact hplay.origin
      refine (loadPlaybook_ends hs ho _).mono ?_ fun _ _ h => ends_failed fun _ => h.1.advances
      rintro pb s₁ ⟨h₁, hpath, ds, hread, hloaded⟩
      have hadv := h₁.advances
      refine (expandPlaybook_yields n pb _ { e with store := s₁ } (h₁.sound hs)
        (hadv.faithful hs hf)
        (Graph.denotes_loaded hf hpath hloaded)).mono ?_ fun _ _ h =>
          ends_failed fun _ => hadv.trans h
      rintro ids e₂ ⟨h₂, hhas, hexpands⟩
      exact ⟨hadv.trans h₂, hhas, (Unfolds.imported (htarget.trans ht) hread).expands hexpands⟩
    · obtain ⟨texts, hread, hhead, hroles⟩ := hp.roles_denote hs
      have hyields := (concatEach_yields (hp.tasks_denote hs) hs hf fun c item hc e₁ hs₁ hf₁ h₁ =>
        expandTask_yields (t := t) n c item e₁ hs₁ hf₁ (hc.stays hs h₁.grows.toStays)).append hs hf
        fun e₁ hs₁ hf₁ h₁ => concatEach_yields (f := expandRole site t n) hroles hs₁ hf₁
          fun r item hr e₂ hs₂ hf₂ h₂ => expandRoleOn_yields (t := t) n r [] item e₂ hs₂ hf₂
            (hr.stays hs (h₁.trans h₂).grows.toStays)
      exact hyields.unfold (.ofPlay (htarget.trans ht) hread hhead)

/-- **A playbook gives the leaves of what it shows.** -/
theorem expandPlaybook_yields : ∀ (n : Nat) (pb : Playbook) (item : Item) (e : Expansion),
    e.store.graph.Sound → Faithful site e.store → e.store.graph.Denotes site (.playbook pb) item →
    Yields site t (expandPlaybook site t n pb) e [item]
  | 0, _, _, e, _, _, _ => ends_expandPlaybook_zero.2 (Advances.refl e.store)
  | n + 1, pb, item, e, hs, hf, hitem => by
    obtain - | - | - | @⟨_, ds, hps⟩ := hitem
    refine ends_expandPlaybook (fun _ => .refl _) fun _ => ?_
    have hplays : List.Forall₂ (fun p item => e.store.graph.Denotes site (.play p) item) pb.plays
        (ds.map (.play pb.path)) := by
      rw [List.forall₂_map_right_iff]; exact hps.imp fun _ _ h => .play h
    have hyields := concatEach_yields (t := t) (e := e.enter site (.file pb.path)) hplays hs hf
      fun p item hp e₁ hs₁ hf₁ h₁ =>
        expandPlay_yields n p item e₁ hs₁ hf₁ (hp.stays hs h₁.grows.toStays)
    exact hyields.unfold .ofPlaybook
end

end Runlist
