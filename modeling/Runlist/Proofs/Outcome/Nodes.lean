import Runlist.Proofs.Expand.Leaves
import Runlist.Proofs.Outcome.Documents

/-!
# Entities as nodes

What is seen of an entity of a graph, once handles and what is remembered are left out. It never
changes, and of what was loaded it is what the documents say.

* `Graph.taskNode`, `Graph.roleNode`, `Graph.playNode`: the nodes of entities.
* `taskNode_stays` and the like: **a node stays as it is**, whatever is asked.
* `Shows.node`, `ShowsNamed.node`, `ShowsPlay.node`: the node of what was loaded is the declared
  one.
* `dependencies_known`: known dependencies are those that a node has on the documents.
-/

namespace Runlist

namespace Graph

variable {g g' : Graph} {x c : TaskId} {r d : RoleId} {p : PlayId}

/-! ## Nodes -/

/-- What a role declares besides its tasks, and its name. -/
def namedHead (g : Graph) (r : RoleId) : NamedHead := ⟨g.roleHead r, (g.role r).name⟩

/-- What a play declares besides its tasks. -/
def playPlace (g : Graph) (p : PlayId) : PlayPlace :=
  ⟨(g.origin (g.play p).origin).path, (g.play p).vars, (g.play p).varsFiles,
    (g.play p).roles.map g.namedHead⟩

/-- Where a task stands. -/
def place (g : Graph) (x : TaskId) : Place where
  play := (g.taskPlay x).map g.playPlace
  role := (g.task x).role.map g.namedHead
  listed := match (g.task x).role with
    | some r => g.listed r
    | none => false

/-- **The node of a task.** The tasks of a block are younger than the task that wraps them. -/
def taskNode (g : Graph) (x : TaskId) : TaskNode :=
  { place := g.place x, path := g.taskPath x, name := (g.task x).name, vars := (g.task x).vars
    raw := (g.task x).raw, trail := g.trail (g.task x).origin
    block := (g.task x).block.map fun c =>
      if _ : x.index < c.index ∧ c.index < g.tasks.size then g.taskNode c else default }
termination_by g.tasks.size - x.index
decreasing_by omega

/-- **The node of a role.** -/
def roleNode (g : Graph) (r : RoleId) : RoleNode where
  play := (g.role r).play.map g.playPlace
  head := g.namedHead r
  references := (g.role r).declared.dependencies.map fun d => (d.name, g.trail d.origin)
  tasks := (g.role r).tasks.map g.taskNode

/-- **The node of a play.** -/
def playNode (g : Graph) (p : PlayId) : PlayNode where
  place := g.playPlace p
  target := (g.play p).importTarget?
  trail := g.trail (g.play p).origin
  tasks := (g.play p).tasks.map g.taskNode
  roles := (g.play p).roles.map g.roleNode

/-- The node of a playbook. -/
def playbookNode (g : Graph) (pb : Playbook) : PlaybookNode := ⟨pb.path, pb.plays.map g.playNode⟩

theorem Sound.taskNode_block (hs : g.Sound) (hx : g.HasTask x) :
    (g.taskNode x).block = (g.task x).block.map g.taskNode := by
  rw [taskNode]
  refine List.map_congr_left fun c hc => ?_
  rw [dif_pos ⟨hs.block_lt hx hc, ((hs.tasks x hx).block c hc).2.has⟩]

/-- The fields of a node, its block left out. -/
theorem taskNode_fields (g : Graph) (x : TaskId) : (g.taskNode x).place = g.place x ∧
    (g.taskNode x).path = g.taskPath x ∧ (g.taskNode x).vars = (g.task x).vars ∧
    (g.taskNode x).raw = (g.task x).raw ∧ (g.taskNode x).trail = g.trail (g.task x).origin := by
  rw [taskNode]
  exact ⟨rfl, rfl, rfl, rfl, rfl⟩

theorem leaf_taskNode (g : Graph) (x : TaskId) : (g.taskNode x).leaf = g.leaf x := by
  rw [taskNode]; rfl

/-! ## Nodes stay -/

section Stays

variable (hs : g.Sound) (h : g.Stays g')
include hs h

omit hs in
theorem namedHead_stays (hr : g.HasRole r) : g'.namedHead r = g.namedHead r := by
  rw [namedHead, namedHead, roleHead_stays h hr, (h.keeps.role r hr).name]

theorem playPlace_stays (hp : g.HasPlay p) : g'.playPlace p = g.playPlace p := by
  rw [playPlace, playPlace, h.play p hp, h.origin _ (hs.plays p hp).origin]
  congr 1
  refine List.map_congr_left fun r hr => ?_
  obtain ⟨_, -, hst⟩ := (hs.plays p hp).roles r hr
  exact namedHead_stays h hst.has

theorem playPlaces_stays {play : Option PlayId} (hp : ∀ p, play = some p → g.HasPlay p) :
    play.map g'.playPlace = play.map g.playPlace := by
  cases play with
  | none => rfl
  | some p => exact congrArg some (playPlace_stays hs h (hp p rfl))

theorem place_stays (hx : g.HasTask x) : g'.place x = g.place x := by
  rw [place, place, taskPlay_keeps hs h.keeps hx, (h.task x hx).same]
  simp only
  congr 1
  · exact playPlaces_stays hs h fun p hp => hasPlay_taskPlay hs hx hp
  · cases hr : (g.task x).role with
    | none => rfl
    | some r => exact congrArg some (namedHead_stays h ((hs.tasks x hx).role r hr))
  · cases hr : (g.task x).role with
    | none => rfl
    | some r => exact listed_stays hs h ((hs.tasks x hx).role r hr)

/-- **The node of a task stays.** -/
theorem taskNode_stays {x : TaskId} (hx : g.HasTask x) : g'.taskNode x = g.taskNode x := by
  have hsame := (h.task x hx).same
  have htask := hs.tasks x hx
  have horigin : (g'.task x).origin = (g.task x).origin := by rw [hsame]
  have hblock : (g'.task x).block = (g.task x).block := by rw [hsame]
  rw [taskNode, taskNode, place_stays hs h hx, hblock]
  congr 1
  · rw [taskPath, taskPath, horigin, h.origin _ htask.origin]
  · rw [hsame]
  · rw [hsame]
  · rw [hsame]
  · rw [horigin, trail_keeps h.keeps htask.origin]
  · refine List.map_congr_left fun c hc => ?_
    have hlt := hs.block_lt hx hc
    have hhas := (htask.block c hc).2.has
    rw [dif_pos ⟨hlt, h.keeps.hasTask hhas⟩, dif_pos ⟨hlt, hhas⟩]
    have : g.tasks.size - c.index < g.tasks.size - x.index := by
      have : c.index < g.tasks.size := hhas
      omega
    exact taskNode_stays hhas
termination_by g.tasks.size - x.index

theorem taskNodes_stays {xs : List TaskId} (hxs : ∀ x ∈ xs, g.HasTask x) :
    xs.map g'.taskNode = xs.map g.taskNode :=
  List.map_congr_left fun x hx => taskNode_stays hs h (hxs x hx)

/-- **The node of a role stays.** -/
theorem roleNode_stays (hr : g.HasRole r) : g'.roleNode r = g.roleNode r := by
  have hrole := hs.roles r hr
  rw [roleNode, roleNode, namedHead_stays h hr, (h.role r hr).same]
  simp only
  congr 1
  · exact playPlaces_stays hs h hrole.play
  · refine List.map_congr_left fun d hd => ?_
    obtain ⟨m, -, hin⟩ := hrole.declared d hd
    rw [trail_keeps h.keeps hin.has]
  · exact taskNodes_stays hs h fun x hx => (hrole.tasks x hx).has

/-- **The node of a play stays.** -/
theorem playNode_stays (hp : g.HasPlay p) : g'.playNode p = g.playNode p := by
  have hplay := hs.plays p hp
  rw [playNode, playNode, playPlace_stays hs h hp, h.play p hp, trail_keeps h.keeps hplay.origin,
    taskNodes_stays hs h fun x hx => (hplay.tasks x hx).has]
  congr 1
  refine List.map_congr_left fun r hr => ?_
  obtain ⟨_, -, hst⟩ := hplay.roles r hr
  exact roleNode_stays hs h hst.has

theorem playbookNode_stays {pb : Playbook} (hp : ∀ p ∈ pb.plays, g.HasPlay p) :
    g'.playbookNode pb = g.playbookNode pb := by
  rw [playbookNode, playbookNode]
  congr 1
  exact List.map_congr_left fun p hpb => playNode_stays hs h (hp p hpb)

end Stays

/-! ## Nodes of what was loaded -/

/-- A task inside another one stands where that stands. -/
theorem Placed.place {o : Option OriginId} (h : g.Placed o (g.task x).role (g.task x).play c) :
    g.place c = g.place x := by
  rw [Graph.place, Graph.place, taskPlay, taskPlay, h.role, h.play]

/-- A task of a role stands in the role. -/
theorem Placed.place_role {o : Option OriginId} {play : Option PlayId}
    (h : g.Placed o (some r) play c) :
    g.place c = ⟨(g.role r).play.map g.playPlace, some (g.namedHead r), g.listed r⟩ := by
  rw [Graph.place, taskPlay, h.role]; rfl

/-- A task of a play stands in the play. -/
theorem Placed.place_play {o : Option OriginId} (h : g.Placed o none (some p) c) :
    g.place c = ⟨some (g.playPlace p), none, false⟩ := by
  rw [Graph.place, taskPlay, h.role, h.play]; rfl

/-- The trail around a task. -/
def around (g : Graph) (x : TaskId) : List Origin := g.trailOf (g.origin (g.task x).origin).parent

/-- The trail of a task goes on with the one around it. -/
theorem Sound.trail_task (hs : g.Sound) (hx : g.HasTask x) :
    g.trail (g.task x).origin = (g.origin (g.task x).origin).bare :: g.around x :=
  hs.origins.trail (hs.tasks x hx).origin

theorem Placed.around {o : Option OriginId} {role : Option RoleId} {play : Option PlayId}
    (h : g.Placed o role play c) : g.around c = g.trailOf o := by rw [Graph.around, h.origin]

mutual
/-- **The node of a task that shows a declaration** is the declared one, in its place. -/
theorem Shows.node (hs : g.Sound) {path : FilePath} {x : TaskId} {d : TaskDeclaration}
    (h : g.Shows path x d) : g.taskNode x = d.node (g.place x) path (g.around x) := by
  match d with
  | ⟨range, name, vars, raw, block⟩ =>
    obtain ⟨hx, hplace, hname, hvars, hraw, hblock⟩ := h
    have htrail := hs.trail_task hx
    have hinner := ShowsAll.nodes hs hblock fun c hc =>
      have hplaced := ((hs.tasks x hx).block c hc).2
      ⟨hplaced.place, hplaced.around⟩
    have hpath : g.taskPath x = path := congrArg Origin.path hplace
    rw [trailOf_some, ← hs.taskNode_block hx, htrail, hplace] at hinner
    rw [TaskDeclaration.node, ← hinner, ← hplace, ← htrail, ← hname, ← hvars, ← hraw,
      ← hpath, taskNode]

/-- Tasks in one place that show declarations. -/
theorem ShowsAll.nodes (hs : g.Sound) {path : FilePath} {xs : List TaskId}
    {ds : List TaskDeclaration} {place : Place} {around : List Origin} (h : g.ShowsAll path xs ds)
    (hin : ∀ c ∈ xs, g.place c = place ∧ g.around c = around) :
    xs.map g.taskNode = TaskDeclaration.nodes place path around ds := by
  match ds with
  | [] => rw [h]; rfl
  | d :: ds =>
    obtain ⟨x, rest, rfl, hx, hrest⟩ := h
    obtain ⟨hplace, haround⟩ := hin x List.mem_cons_self
    rw [List.map_cons, TaskDeclaration.nodes, Shows.node hs hx, hplace, haround,
      ShowsAll.nodes hs hrest fun c hc => hin c (List.mem_cons_of_mem _ hc)]
end

/-- The trail around a role. -/
def aroundRole (g : Graph) (r : RoleId) : List Origin :=
  g.trailOf (g.origin (g.role r).origin).parent

/-- The trail of a role goes on with the one around it. -/
theorem Sound.trail_role (hs : g.Sound) (hr : g.HasRole r) :
    g.trail (g.role r).origin = (g.origin (g.role r).origin).bare :: g.aroundRole r :=
  hs.origins.trail (hs.roles r hr).origin

theorem ShowsNamed.head {role : NamedRole} (h : g.ShowsNamed r role) :
    g.namedHead r = role.head := by
  rw [namedHead, h.shows.head, h.name]; rfl

/-- **The node of a role that is what files declare** is the declared one, in its place. -/
theorem ShowsNamed.node (hs : g.Sound) {role : NamedRole} (h : g.ShowsNamed r role) :
    g.roleNode r = role.node ((g.role r).play.map g.playPlace) (g.listed r) (g.aroundRole r) := by
  have hr := h.shows.has
  have htrail := hs.trail_role hr
  rw [h.place] at htrail
  rw [roleNode, NamedRole.node, h.head]
  congr 1
  · refine forall₂_map_eq (h.references.imp fun d reference href => ?_)
    rw [href.1, href.2, htrail]
  · refine forall₂_map_eq (forall₂_mem h.shows.tasks fun x declared hx _ hshows => ?_)
    have hplaced := (hs.roles r hr).tasks x hx
    rw [hshows.node hs, hplaced.place_role, hplaced.around, trailOf_some, htrail, h.head]

/-- **Known dependencies** are those that the node of the role has on the documents. -/
theorem Sound.dependencies_known (hs : g.Sound) {site : Site} {ds : List RoleId}
    {roles : List NamedRole} (hd : (g.role r).directDependencies = some ds)
    (hread : (g.roleHead r).dependencies.mapM (site.readNamed · .main) = .ok roles)
    (hshows : List.Forall₂ g.ShowsNamed ds roles) :
    (g.roleNode r).dependencies site = .ok (ds.map g.roleNode) := by
  have hstands := (hs.roles r (hs.hasRole_of_direct hd)).direct ds hd
  have hnames : (g.roleHead r).dependencies = (g.role r).declared.dependencies.map (·.name) := rfl
  rw [hnames, mapM_ok, List.forall₂_map_left_iff] at hread
  have hboth :
      List.Forall₂ (fun (d : RoleDefinition) dep => ∃ role, site.readNamed d.name .main = .ok role ∧
      g.ShowsNamed dep role) (g.role r).declared.dependencies ds :=
    forall₂_trans hread hshows.flip fun _ _ _ h h' => ⟨_, h, h'⟩
  rw [RoleNode.dependencies, mapM_ok, roleNode]
  simp only
  rw [List.forall₂_map_left_iff, List.forall₂_map_right_iff]
  refine forall₂_mem (forall₂_both hstands hboth) ?_
  rintro d dep - hdep ⟨⟨hst, -⟩, role, hrole, hnamed⟩
  have hdepends : g.Depends r dep := ⟨ds, hd, hdep⟩
  have haround : g.aroundRole dep = g.trail d.origin := by rw [aroundRole, hst.origin]; rfl
  simp only [hrole]
  rw [hnamed.node hs, hs.play_depends hdepends, hs.listed_depends hdepends, haround]
  rfl

/-- Dependencies that cannot be read cannot be read on the documents. -/
theorem dependencies_error {site : Site} {err : LoadError}
    (hread : (g.roleHead r).dependencies.mapM (site.readNamed · .main) = .error err) :
    (g.roleNode r).dependencies site = .error err := by
  have hnames : (g.roleHead r).dependencies = (g.roleNode r).references.map (·.1) := by
    rw [roleNode, roleHead, List.map_map]; rfl
  rw [hnames, List.mapM_map] at hread
  rw [RoleNode.dependencies]
  refine mapM_error_congr (fun reference role hrole => ?_) (fun reference e herror => ?_) hread
  · refine ⟨_, except_bind_ok.2 ⟨role, hrole, rfl⟩⟩
  · exact except_bind_error.2 (Or.inl herror)

/-! ## Plays -/

/-- The tasks of a play. -/
theorem ShowsPlay.taskNodes (hs : g.Sound) {read : String → Except LoadError NamedRole}
    {path : FilePath} {d : PlayDeclaration} (h : g.ShowsPlay read path p d) :
    (g.play p).tasks.map g.taskNode =
    (d.preTasks ++ d.mainTasks ++ d.postTasks).map
      (·.node ⟨some (g.playPlace p), none, false⟩ path (g.trail (g.play p).origin)) := by
  have hshows :=
    List.rel_append (List.rel_append (showsAll_iff.1 h.preTasks) (showsAll_iff.1 h.mainTasks))
    (showsAll_iff.1 h.postTasks)
  refine forall₂_map_eq (forall₂_mem hshows fun x d hx _ hxd => ?_)
  have hplaced := (hs.plays p h.has).tasks x hx
  rw [hxd.node hs, hplaced.place_play, hplaced.around, trailOf_some]

/-- **The node of a play that is what a document declares** is the declared one, in its place. -/
theorem ShowsPlay.node (hs : g.Sound) {site : Site} {path : FilePath} {d : PlayDeclaration}
    (h : g.ShowsPlay (site.readNamed · .main) path p d) :
    site.readPlay path (g.trailOf (g.origin (g.play p).origin).parent) d = .ok (g.playNode p) := by
  have hplay := hs.plays p h.has
  obtain ⟨roles, hread, hroles⟩ := h.roles
  have htrail := hs.origins.trail hplay.origin
  rw [h.place] at htrail
  have hplace : g.playPlace p = ⟨path, d.vars, d.varsFiles, roles.map (·.head)⟩ := by
    rw [playPlace, h.path, h.vars, h.varsFiles, forall₂_map_eq (hroles.imp fun _ _ hr => hr.head)]
  refine except_bind_ok.2 ⟨roles, hread, congrArg Except.ok ?_⟩
  rw [PlayDeclaration.node, playNode, h.taskNodes hs, ← hplace, ← htrail]
  congr 1
  · rw [PlayDeclaration.importTarget?, Play.importTarget?, h.raw]
  · refine zipWith_eq_map h.references hroles fun r hr ref role haround hnamed => ?_
    obtain ⟨hin, hlisted⟩ := hplay.listed hr
    rw [hnamed.node hs, hin, hlisted, aroundRole, haround, Option.map_some]

/-- The plays of a playbook that was loaded. -/
theorem playNodes_loaded (hs : g.Sound) {site : Site} {o : Option OriginId} {path : FilePath}
    {ds : List PlayDeclaration} {ps : List PlayId} (hread : site.readPlaybook path = .ok ds)
    (h : List.Forall₂ (fun d p => g.ShowsPlay (site.readNamed · .main) path p d ∧
      (g.origin (g.play p).origin).parent = o) ds ps) :
    site.readPlays path (g.trailOf o) = .ok (ps.map g.playNode) := by
  rw [Site.readPlays, hread]
  refine mapM_ok.2 ?_
  rw [List.forall₂_map_right_iff]
  refine h.imp fun d p hp => ?_
  rw [← hp.2]; exact hp.1.node hs

end Graph

/-- Plays that cannot be read with their roles cannot be read in any place. -/
theorem readPlays_error {site : Site} {path : FilePath} {around : List Origin} {err : LoadError}
    (h : (site.readPlaybook path >>= List.mapM fun d =>
      (d.roles.map (·.name)).mapM (site.readNamed · .main)) = .error err) :
    site.readPlays path around = .error err := by
  rw [Site.readPlays]
  rcases except_bind_error.1 h with h | ⟨ds, hds, h⟩
  · exact except_bind_error.2 (Or.inl h)
  · refine except_bind_error.2 (Or.inr ⟨ds, hds, ?_⟩)
    refine mapM_error_congr (fun d roles hroles => ?_) (fun d e herror => ?_) h
    · exact ⟨_, except_bind_ok.2 ⟨roles, hroles, rfl⟩⟩
    · exact except_bind_error.2 (Or.inl herror)

end Runlist
