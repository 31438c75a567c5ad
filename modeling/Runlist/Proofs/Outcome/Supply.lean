import Runlist.Expand.Bound
import Runlist.Proofs.Outcome.Variables

/-!
# What an expansion can meet

A tree of files declares finitely much. Expansion meets roles under any number of names and files
under any number of spellings, but what it reads there is from a finite supply.

* `Supply`: declared tasks, what roles and plays declare besides tasks, and imported playbooks.
* `Supply.Covers`: whatever is read is from the supply.
* `TaskNode.Within`, `RoleNode.Within`, `PlayNode.Within`: nodes that are from the supply.
* `node_within`, `readNamed_within`, `readPlays_within`: **what is read is from the supply again.**
* `Site.supply`: a supply for a site and a state. `supply_covers`: **it covers the site.**
* `length_supply_heads`, `length_supply_plays`: **it is no larger than the bounds say.**
-/

namespace Runlist

variable {site : Site}

theorem TaskDeclaration.allOf_eq (ds : List TaskDeclaration) :
    TaskDeclaration.allOf ds = ds.flatMap TaskDeclaration.all := by
  induction ds with
  | nil => rfl
  | cons d ds ih => rw [TaskDeclaration.allOf, List.flatMap_cons, ih]

/-- **What can be met**: declared tasks, what roles and plays declare besides tasks, and the
playbooks that plays import. -/
structure Supply where
  tasks : List TaskDeclaration
  /-- How deep the blocks of tasks are nested at most. -/
  depth : Nat
  heads : List RoleHead
  plays : List PlayHead
  targets : List String

/-- A declared task is from the supply, with those in its block. -/
structure Supply.Has (u : Supply) (d : TaskDeclaration) : Prop where
  tasks : d.all ⊆ u.tasks
  depth : d.all.length ≤ u.depth

/-- **Whatever is read is from the supply.** -/
structure Supply.Covers (u : Supply) (site : Site) : Prop where
  tasks : ∀ path ds, site.readTasks path = .ok ds → ∀ d ∈ ds, u.Has d
  heads : ∀ name selection r, site.readNamed name selection = .ok r → r.toRoleHead ∈ u.heads
  playTasks : ∀ path ds, site.readPlaybook path = .ok ds → ∀ d ∈ ds, ∀ d' ∈ d.tasks, u.Has d'
  targets : ∀ path ds, site.readPlaybook path = .ok ds → ∀ d ∈ ds, ∀ target,
    d.importTarget? = some target → target ∈ u.targets
  plays :
      ∀ target ∈ u.targets, ∀ around ps, site.readPlays (site.root.join target) around = .ok ps →
        ∀ p ∈ ps, p.place.head ∈ u.plays

/-! ## Nodes -/

/-- A play from the supply, whose roles are those of their names. -/
structure PlayPlace.Within (u : Supply) (site : Site) (p : PlayPlace) : Prop where
  head : p.head ∈ u.plays
  real : ∀ r ∈ p.roles, r.Real site

/-- A place in a play and a role from the supply. -/
structure Place.Within (u : Supply) (site : Site) (place : Place) : Prop where
  play : ∀ p, place.play = some p → p.Within u site
  role : ∀ r, place.role = some r → r.toRoleHead ∈ u.heads ∧ r.Real site

theorem Place.Within.real {u : Supply} {place : Place} (h : place.Within u site) :
    ∀ head ∈ place.roles, head.Real site := by
  intro head hhead
  rcases List.mem_append.1 hhead with hhead | hhead
  · cases hp : place.play with
    | none => rw [hp] at hhead; cases hhead
    | some p => rw [hp] at hhead; exact (h.play p hp).real head hhead
  · split at hhead
    · cases hhead
    · exact (h.role head (Option.mem_toList.1 hhead)).2

/-- **A task from the supply**, with those of its block; blocks are nested less deep than the number
says. -/
inductive TaskNode.Within (u : Supply) (site : Site) : Nat → TaskNode → Prop
  | mk {n : Nat} {x : TaskNode} (place : x.place.Within u site)
      (declared : ∃ d ∈ u.tasks, d.vars = x.vars ∧ d.raw = x.raw)
      (block : ∀ c ∈ x.block, TaskNode.Within u site n c) : TaskNode.Within u site (n + 1) x

theorem TaskNode.Within.mono {u : Supply} {n m : Nat} {x : TaskNode} (h : x.Within u site n)
    (hle : n ≤ m) : x.Within u site m := by
  induction h generalizing m with
  | mk place declared _ ih =>
    obtain ⟨k, rfl⟩ : ∃ k, m = k + 1 := ⟨m - 1, by omega⟩
    exact .mk place declared fun c hc => ih c hc (by omega)

/-- **A role from the supply**, with its tasks. -/
structure RoleNode.Within (u : Supply) (site : Site) (r : RoleNode) : Prop where
  play : ∀ p, r.play = some p → p.Within u site
  real : r.head.Real site
  references : r.references.map (·.1) = r.head.dependencies
  tasks : ∀ x ∈ r.tasks, x.Within u site u.depth

/-- **A play from the supply**, with its tasks and roles. -/
structure PlayNode.Within (u : Supply) (site : Site) (p : PlayNode) : Prop where
  target : ∀ target, p.target = some target → target ∈ u.targets
  tasks : ∀ x ∈ p.tasks, x.Within u site u.depth
  roles : ∀ r ∈ p.roles, r.Within u site

section Covers

variable {u : Supply}

mutual
/-- **A declared task** in a place from the supply is from the supply. -/
theorem node_within {place : Place} (hplace : place.Within u site) {path : FilePath}
    {around : List Origin} {d : TaskDeclaration} (hd : d.all ⊆ u.tasks) :
    (d.node place path around).Within u site d.all.length := by
  match d with
  | ⟨range, name, vars, raw, block⟩ =>
    rw [TaskDeclaration.all, List.cons_subset] at hd
    rw [TaskDeclaration.node, TaskDeclaration.all, List.length_cons]
    exact .mk hplace ⟨_, hd.1, rfl, rfl⟩ (nodes_within hplace hd.2)

theorem nodes_within {place : Place} (hplace : place.Within u site) {path : FilePath}
    {around : List Origin} {ds : List TaskDeclaration} (hds : TaskDeclaration.allOf ds ⊆ u.tasks) :
    ∀ x ∈ TaskDeclaration.nodes place path around ds, x.Within u site
      (TaskDeclaration.allOf ds).length := by
  match ds with
  | [] => exact fun _ h => (List.not_mem_nil h).elim
  | d :: ds =>
    rw [TaskDeclaration.allOf, List.append_subset] at hds
    rw [TaskDeclaration.nodes, List.forall_mem_cons, TaskDeclaration.allOf, List.length_append]
    constructor
    · exact (node_within hplace hds.1).mono (Nat.le_add_right _ _)
    · intro x hx
      exact (nodes_within hplace hds.2 x hx).mono (Nat.le_add_left _ _)
end

theorem Supply.Has.node {d : TaskDeclaration} (h : u.Has d) {place : Place}
    (hplace : place.Within u site) (path : FilePath) (around : List Origin) :
    (d.node place path around).Within u site u.depth :=
  (node_within hplace h.tasks).mono h.depth

variable (hu : u.Covers site)
include hu

/-- **A role that is read** is from the supply, wherever it stands. -/
theorem readNamed_within {name : String} {selection : RoleSelection} {r : NamedRole}
    (hread : site.readNamed name selection = .ok r) {play : Option PlayPlace}
    (hplay : ∀ p, play = some p → p.Within u site) (listed : Bool) (around : List Origin) :
    (r.node play listed around).Within u site where
  play := hplay
  real := readNamed_real hread
  references := by
    rw [NamedRole.node, List.map_map]
    exact readNamed_references hread
  tasks := by
    obtain ⟨-, -, htext, -⟩ := readNamed_iff.1 hread
    intro x hx
    obtain ⟨⟨path, d⟩, hd, rfl⟩ := List.mem_map.1 hx
    obtain ⟨path', ds, hds, hmem⟩ := readRoleAt_tasks htext _ hd
    refine (hu.tasks path' ds hds d hmem).node ⟨hplay, ?_⟩ path _
    rintro _ ⟨⟩
    exact ⟨hu.heads name selection r hread, readNamed_real hread⟩

/-- **The plays of a playbook that is imported** are from the supply. -/
theorem readPlays_within {target : String} (htarget : target ∈ u.targets) {around : List Origin}
    {ps : List PlayNode} (hread : site.readPlays (site.root.join target) around = .ok ps) :
    ∀ p ∈ ps, p.Within u site := by
  intro p hp
  have hhead := hu.plays target htarget around ps hread p hp
  obtain ⟨ds, hds, hplays⟩ := except_bind_ok.1 hread
  rw [mapM_ok] at hplays
  obtain ⟨d, hd, hplay⟩ := exists_left hplays hp
  obtain ⟨roles, hroles, hplay⟩ := except_bind_ok.1 hplay
  cases hplay
  rw [mapM_ok, List.forall₂_map_left_iff] at hroles
  have hplace :
      PlayPlace.Within u site ⟨site.root.join target, d.vars, d.varsFiles, roles.map (·.head)⟩ := by
    refine ⟨hhead, fun head hhead => ?_⟩
    obtain ⟨role, hrole, rfl⟩ := List.mem_map.1 hhead
    obtain ⟨ref, -, hread⟩ := exists_left hroles hrole
    exact readNamed_real hread
  have hin : ∀ p',
      some (⟨site.root.join target, d.vars, d.varsFiles, roles.map (·.head)⟩ : PlayPlace) =
        some p' → p'.Within u site := by
    rintro _ ⟨⟩; exact hplace
  refine ⟨hu.targets _ ds hds d hd, fun x hx => ?_, fun r hr => ?_⟩
  · obtain ⟨d', hd', rfl⟩ := List.mem_map.1 hx
    refine (hu.playTasks _ ds hds d hd d' hd').node ⟨hin, ?_⟩ _ _
    rintro _ ⟨⟩
  · simp only [PlayDeclaration.node] at hr
    rw [← List.map_uncurry_zip_eq_zipWith] at hr
    obtain ⟨⟨ref, role⟩, hzip, rfl⟩ := List.mem_map.1 hr
    exact readNamed_within hu (List.forall₂_zip hroles hzip) hin true _

end Covers

/-! ## Entities -/

/-- **The entities of a graph are from the supply**, and its roles depend on what their names
say. -/
structure Graph.From (g : Graph) (u : Supply) (site : Site) : Prop where
  sound : g.Sound
  real : ∀ r, g.HasRole r → (g.namedHead r).Real site
  tasks : ∀ x, g.HasTask x → ∃ d ∈ u.tasks, d.vars = (g.task x).vars ∧ d.raw = (g.task x).raw
  depth : g.tasks.size ≤ u.depth
  heads : ∀ r, g.HasRole r → g.roleHead r ∈ u.heads
  plays : ∀ p, g.HasPlay p → g.playHead p ∈ u.plays
  targets : ∀ p, g.HasPlay p → ∀ target, (g.play p).importTarget? = some target → target ∈ u.targets

namespace Graph.From

variable {g : Graph} {u : Supply} {x : TaskId} {r : RoleId} {p : PlayId}

theorem playPlace_within (h : g.From u site) (hp : g.HasPlay p) :
    (g.playPlace p).Within u site where
  head := by rw [g.playPlace_head]; exact h.plays p hp
  real := by
    intro head hhead
    obtain ⟨r, hr, rfl⟩ := List.mem_map.1 hhead
    obtain ⟨_, -, hstands⟩ := (h.sound.plays p hp).roles r hr
    exact h.real r hstands.has

theorem playPlaces_within (h : g.From u site) {play : Option PlayId}
    (hp : ∀ p, play = some p → g.HasPlay p) :
    ∀ p, play.map g.playPlace = some p → p.Within u site := by
  intro place hplace
  obtain ⟨p, hplay, rfl⟩ := Option.map_eq_some_iff.1 hplace
  exact h.playPlace_within (hp p hplay)

theorem place_within (h : g.From u site) (hx : g.HasTask x) : (g.place x).Within u site where
  play := h.playPlaces_within fun p hp => Graph.hasPlay_taskPlay h.sound hx hp
  role := by
    intro head hhead
    obtain ⟨r, hr, rfl⟩ := Option.map_eq_some_iff.1 hhead
    have hrole := (h.sound.tasks x hx).role r hr
    exact ⟨h.heads r hrole, h.real r hrole⟩

/-- The node of a task is from the supply. Blocks are nested less deep than there are younger
tasks. -/
theorem taskNode_below (h : g.From u site) {x : TaskId} (hx : g.HasTask x) :
    (g.taskNode x).Within u site (g.tasks.size - x.index) := by
  obtain ⟨hplace, -, hvars, hraw, -⟩ := g.taskNode_fields x
  have hyounger : g.tasks.size - x.index = g.tasks.size - x.index - 1 + 1 := by
    have : x.index < g.tasks.size := hx
    omega
  rw [hyounger]
  refine .mk ?_ ?_ ?_
  · rw [hplace]; exact h.place_within hx
  · rw [hvars, hraw]; exact h.tasks x hx
  · rw [h.sound.taskNode_block hx]
    intro y hy
    obtain ⟨c, hc, rfl⟩ := List.mem_map.1 hy
    have hlt := h.sound.block_lt hx hc
    have hhas := ((h.sound.tasks x hx).block c hc).2.has
    have : c.index < g.tasks.size := hhas
    exact (taskNode_below h hhas).mono (by omega)
termination_by g.tasks.size - x.index

theorem taskNode_within (h : g.From u site) (hx : g.HasTask x) :
    (g.taskNode x).Within u site u.depth :=
  (h.taskNode_below hx).mono (le_trans (Nat.sub_le _ _) h.depth)

theorem taskNodes_within (h : g.From u site) {xs : List TaskId} (hxs : ∀ x ∈ xs, g.HasTask x) :
    ∀ x ∈ xs.map g.taskNode, x.Within u site u.depth := by
  intro y hy
  obtain ⟨x, hx, rfl⟩ := List.mem_map.1 hy
  exact h.taskNode_within (hxs x hx)

/-- The node of a role is from the supply. -/
theorem roleNode_within (h : g.From u site) (hr : g.HasRole r) : (g.roleNode r).Within u site where
  play := h.playPlaces_within (h.sound.roles r hr).play
  real := h.real r hr
  references := by rw [Graph.roleNode, List.map_map]; rfl
  tasks := h.taskNodes_within fun x hx => ((h.sound.roles r hr).tasks x hx).has

/-- The node of a play is from the supply. -/
theorem playNode_within (h : g.From u site) (hp : g.HasPlay p) : (g.playNode p).Within u site where
  target := h.targets p hp
  tasks := h.taskNodes_within fun x hx => ((h.sound.plays p hp).tasks x hx).has
  roles := by
    intro node hnode
    obtain ⟨r, hr, rfl⟩ := List.mem_map.1 hnode
    obtain ⟨_, -, hstands⟩ := (h.sound.plays p hp).roles r hr
    exact h.roleNode_within hstands.has

end Graph.From

/-! ## A supply -/

/-- No more is declared than there are files. -/
theorem length_declared {α : Type} (site : Site) (read : Document → Declaration.Decoded α) :
    (site.declared read).length ≤ site.disk.tree.files.length := List.length_filterMap_le _ _

theorem mem_declared {α : Type} {read : Document → Declaration.Decoded α} {path : FilePath}
    {text : String} {a : α} (hread : site.disk.read path = .ok text)
    (ha : Declaration.ofText read text = .ok a) : a ∈ site.declared read := by
  obtain ⟨names, hmem⟩ := Disk.mem_files hread
  refine List.mem_filterMap.2 ⟨_, hmem, ?_⟩
  show (Declaration.ofText read text).toOption = some a
  rw [ha]; rfl

theorem mem_declared_of_readDeclared {α : Type} {read : Document → Declaration.Decoded α}
    {path : FilePath} {a : α} (h : readDeclared site read path = .ok a) :
    a ∈ site.declared read := by
  unfold readDeclared at h
  cases hread : site.disk.read path with
  | error e => rw [hread] at h; cases h
  | ok text =>
    rw [hread] at h
    exact mem_declared hread (mapError_ok.1 h)

/-- The variables that a role may get from one of its files. -/
def Site.roleVars (site : Site) : List Variables := [] :: site.declared Declaration.vars

theorem readRoleVars_mem (site : Site) (path : FilePath) :
    site.readRoleVars path ∈ site.roleVars := by
  unfold Site.readRoleVars
  cases h : readDeclared site Declaration.vars path with
  | error e => exact List.mem_cons_self
  | ok vars => exact List.mem_cons_of_mem _ (mem_declared_of_readDeclared h)

/-- What one more file may make of what a role declares. -/
def Site.nextHeads (site : Site) (head : RoleHead) : List RoleHead :=
  head :: (site.roleVars.map fun vars => { head with defaults := head.defaults.assign vars }) ++
    (site.roleVars.map fun vars => { head with vars := head.vars.assign vars }) ++
    (site.declared Declaration.roleMeta).map fun m =>
      { head with dependencies := m.dependencies.map (·.name) }

/-- What some files may make of a role. -/
def Site.headsOf (site : Site) : Nat → List RoleHead
  | 0 => [⟨[], [], []⟩]
  | n + 1 => (site.headsOf n).flatMap site.nextHeads

theorem headsOf_mono {n m : Nat} (h : n ≤ m) : site.headsOf n ⊆ site.headsOf m := by
  induction h with
  | refl => exact List.Subset.refl _
  | step _ ih => exact fun head hhead => List.mem_flatMap.2 ⟨head, ih hhead, List.mem_cons_self⟩

theorem readBelow_next {selection : RoleSelection} {dir : FilePath} {text text' : RoleText}
    {names : List String} (h : site.readBelow selection dir text names = .ok text') :
    text'.toRoleHead ∈ site.nextHeads text.toRoleHead := by
  unfold Site.nextHeads
  rw [List.cons_append, List.cons_append, List.mem_cons, List.mem_append, List.mem_append]
  rcases readBelow_cases h with rfl | ⟨path, ds, -, rfl⟩ | ⟨path, rfl⟩ | ⟨path,
    rfl⟩ | ⟨path, m, hm, rfl⟩
  · exact Or.inl rfl
  · exact Or.inl rfl
  · exact Or.inr (Or.inl (Or.inl (List.mem_map.2 ⟨_, readRoleVars_mem site path, rfl⟩)))
  · exact Or.inr (Or.inl (Or.inr (List.mem_map.2 ⟨_, readRoleVars_mem site path, rfl⟩)))
  · exact Or.inr (Or.inr (List.mem_map.2 ⟨m, mem_declared_of_readDeclared hm, rfl⟩))

theorem FileTree.length_filesOf {entries : List (String × FileTree)} {name : String}
    {child : FileTree} (h : FileTree.child? entries name = some child) :
    child.files.length ≤ (FileTree.filesOf entries).length := by
  induction entries with
  | nil => cases h
  | cons e rest ih =>
    obtain ⟨key, tree⟩ := e
    rw [FileTree.filesOf, List.length_append, List.length_map]
    rw [FileTree.child?] at h
    split at h
    · cases h; exact Nat.le_add_right _ _
    · exact le_trans (ih h) (Nat.le_add_left _ _)

/-- There are no more files below a directory than in the tree. -/
theorem FileTree.length_files {tree node : FileTree} {names : List String}
    (h : tree.at? names = some node) : node.files.length ≤ tree.files.length := by
  induction names generalizing tree with
  | nil => rw [FileTree.at?] at h; cases h; exact le_rfl
  | cons name names ih =>
    rw [FileTree.at?] at h
    obtain ⟨child, hchild, hat⟩ := Option.bind_eq_some_iff.1 h
    cases tree with
    | file content => cases hchild
    | dir entries =>
      rw [FileTree.files]
      exact le_trans (ih hat) (FileTree.length_filesOf hchild)

theorem Disk.length_filesBelow {disk : Disk} {path : FilePath} {files : List (List String)}
    (h : disk.filesBelow path = .ok files) : files.length ≤ disk.tree.files.length := by
  unfold Disk.filesBelow Disk.node at h
  cases hr : disk.resolve path with
  | error e => simp [hr] at h
  | ok names =>
    cases hat : disk.tree.at? names with
    | none => simp [hr, hat] at h
    | some node =>
      simp only [hr, hat, Except.ok.injEq] at h
      rw [← h, List.length_map]
      exact FileTree.length_files hat

/-- **What a role declares** is made by no more files than there are. -/
theorem readRoleAt_head {selection : RoleSelection} {dir : FilePath} {text : RoleText}
    (h : site.readRoleAt selection dir = .ok text) :
    text.toRoleHead ∈ site.headsOf site.disk.tree.files.length := by
  refine (readRoleAt_keeps (P := fun front text => text.toRoleHead ∈ site.headsOf front.length) h
    (List.mem_singleton.2 rfl) ?_).elim ?_
  · intro front names text text' hmem hnext
    rw [List.length_append, List.length_singleton]
    exact List.mem_flatMap.2 ⟨_, hmem, readBelow_next hnext⟩
  · rintro files ⟨hfiles, hhead⟩
    exact headsOf_mono (Disk.length_filesBelow hfiles) hhead

/-- The playbooks that plays import, those of a graph and those that are declared. -/
def Site.targets (site : Site) (g : Graph) : List String :=
  (g.plays.toList.filterMap Play.importTarget?) ++
    site.declaredPlays.filterMap PlayDeclaration.importTarget?

/-- **A supply** for a site and a state. -/
def Site.supply (site : Site) (s : Store) : Supply where
  tasks :=
    (s.graph.tasks.toList.map fun x => ⟨.unknown, x.name, x.vars, x.raw, []⟩) ++ site.declaredTasks
  depth := taskBound site s
  heads := (List.range s.graph.roles.size).map (fun i => s.graph.roleHead ⟨i⟩) ++
    site.headsOf site.disk.tree.files.length
  plays := (List.range s.graph.plays.size).map (fun i => s.graph.playHead ⟨i⟩) ++
    (site.targets s.graph).flatMap fun target =>
      ((site.readPlays (site.root.join target) []).toOption.getD []).map (·.place.head)
  targets := site.targets s.graph

/-- A task that files declare, in a list or in a play, is from the supply. -/
theorem Site.supply_has {s : Store} {d : TaskDeclaration}
    (hd : d ∈ (site.declared Declaration.taskList).flatten ++
    site.declaredPlays.flatMap PlayDeclaration.tasks) : (site.supply s).Has d := by
  have hall : d.all.Sublist site.declaredTasks := by
    rw [Site.declaredTasks, TaskDeclaration.allOf_eq, List.flatMap_def]
    exact List.sublist_flatten_of_mem (List.mem_map_of_mem hd)
  constructor
  · exact fun d' hd' => List.mem_append_right _ (hall.subset hd')
  · exact le_trans hall.length_le (Nat.le_add_left _ _)

/-- The plays of a playbook that can be read are declared. -/
theorem readPlaybook_declared {path : FilePath} {ds : List PlayDeclaration}
    (h : site.readPlaybook path = .ok ds) : ds.Sublist site.declaredPlays := by
  unfold Site.readPlaybook at h
  cases hread : site.disk.read path with
  | error e => rw [hread] at h; cases h
  | ok text =>
    rw [hread] at h
    simp only [Except.ok.injEq] at h
    cases hds : Declaration.ofText Declaration.playbook text with
    | error e => rw [hds] at h; cases h; exact List.nil_sublist _
    | ok ds' =>
      rw [hds] at h
      cases h
      exact List.sublist_flatten_of_mem (mem_declared hread hds)

/-- What plays declare besides tasks is the same wherever they are imported. -/
theorem readPlays_heads {path : FilePath} {around : List Origin} {ps : List PlayNode}
    (h : site.readPlays path around = .ok ps) : ∃ ps', site.readPlays path [] = .ok ps' ∧
      ps.map (·.place.head) = ps'.map (·.place.head) := by
  obtain ⟨ds, hds, hplays⟩ := except_bind_ok.1 h
  rw [mapM_ok] at hplays
  have hthrough : List.Forall₂ (fun d (p : PlayNode) => ∃ p', site.readPlay path [] d = .ok p' ∧
      p'.place.head = p.place.head) ds ps := by
    refine hplays.imp fun d p hp => ?_
    obtain ⟨roles, hroles, hp⟩ := except_bind_ok.1 hp
    cases hp
    exact ⟨_, except_bind_ok.2 ⟨roles, hroles, rfl⟩, rfl⟩
  have hheads : List.Forall₂ (fun d (head : PlayHead) => ∃ p', site.readPlay path [] d = .ok p' ∧
      p'.place.head = head) ds (ps.map (·.place.head)) := List.forall₂_map_right_iff.2 hthrough
  obtain ⟨ps', hps', hmap⟩ := forall₂_through hheads
  exact ⟨ps', except_bind_ok.2 ⟨ds, hds, mapM_ok.2 hps'⟩, hmap⟩

/-- **The supply covers the site.** -/
theorem supply_covers (site : Site) (s : Store) : (site.supply s).Covers site where
  tasks := by
    intro path ds h d hd
    unfold Site.readTasks at h
    cases hread : site.disk.read path with
    | error e => rw [hread] at h; cases h
    | ok text =>
      rw [hread] at h
      have hlist := List.mem_flatten.2 ⟨ds, mem_declared hread (mapError_ok.1 h), hd⟩
      exact Site.supply_has (List.mem_append_left _ hlist)
  heads := by
    intro name selection r h
    obtain ⟨-, -, htext, -⟩ := readNamed_iff.1 h
    exact List.mem_append_right _ (readRoleAt_head htext)
  playTasks := by
    intro path ds h d hd d' hd'
    have hplay := (readPlaybook_declared h).subset hd
    exact Site.supply_has (List.mem_append_right _ (List.mem_flatMap.2 ⟨d, hplay, hd'⟩))
  targets := by
    intro path ds h d hd target htarget
    have hplay := (readPlaybook_declared h).subset hd
    exact List.mem_append_right _ (List.mem_filterMap.2 ⟨d, hplay, htarget⟩)
  plays := by
    intro target htarget around ps h p hp
    obtain ⟨ps', hps', hmap⟩ := readPlays_heads h
    refine List.mem_append_right _ (List.mem_flatMap.2 ⟨target, htarget, ?_⟩)
    rw [hps']
    show p.place.head ∈ ps'.map (·.place.head)
    rw [← hmap]
    exact List.mem_map_of_mem hp

/-- **The entities of a graph** are from the supply for it. -/
theorem Graph.from_supply {s : Store} (hs : s.graph.Sound)
    (hreal : ∀ r, s.graph.HasRole r → (s.graph.namedHead r).Real site) :
    s.graph.From (site.supply s) site where
  sound := hs
  real := hreal
  tasks := by
    intro x hx
    have hmem : s.graph.task x ∈ s.graph.tasks.toList := by
      rw [Graph.task, Array.getElem?_eq_getElem hx]
      exact Array.getElem_mem_toList hx
    exact ⟨_, List.mem_append_left _ (List.mem_map_of_mem hmem), rfl, rfl⟩
  depth := Nat.le_add_right _ _
  heads := by
    intro r hr
    exact List.mem_append_left _ (List.mem_map.2 ⟨r.index, List.mem_range.2 hr, rfl⟩)
  plays := by
    intro p hp
    exact List.mem_append_left _ (List.mem_map.2 ⟨p.index, List.mem_range.2 hp, rfl⟩)
  targets := by
    intro p hp target htarget
    have hmem : s.graph.play p ∈ s.graph.plays.toList := by
      rw [Graph.play, Array.getElem?_eq_getElem hp]
      exact Array.getElem_mem_toList hp
    exact List.mem_append_left _ (List.mem_filterMap.2 ⟨_, hmem, htarget⟩)

/-! ## The size of the supply -/

theorem length_flatMap_le {α β : Type} {f : α → List β} {l : List α} {k : Nat}
    (h : ∀ a ∈ l, (f a).length ≤ k) : (l.flatMap f).length ≤ l.length * k := by
  induction l with
  | nil => exact Nat.zero_le _
  | cons a l ih =>
    have hfirst := h a List.mem_cons_self
    have hrest := ih fun a ha => h a (List.mem_cons_of_mem _ ha)
    rw [List.flatMap_cons, List.length_append, List.length_cons, Nat.succ_mul]
    omega

theorem length_supply_tasks (site : Site) (s : Store) :
    (site.supply s).tasks.length = taskBound site s := by
  rw [Site.supply, List.length_append, List.length_map, Array.length_toList, taskBound]

/-- One more file makes of what a role declares one of so many. -/
theorem length_nextHeads (site : Site) (head : RoleHead) :
    (site.nextHeads head).length ≤ 3 * (site.disk.tree.files.length + 1) := by
  have hvars := length_declared site Declaration.vars
  have hmeta := length_declared site Declaration.roleMeta
  simp only [Site.nextHeads, Site.roleVars, List.length_append, List.length_cons, List.length_map]
  omega

theorem length_headsOf (site : Site) (n : Nat) :
    (site.headsOf n).length ≤ (3 * (site.disk.tree.files.length + 1)) ^ n := by
  induction n with
  | zero => exact le_rfl
  | succ n ih =>
    have hnext :=
      length_flatMap_le fun head (_ : head ∈ site.headsOf n) => length_nextHeads site head
    rw [pow_succ]
    exact le_trans hnext (Nat.mul_le_mul_right _ ih)

/-- **No more roles differ** than the bound says. -/
theorem length_supply_heads (site : Site) (s : Store) :
    (site.supply s).heads.length ≤ headBound site s := by
  have hfiles := length_headsOf site site.disk.tree.files.length
  simp only [Site.supply, List.length_append, List.length_map, List.length_range,
    headBound, Nat.pow_eq]
  omega

/-- The plays of a playbook are no more than are declared. -/
theorem length_readPlays (site : Site) (path : FilePath) (around : List Origin) :
    ((site.readPlays path around).toOption.getD []).length ≤ site.declaredPlays.length := by
  cases h : site.readPlays path around with
  | error e => exact Nat.zero_le _
  | ok ps =>
    obtain ⟨ds, hds, hplays⟩ := except_bind_ok.1 h
    have hlength : ds.length = ps.length := (mapM_ok.1 hplays).length_eq
    have hdeclared := (readPlaybook_declared hds).length_le
    show ps.length ≤ _
    omega

/-- **No more plays differ** than the bound says. -/
theorem length_supply_plays (site : Site) (s : Store) :
    (site.supply s).plays.length ≤ playBound site s := by
  have htargets :
      (site.targets s.graph).length ≤ s.graph.plays.size + site.declaredPlays.length := by
    have hloaded : (s.graph.plays.toList.filterMap Play.importTarget?).length ≤
        s.graph.plays.size :=
      List.length_filterMap_le _ _
    have hdeclared := List.length_filterMap_le PlayDeclaration.importTarget? site.declaredPlays
    rw [Site.targets, List.length_append]
    omega
  have himported : ((site.targets s.graph).flatMap fun target =>
      ((site.readPlays (site.root.join target) []).toOption.getD []).map (·.place.head)).length ≤
      (s.graph.plays.size + site.declaredPlays.length) * site.declaredPlays.length := by
    refine le_trans (length_flatMap_le fun target _ => ?_) (Nat.mul_le_mul_right _ htargets)
    rw [List.length_map]
    exact length_readPlays site _ []
  simp only [Site.supply, List.length_append, List.length_map, List.length_range,
    playBound] at himported ⊢
  omega

end Runlist
