import Runlist.Proofs.Expand.Ways

/-!
# States that are reached

A state is reached by any requests, one after the other, that succeed or fail. The handles in a
request are those of the state; the tree of files may be another one at every request.

* `Request`: what may be asked. `Request.run`: the state afterwards.
* `Reaches`: one state is reached from another. `Reachable`: from the one with nothing loaded.
* `Request.advances`: **every request only goes on.**
* `Reachable.sound`, `Reachable.faithful`: what holds of every state that is reached.
-/

namespace Runlist

/-- What may be asked. A request about several entities is one about each of them in turn. -/
inductive Request where
  | tasks (origin : Option OriginId) (role : Option RoleId) (path : FilePath)
  | playbook (origin : Option OriginId) (path : FilePath)
  | role (origin : Option OriginId) (play : Option PlayId) (name : String)
      (selection : RoleSelection)
  | directDependencies (role : RoleId)
  | allDependencies (role : RoleId)
  | defaultVars (role : RoleId)
  | vars (play : Option PlayId) (task : Option TaskId)
  | taskVars (task : TaskId)
  | module (t : Templater) (task : TaskId) (action : String)
  | text (t : Templater) (task : TaskId) (action : String)
  | expandTask (t : Templater) (bound : Nat) (opened : List String) (task : TaskId)
  | expandRole (t : Templater) (bound : Nat) (opened : List String) (role : RoleId)
  | expandPlay (t : Templater) (bound : Nat) (opened : List String) (play : PlayId)
  | expandPlaybook (t : Templater) (bound : Nat) (opened : List String) (playbook : Playbook)

namespace Request

/-- The handles in a request are those of the graph. -/
def Valid (g : Graph) : Request → Prop
  | tasks origin owner _ =>
    (∀ o, origin = some o → g.HasOrigin o) ∧ ∀ r, owner = some r → g.HasRole r
  | playbook origin _ => ∀ o, origin = some o → g.HasOrigin o
  | role origin play _ _ =>
    (∀ o, origin = some o → g.HasOrigin o) ∧ ∀ p, play = some p → g.HasPlay p
  | directDependencies r => g.HasRole r
  | allDependencies r => g.HasRole r
  | defaultVars r => g.HasRole r
  | vars play task => (∀ p, play = some p → g.HasPlay p) ∧ ∀ x, task = some x → g.HasTask x
  | taskVars x => g.HasTask x
  | module _ x _ => g.HasTask x
  | text _ x _ => g.HasTask x
  | expandTask _ _ _ x => g.HasTask x
  | expandRole _ _ _ r => g.HasRole r
  | expandPlay _ _ _ p => g.HasPlay p
  | expandPlaybook _ _ _ pb => ∀ p ∈ pb.plays, g.HasPlay p

/-- The state after a request, however it ends. -/
def run (site : Site) (s : Store) : Request → Store
  | tasks origin owner path => ((loadTasks site origin owner path).run.run s).2
  | playbook origin path => ((loadPlaybook site origin path).run.run s).2
  | role origin play name selection => ((loadRoleWith site origin play name selection).run.run s).2
  | directDependencies r => ((Runlist.directDependencies site r).run.run s).2
  | allDependencies r => ((Runlist.allDependencies site r).run.run s).2
  | defaultVars r => ((Runlist.defaultVars site r).run.run s).2
  | vars play task => ((resolveVars site play task).run.run s).2
  | taskVars x => ((Runlist.taskVars site x).run.run s).2
  | module t x action => ((renderModule site t x action).run.run s).2
  | text t x action => ((renderText site t x action).run.run s).2
  | expandTask t n opened x => ((Runlist.expandTask site t n x).run.run ⟨s, opened⟩).2.store
  | expandRole t n opened r => ((Runlist.expandRole site t n r).run.run ⟨s, opened⟩).2.store
  | expandPlay t n opened p => ((Runlist.expandPlay site t n p).run.run ⟨s, opened⟩).2.store
  | expandPlaybook t n opened pb =>
    ((Runlist.expandPlaybook site t n pb).run.run ⟨s, opened⟩).2.store

end Request

section Expand

variable {site : Site} {t : Templater} {e : Expansion}

theorem expandTask_ends (n : Nat) {x : TaskId} (hs : e.store.graph.Sound)
    (hx : e.store.graph.HasTask x) :
    Ends (expandTask site t n x) e (fun _ e' => Advances site e.store e'.store)
      fun _ e' => Advances site e.store e'.store := by
  rw [← traceTask_erase n [] x, ends_map]
  exact (traceTask_leads n [] x e hs hx).mono (fun _ _ h => h.1) fun _ _ h => h

theorem expandRoleOn_ends (n : Nat) {r : RoleId} (path : List String) (hs : e.store.graph.Sound)
    (hr : e.store.graph.HasRole r) :
    Ends (expandRoleOn site t n r path) e (fun _ e' => Advances site e.store e'.store)
      fun _ e' => Advances site e.store e'.store := by
  rw [← traceRoleOn_erase n [] r path, ends_map]
  exact (traceRoleOn_leads n [] r path e hs hr).mono (fun _ _ h => h.1) fun _ _ h => h

theorem expandPlay_ends (n : Nat) {p : PlayId} (hs : e.store.graph.Sound)
    (hp : e.store.graph.HasPlay p) :
    Ends (expandPlay site t n p) e (fun _ e' => Advances site e.store e'.store)
      fun _ e' => Advances site e.store e'.store := by
  rw [← tracePlay_erase n p, ends_map]
  exact (tracePlay_leads n p e hs hp).mono (fun _ _ h => h.1) fun _ _ h => h

theorem expandPlaybook_ends (n : Nat) {pb : Playbook} (hs : e.store.graph.Sound)
    (hp : ∀ p ∈ pb.plays, e.store.graph.HasPlay p) :
    Ends (expandPlaybook site t n pb) e (fun _ e' => Advances site e.store e'.store)
      fun _ e' => Advances site e.store e'.store := by
  rw [← tracePlaybook_erase n pb, ends_map]
  exact (tracePlaybook_leads n pb e hs hp).mono (fun _ _ h => h.1) fun _ _ h => h

end Expand

variable {site : Site} {s s₁ s₂ : Store} {sites : Site → Prop}

/-- **Every request only goes on**, however it ends. -/
theorem Request.advances (hs : s.graph.Sound) {q : Request} (h : q.Valid s.graph) :
    Advances site s (q.run site s) := by
  cases q with
  | tasks origin role path =>
    have ha : s.graph.Admits ⟨path, role, none⟩ origin none := by
      refine ⟨h.2, ?_, h.1, ?_⟩
      · rintro _ ⟨⟩
      · rintro _ ⟨⟩
    exact (loadTasksIn_ends hs ha).state (fun _ _ h => h.1.advances) fun _ _ h => h.1.advances
  | playbook origin path =>
    exact (loadPlaybook_ends hs h path).state (fun _ _ h => h.1.advances) fun _ _ h => h.1.advances
  | role origin play name selection =>
    exact (loadRoleWith_ends hs h.1 h.2 name selection).state (fun _ _ h => h.1.advances)
      fun _ _ h => h.1.advances
  | directDependencies r =>
    exact (directDependencies_ends hs h).state (fun _ _ h => h.learns.toAdvances)
      fun _ _ h => h.1.toAdvances
  | allDependencies r =>
    exact (allDependencies_ends hs h).state (fun _ _ h => h.learns.toAdvances)
      fun _ _ h => h.1.toAdvances
  | defaultVars r =>
    refine (defaultVars_ends hs h).state ?_ fun _ _ h => h.1.toAdvances
    rintro _ _ ⟨_, h, -⟩; exact h.learns.toAdvances
  | vars play task =>
    exact (resolveVars_ends hs h.1 h.2).state (fun _ _ h => h.1.toAdvances)
      fun _ _ h => h.1.toAdvances
  | taskVars x => exact (taskVars_ends hs h).state (fun _ _ h => h.1) fun _ _ h => h
  | module t x action => exact (renderModule_ends hs h).state (fun _ _ h => h.1) fun _ _ h => h
  | text t x action => exact (renderText_ends hs h).state (fun _ _ h => h) fun _ _ h => h
  | expandTask t n opened x =>
    exact Ends.state (P := fun e => Advances site s e.store)
      (expandTask_ends (e := ⟨s, opened⟩) n hs h) (fun _ _ h => h) fun _ _ h => h
  | expandRole t n opened r =>
    exact Ends.state (P := fun e => Advances site s e.store)
      (expandRoleOn_ends (e := ⟨s, opened⟩) n [] hs h) (fun _ _ h => h) fun _ _ h => h
  | expandPlay t n opened p =>
    exact Ends.state (P := fun e => Advances site s e.store)
      (expandPlay_ends (e := ⟨s, opened⟩) n hs h) (fun _ _ h => h) fun _ _ h => h
  | expandPlaybook t n opened pb =>
    exact Ends.state (P := fun e => Advances site s e.store)
      (expandPlaybook_ends (e := ⟨s, opened⟩) n hs h) (fun _ _ h => h) fun _ _ h => h

/-! ## Runs -/

/-- **One state is reached from another** by requests over some sites: over one site, if the tree of
files never changes. -/
inductive Reaches (sites : Site → Prop) (s : Store) : Store → Prop
  | refl : Reaches sites s s
  | step {s₁ : Store} {site : Site} {q : Request} : Reaches sites s s₁ → sites site →
      q.Valid s₁.graph → Reaches sites s (q.run site s₁)

/-- A state that is reached from the one with nothing loaded. -/
def Reachable (sites : Site → Prop) (s : Store) : Prop := Reaches sites .empty s

theorem Reaches.sound (h : Reaches sites s s₁) (hs : s.graph.Sound) : s₁.graph.Sound := by
  induction h with
  | refl => exact hs
  | step _ _ hq ih => exact (Request.advances ih hq).sound ih

theorem Reaches.grows (h : Reaches sites s s₁) (hs : s.graph.Sound) : s.graph.Grows s₁.graph := by
  induction h with
  | refl => exact Graph.Grows.refl _
  | step hr _ hq ih => exact ih.trans (Request.advances (hr.sound hs) hq).grows

/-- Over one site, the run only goes on. -/
theorem Reaches.advances (h : Reaches (· = site) s s₁) (hs : s.graph.Sound) :
    Advances site s s₁ := by
  induction h with
  | refl => exact .refl s
  | step hr hsite hq ih =>
    subst hsite
    exact ih.trans (Request.advances (hr.sound hs) hq)

/-- **Every graph that is reached is sound.** -/
theorem Reachable.sound (h : Reachable sites s) : s.graph.Sound := Reaches.sound h Graph.sound_empty

theorem faithful_empty (site : Site) : Faithful site .empty where
  dirs _ := rfl
  real _ _ r hr := absurd hr (Nat.not_lt_zero _)
  direct r ds h := by rw [Graph.role_of_not_has (Nat.not_lt_zero _)] at h; cases h
  cached x vars h := by rw [Graph.task_of_not_has (Nat.not_lt_zero _)] at h; cases h

/-- **Every state that is reached over one site** remembers what its documents say. -/
theorem Reachable.faithful (h : Reachable (· = site) s) : Faithful site s :=
  (Reaches.advances h Graph.sound_empty).faithful Graph.sound_empty (faithful_empty site)

/-- What a playbook leaves that was loaded into an empty state. -/
theorem reachable_loadPlaybook (site : Site) (path : FilePath) :
    Reachable (· = site) ((loadPlaybook site none path).run.run .empty).2 := by
  have hvalid : (Request.playbook none path).Valid Store.empty.graph := by rintro _ ⟨⟩
  have hreach : Reachable (· = site) ((Request.playbook none path).run site .empty) :=
    .step .refl rfl hvalid
  rwa [Request.run] at hreach

/-- What a file of tasks leaves that was loaded into an empty state. -/
theorem reachable_loadTasks (site : Site) (path : FilePath) :
    Reachable (· = site) ((loadTasks site none none path).run.run .empty).2 := by
  have hvalid : (Request.tasks none none path).Valid Store.empty.graph := by
    refine ⟨?_, ?_⟩ <;> rintro _ ⟨⟩
  have hreach : Reachable (· = site) ((Request.tasks none none path).run site .empty) :=
    .step .refl rfl hvalid
  rwa [Request.run] at hreach

/-! ## A small site -/

/-- A playbook with an included file of tasks, and a role that depends on another one. -/
def smallSite : Site where
  disk := ⟨.dir [
    ("more.yml", .file (.text "- block:\n  - debug:\n")),
    ("roles", .dir [
      ("base", .dir [
        ("defaults", .dir [("main.yml", .file (.text "port: 1\n"))]),
        ("tasks", .dir [("main.yml", .file (.text "- ping:\n"))])]),
      ("web", .dir [("meta", .dir [("main.yml", .file (.text "dependencies:\n  - base\n"))])])]),
    ("site.yml", .file (.text
      "- hosts: all\n  vars:\n    port: 2\n  roles:\n    - web\n  tasks:\n    - include_tasks: more.yml\n"))], []⟩
  root := ⟨"."⟩
  config := ⟨[]⟩

theorem ordered_small : smallSite.disk.tree.Ordered := by
  unfold smallSite
  simp only [FileTree.Ordered, FileTree.OrderedEntries]
  decide

/-- Its playbook, loaded first. -/
def smallPlaybook : Playbook := ⟨⟨"site.yml"⟩, [⟨0⟩]⟩

/-- The playbook is loaded into an empty state. -/
def smallLoad : Except LoadError Playbook × Store :=
  (loadPlaybook smallSite none ⟨"site.yml"⟩).run.run .empty

/-- The playbook is expanded in the state in which it was loaded. -/
def smallExpansion : Except ExpandError (List TaskId) × Expansion :=
  (expandPlaybook smallSite (.ofMode false) 10 smallPlaybook).run.run ⟨smallLoad.2, []⟩

/-- The playbook is loaded, with its play and the directive of the play. -/
theorem small_loaded : smallLoad.1.toOption = some smallPlaybook ∧ smallLoad.2.graph.HasPlay ⟨0⟩ ∧
    smallLoad.2.graph.HasTask ⟨0⟩ := by decide +kernel

theorem smallLoad_ok : smallLoad = (.ok smallPlaybook, smallLoad.2) := run_ok small_loaded.1

/-- The task of the block was loaded fourth, the one of the dependency second. -/
theorem smallExpansion_ok : smallExpansion = (.ok [⟨3⟩, ⟨1⟩], smallExpansion.2) := by
  have h : smallExpansion.1.toOption = some [⟨3⟩, ⟨1⟩] := by decide +kernel
  exact run_ok h

theorem has_small : smallLoad.2.graph.HasPlay ⟨0⟩ ∧ smallLoad.2.graph.HasTask ⟨0⟩ := small_loaded.2

theorem reachable_small : Reachable (· = smallSite) smallLoad.2 :=
  reachable_loadPlaybook smallSite ⟨"site.yml"⟩

/-! ## A site that includes itself -/

/-- A file of tasks that includes itself, under another spelling of its path. -/
def loopSite : Site where
  disk := ⟨.dir [("loop.yml", .file (.text "- include_tasks: ./loop.yml\n"))], []⟩
  root := ⟨"."⟩
  config := ⟨[]⟩

theorem ordered_loop : loopSite.disk.tree.Ordered := by
  unfold loopSite
  simp only [FileTree.Ordered, FileTree.OrderedEntries]
  decide

/-- The file is loaded into an empty state. -/
def loopLoad : Except LoadError (List TaskId) × Store :=
  (loadTasks loopSite none none ⟨"loop.yml"⟩).run.run .empty

theorem has_loop : loopLoad.2.graph.HasTask ⟨0⟩ := by decide +kernel

theorem reachable_loop : Reachable (· = loopSite) loopLoad.2 :=
  reachable_loadTasks loopSite ⟨"loop.yml"⟩

end Runlist
