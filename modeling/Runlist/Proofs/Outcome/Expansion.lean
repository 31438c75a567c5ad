import Runlist.Proofs.Outcome.Variables

/-!
# Expansion as the documents have it

Whatever was asked before, an entity is expanded to the leaves of its node, or fails as the node
does.

* `Follows`: a step ends as an outcome says.
* `expandTask_follows`, `expandRoleOn_follows`: **tasks and roles have the outcomes of their
  nodes.**
* `expandPlay_follows`, `expandPlaybook_follows`: the same of plays and playbooks.
-/

namespace Runlist

variable {site : Site} {t : Templater} {e : Expansion} {x c : TaskId} {r d : RoleId} {p : PlayId}

/-! ## Steps that follow an outcome -/

/-- The leaves of some tasks of a state. -/
structure LeavesOf (ids : List TaskId) (leaves : List Leaf) (s : Store) : Prop where
  has : ∀ x ∈ ids, s.graph.HasTask x
  leaves : leaves = ids.map s.graph.leaf

namespace LeavesOf

variable {s s' : Store} {ids ids' : List TaskId} {leaves leaves' : List Leaf}

theorem nil (s : Store) : LeavesOf [] [] s := ⟨fun _ h => (List.not_mem_nil h).elim, rfl⟩

theorem append (h : LeavesOf ids leaves s) (h' : LeavesOf ids' leaves' s) :
    LeavesOf (ids ++ ids') (leaves ++ leaves') s where
  has x hx := (List.mem_append.1 hx).elim (h.has x) (h'.has x)
  leaves := by rw [h.leaves, h'.leaves, List.map_append]

theorem stays (hs : s.graph.Sound) (hst : s.graph.Stays s'.graph) (h : LeavesOf ids leaves s) :
    LeavesOf ids leaves s' where
  has x hx := hst.keeps.hasTask (h.has x hx)
  leaves :=
    h.leaves.trans (List.map_congr_left fun x hx => (Graph.leaf_stays hs hst (h.has x hx)).symm)

end LeavesOf

/-- A state that is gone on to, with the same targets open. -/
structure GoesOn (site : Site) (e e' : Expansion) : Prop where
  advances : Advances site e.store e'.store
  opened : e'.opened = e.opened

theorem GoesOn.refl (e : Expansion) : GoesOn site e e := ⟨.refl _, rfl⟩

theorem GoesOn.trans {e₁ e₂ e₃ : Expansion} (h : GoesOn site e₁ e₂) (h' : GoesOn site e₂ e₃) :
    GoesOn site e₁ e₃ := ⟨h.advances.trans h'.advances, h'.opened.trans h.opened⟩

/-- **A step ends as an outcome says**; the targets that are open afterwards are those from
before. -/
def Follows (site : Site) (step : Expand (List TaskId)) (e : Expansion)
    (o : Except ExpandError (List Leaf)) : Prop :=
  Ends step e (fun ids e' => GoesOn site e e' ∧ ∃ leaves, o = .ok leaves ∧
    LeavesOf ids leaves e'.store)
    fun err e' => GoesOn site e e' ∧ o = .error err.bare

/-- A loop follows the outcomes of its rounds. -/
theorem concatEach_follows {α : Type} {f : α → Expand (List TaskId)}
    {o : α → Except ExpandError (List Leaf)} {l : List α} (hs : e.store.graph.Sound)
    (round : ∀ a ∈ l, ∀ e₁, GoesOn site e e₁ → Follows site (f a) e₁ (o a)) :
    Follows site (concatEach f l) e (concatEach o l) := by
  refine (Ends.concatEach_beside (R := GoesOn site) (o := o) (v := ExpandError.bare)
    (P := fun ids leaves e' => e'.store.graph.Sound ∧ LeavesOf ids leaves e'.store)
    GoesOn.refl GoesOn.trans
    (fun h hP => ⟨h.advances.sound hP.1, hP.2.stays hP.1 h.advances.grows.toStays⟩)
    (fun hP hP' => ⟨hP.1, hP.2.append hP'.2⟩) (fun e' h => ⟨h.advances.sound hs, .nil _⟩)
    fun a ha e₁ h₁ => ?_).mono ?_ fun _ _ h => h
  · refine (round a ha e₁ h₁).mono ?_ fun _ _ h => h
    rintro ids e₂ ⟨h₂, leaves, ho, hleaves⟩
    exact ⟨h₂, leaves, ho, (h₁.trans h₂).advances.sound hs, hleaves⟩
  · rintro ids e' ⟨h, leaves, ho, -, hleaves⟩
    exact ⟨h, leaves, ho, hleaves⟩

/-- A loop over entities has the outcomes of their nodes. -/
theorem concatEach_nodes {α ν : Type} {H : Graph → α → Prop} {N : Graph → α → ν}
    {f : α → Expand (List TaskId)} {o : List String → ν → Except ExpandError (List Leaf)}
    (keeps : ∀ {g g' a}, g.Keeps g' → H g a → H g' a)
    (stays : ∀ {g g' a}, g.Sound → g.Stays g' → H g a → N g' a = N g a)
    (hexpand : ∀ a (e : Expansion), e.store.graph.Sound → Faithful site e.store →
      H e.store.graph a →
      Follows site (f a) e (o e.opened (N e.store.graph a))) {l : List α} (hs : e.store.graph.Sound)
    (hf : Faithful site e.store) (hl : ∀ a ∈ l, H e.store.graph a) :
    Follows site (concatEach f l) e (concatEach (o e.opened) (l.map (N e.store.graph))) := by
  rw [concatEach_of_map]
  refine concatEach_follows hs fun a ha e₁ h₁ => ?_
  have hround := hexpand a e₁ (h₁.advances.sound hs) (h₁.advances.faithful hs hf)
    (keeps h₁.advances.grows.keeps (hl a ha))
  rw [stays hs h₁.advances.grows.toStays (hl a ha), h₁.opened] at hround
  exact hround

/-- A loop over tasks. -/
theorem concatEach_tasks {f : TaskId → Expand (List TaskId)}
    {o : List String → TaskNode → Except ExpandError (List Leaf)}
    (hexpand : ∀ c (e : Expansion), e.store.graph.Sound → Faithful site e.store →
      e.store.graph.HasTask c →
      Follows site (f c) e (o e.opened (e.store.graph.taskNode c))) {l : List TaskId}
    (hs : e.store.graph.Sound) (hf : Faithful site e.store)
      (hl : ∀ c ∈ l, e.store.graph.HasTask c) :
    Follows site (concatEach f l) e (concatEach (o e.opened) (l.map e.store.graph.taskNode)) :=
  concatEach_nodes (H := Graph.HasTask) (N := Graph.taskNode) (fun h => h.hasTask)
    (fun hs h => Graph.taskNode_stays hs h) hexpand hs hf hl

/-- A loop over roles. -/
theorem concatEach_roles {f : RoleId → Expand (List TaskId)}
    {o : List String → RoleNode → Except ExpandError (List Leaf)}
    (hexpand : ∀ r (e : Expansion), e.store.graph.Sound → Faithful site e.store →
      e.store.graph.HasRole r →
      Follows site (f r) e (o e.opened (e.store.graph.roleNode r))) {l : List RoleId}
    (hs : e.store.graph.Sound) (hf : Faithful site e.store)
      (hl : ∀ r ∈ l, e.store.graph.HasRole r) :
    Follows site (concatEach f l) e (concatEach (o e.opened) (l.map e.store.graph.roleNode)) :=
  concatEach_nodes (H := Graph.HasRole) (N := Graph.roleNode) (fun h => h.hasRole)
    (fun hs h => Graph.roleNode_stays hs h) hexpand hs hf hl

/-- What follows an outcome after something was loaded follows it from before. -/
theorem Follows.after {step : Expand (List TaskId)} {o : Except ExpandError (List Leaf)}
    {e₁ : Expansion} (h : GoesOn site e e₁) (hstep : Follows site step e₁ o) :
    Ends step e₁ (fun ids e' => GoesOn site e e' ∧ ∃ leaves, o = .ok leaves ∧
      LeavesOf ids leaves e'.store)
      fun err e' => GoesOn site e e' ∧ o = .error err.bare :=
  hstep.mono (fun _ _ h' => ⟨h.trans h'.1, h'.2⟩) fun _ _ h' => ⟨h.trans h'.1, h'.2⟩

/-- One step after the other. -/
theorem Follows.append {step step' : Expand (List TaskId)} {o o' : Except ExpandError (List Leaf)}
    (hs : e.store.graph.Sound) (h : Follows site step e o)
    (h' : ∀ e₁, GoesOn site e e₁ → Follows site step' e₁ o') :
    Follows site (do return (← step) ++ (← step')) e (do return (← o) ++ (← o')) := by
  unfold Follows
  simp only [ends_bind, ends_pure]
  refine h.mono ?_ ?_
  · rintro ids e₁ ⟨h₁, leaves, ho, hleaves⟩
    have hs₁ := h₁.advances.sound hs
    refine (h' e₁ h₁).mono ?_ ?_
    · rintro others e₂ ⟨h₂, leaves', ho', hleaves'⟩
      refine ⟨h₁.trans h₂, leaves ++ leaves', ?_,
        (hleaves.stays hs₁ h₂.advances.grows.toStays).append hleaves'⟩
      rw [ho, ho']; rfl
    · rintro err e₂ ⟨h₂, ho'⟩
      refine ⟨h₁.trans h₂, ?_⟩
      rw [ho, ho']; rfl
  · rintro err e₁ ⟨h₁, ho⟩
    refine ⟨h₁, ?_⟩
    rw [ho]; rfl

/-! ## Directives -/

/-- A step ends as an outcome says, whatever it leaves behind. -/
def Tells (step : Expand (List TaskId)) (e : Expansion)
    (o : Except ExpandError (List Leaf)) : Prop :=
  Ends step e
    (fun ids e' => e'.opened = e.opened ∧ ∃ leaves, o = .ok leaves ∧ LeavesOf ids leaves e'.store)
    fun err e' => e'.opened = e.opened ∧ o = .error err.bare

theorem Tells.follows {step : Expand (List TaskId)} {o : Except ExpandError (List Leaf)}
    (h : Tells step e o)
    (hadv : Ends step e (fun _ e' => Advances site e.store e'.store) fun _ e' =>
      Advances site e.store e'.store) :
    Follows site step e o :=
  (hadv.and h).mono (fun _ _ h => ⟨⟨h.1, h.2.1⟩, h.2.2⟩) fun _ _ h => ⟨⟨h.1, h.2.1⟩, h.2.2⟩

theorem inside_opened {α : Type} {opened : List String} {target : Target}
    {step : List String → Except ExpandError α} (h : target.key site.disk ∈ opened) :
    site.inside opened target step =
      .error (.cyclicInclude (cycleOf opened (target.key site.disk))) :=
  if_pos (List.contains_iff_mem.2 h)

theorem inside_closed {α : Type} {opened : List String} {target : Target}
    {step : List String → Except ExpandError α} (h : target.key site.disk ∉ opened) :
    site.inside opened target step = step (opened ++ [target.key site.disk]) :=
  if_neg fun hopen => h (List.contains_iff_mem.1 hopen)

/-- What is seen of the failure of a directive. -/
theorem ends_failed_within {origin : OriginId} {target : String} {err : ExpandError}
    {chain : List Origin} {Q : List TaskId → Expansion → Prop} {E : ExpandError → Expansion → Prop}
    (hchain : (e.store.graph.provenance origin).map Origin.bare = chain)
    (h : ∀ err', err'.bare = ExpandError.within chain target err.bare → E err' e) :
    Ends (Expand.failed origin target err) e Q E := by
  rw [ends_failed_iff]
  subst hchain
  refine h _ ?_
  cases err <;> rfl

/-- The chain of a directive, in any state that was gone on to. -/
theorem chain_taskNode {s s' : Store} (hs : s.graph.Sound) (hs' : s'.graph.Sound)
    (k : s.graph.Keeps s'.graph) (hx : s.graph.HasTask x) :
    (s'.graph.provenance (s.graph.task x).origin).map Origin.bare = (s.graph.taskNode x).chain := by
  obtain ⟨-, -, -, -, htrail⟩ := s.graph.taskNode_fields x
  have ho := (hs.tasks x hx).origin
  rw [Graph.provenance_bare hs'.origins (k.hasOrigin ho), Graph.trail_keeps k ho,
    TaskNode.chain, htrail]

/-- What a directive adopts is seen as before. -/
theorem LeavesOf.adopt {ids : List TaskId} {leaves : List Leaf} (h : LeavesOf ids leaves e.store)
    (x : TaskId) : LeavesOf ids leaves (e.close.adopt ids x).store where
  has y hy := (Graph.leaf_adopt _ _ _ y).2.2 (h.has y hy)
  leaves :=
    h.leaves.trans (List.map_congr_left fun y _ => (Graph.leaf_adopt e.store.graph ids x y).1.symm)

/-- **A directive** has the outcome of its target, once its parameters are read. -/
theorem expandDirective_tells {α : Type} {read : Json → Except ShapeError α}
    {textKey action : String} (hs : e.store.graph.Sound) (hf : Faithful site e.store)
    (hordered : site.disk.tree.Ordered) (hx : e.store.graph.HasTask x) {target : α → Target}
    {text : α → String} {step : α → Graph → Expand (List TaskId)}
    {outcome : α → List String → Except ExpandError (List Leaf)}
    (hstep : ∀ params e₁ opened, Advances site e.store e₁ →
      Follows site (step params e₁.graph) ⟨e₁, opened⟩ (outcome params opened)) :
    let node := e.store.graph.taskNode x
    Tells (expandDirective site x (e.store.graph.task x).origin action
      (includeParams site t read textKey x action)
      target text step) e (do
        let params ← (node.params site t read textKey action).mapError (.within node.chain action)
        (site.inside e.opened (target params) (outcome params)).mapError
          (.within node.chain (text params))) := by
  have hchain : ∀ {s : Store}, Advances site e.store s → _ := fun {s} h =>
    chain_taskNode hs (h.sound hs) h.grows.keeps hx
  refine ends_expandDirective ((includeParams_follows hs hf hordered hx).mono ?_ ?_)
  · rintro params e₁ ⟨h₁, hopened, hparams⟩
    rw [hparams, ← hopened]
    refine ⟨fun hopen => ⟨rfl, ?_⟩, fun hclosed => (hstep params e₁.store _ h₁).mono ?_ ?_⟩
    · exact mapError_error.2 ⟨_, inside_opened hopen, rfl⟩
    · rintro ids e₂ ⟨h₂, leaves, ho, hleaves⟩
      refine ⟨?_, leaves, ?_, hleaves.adopt x⟩
      · exact (congrArg List.dropLast h₂.opened).trans List.dropLast_concat
      · exact mapError_ok.2 ((inside_closed hclosed).trans ho)
    · rintro err e₂ ⟨h₂, ho⟩
      refine ends_failed_within (hchain (h₁.trans h₂.advances)) fun err' herr => ⟨?_, ?_⟩
      · exact (congrArg List.dropLast h₂.opened).trans List.dropLast_concat
      · exact mapError_error.2 ⟨_, (inside_closed hclosed).trans ho, herr.symm⟩
  · rintro err e₁ ⟨h₁, hopened, hparams⟩
    refine ends_failed_within (hchain h₁) fun err' herr => ⟨hopened, ?_⟩
    rw [hparams, herr]; rfl

/-- **A directive that includes a file of tasks** has the outcome of the file. -/
theorem expandTaskInclude_tells (hs : e.store.graph.Sound) (hf : Faithful site e.store)
    (hordered : site.disk.tree.Ordered) (hx : e.store.graph.HasTask x) {action : String}
    {expand : TaskId → Expand (List TaskId)}
    {outcome : List String → TaskNode → Except ExpandError (List Leaf)}
    (hexpand : ∀ c (e : Expansion), e.store.graph.Sound → Faithful site e.store →
      e.store.graph.HasTask c →
      Follows site (expand c) e (outcome e.opened (e.store.graph.taskNode c))) :
    Tells (expandTaskInclude site t expand x action) e
      ((e.store.graph.taskNode x).fileOutcome site t outcome e.opened action) := by
  obtain ⟨hplace, hpath, -, -, htrail⟩ := e.store.graph.taskNode_fields x
  unfold TaskNode.fileOutcome
  rw [hpath, hplace, htrail]
  refine (ends_congr (run_expandTaskInclude ..)).2
    (expandDirective_tells hs hf hordered hx fun params s₁ opened h₁ => ?_)
  dsimp only
  generalize (e.store.graph.taskPath x).directory.join params.file = file
  unfold Follows
  rw [ends_bind, ends_load]
  refine (loadTasks_included hs hx h₁ file).mono ?_ ?_
  · rintro xs s₂ ⟨h₂, hstamped, ds, hread, hshows⟩
    have h₁₂ := h₁.trans h₂.advances
    have hs₂ := h₁₂.sound hs
    have hf₂ := h₁₂.faithful hs hf
    -- what was loaded stands where the directive stands
    have hnodes : xs.map s₂.graph.taskNode =
        ds.map (·.node (e.store.graph.place x) file
          (e.store.graph.trail (e.store.graph.task x).origin)) := by
      rw [← TaskDeclaration.nodes_eq]
      refine hshows.nodes hs₂ fun c hc => ?_
      have hplaced := (hstamped c hc).placed
      have k := h₁₂.grows.keeps.task x hx
      rw [← k.role, ← k.play] at hplaced
      rw [hplaced.place, Graph.place_stays hs h₁₂.grows.toStays hx, hplaced.around,
        Graph.trailOf_some, Graph.trail_keeps h₁₂.grows.keeps (hs.tasks x hx).origin]
      exact ⟨rfl, rfl⟩
    have houtcome : (do
        let ds ← (site.readTasks file).mapError .load
        concatEach (outcome opened) (ds.map (·.node (e.store.graph.place x) file
          (e.store.graph.trail (e.store.graph.task x).origin))) : Except ExpandError (List Leaf)) =
        concatEach (outcome opened) (xs.map s₂.graph.taskNode) := by
      rw [hread, hnodes]; rfl
    rw [houtcome]
    exact (concatEach_tasks (e := ⟨s₂, opened⟩) hexpand hs₂ hf₂
      fun c hc => (hstamped c hc).placed.has).after ⟨h₂.advances, rfl⟩
  · rintro err s₂ ⟨h₂, hread⟩
    refine ⟨⟨h₂.advances, rfl⟩, ?_⟩
    rw [hread]; rfl

/-- **A directive that includes a role** has the outcome of the role. -/
theorem expandRoleInclude_tells (hs : e.store.graph.Sound) (hf : Faithful site e.store)
    (hordered : site.disk.tree.Ordered) (hx : e.store.graph.HasTask x) {action : String}
    {expand : RoleId → Expand (List TaskId)}
    {outcome : List String → RoleNode → Except ExpandError (List Leaf)}
    (hexpand : ∀ r (e : Expansion), e.store.graph.Sound → Faithful site e.store →
      e.store.graph.HasRole r →
      Follows site (expand r) e (outcome e.opened (e.store.graph.roleNode r))) :
    Tells (expandRoleInclude site t expand x action) e
      ((e.store.graph.taskNode x).roleOutcome site t outcome e.opened action) := by
  obtain ⟨hplace, -, -, -, htrail⟩ := e.store.graph.taskNode_fields x
  unfold TaskNode.roleOutcome
  rw [hplace, htrail]
  refine (ends_congr (run_expandRoleInclude ..)).2
    (expandDirective_tells hs hf hordered hx fun params s₁ opened h₁ => ?_)
  have hs₁ := h₁.sound hs
  have hf₁ := h₁.faithful hs hf
  have hplay : ∀ p, s₁.graph.taskPlay x = some p → s₁.graph.HasPlay p :=
    fun p hp => Graph.hasPlay_taskPlay hs₁ (h₁.grows.keeps.hasTask hx) hp
  unfold Follows
  rw [ends_bind, ends_load]
  refine (loadRole_included hs hx h₁ params.name params.selection).mono ?_ ?_
  · rintro r s₂ ⟨h₂, role, hread, hrole⟩
    rw [hf₁.readNamed] at hread
    have h₁₂ := h₁.trans h₂.advances
    have hs₂ := h₁₂.sound hs
    have hst := h₂.adds.grows.toStays
    -- the role stands in the play of the directive, and is none of the play's own
    have hnode : s₂.graph.roleNode r = role.node (e.store.graph.place x).play false
        (e.store.graph.trail (e.store.graph.task x).origin) := by
      have hlisted : s₂.graph.listed r = false :=
        Graph.listed_new hs₁ hst hrole.new fun p hp => hplay p (hrole.play.symm.trans hp)
      have haround : s₂.graph.aroundRole r = e.store.graph.trail (e.store.graph.task x).origin := by
        rw [Graph.aroundRole, hrole.origin, Graph.trailOf_some,
          Graph.trail_keeps h₁₂.grows.keeps (hs.tasks x hx).origin]
      have hplaces : (s₂.graph.role r).play.map s₂.graph.playPlace =
          (e.store.graph.place x).play := by
        rw [hrole.play, Graph.playPlaces_stays hs₁ hst hplay,
          ← Graph.place_stays hs h₁.grows.toStays hx]; rfl
      rw [hrole.shows.node hs₂, hplaces, hlisted, haround]
    have houtcome : (do
        let role ← (site.readNamed params.name params.selection).mapError .load
        outcome opened (role.node (e.store.graph.place x).play false
          (e.store.graph.trail (e.store.graph.task x).origin)) : Except ExpandError (List Leaf)) =
        outcome opened (s₂.graph.roleNode r) := by
      rw [hread, hnode]; rfl
    rw [houtcome]
    exact (hexpand r ⟨s₂, opened⟩ hs₂ (h₁₂.faithful hs hf) hrole.has).after ⟨h₂.advances, rfl⟩
  · rintro err s₂ ⟨h₂, hread⟩
    rw [hf₁.readNamed] at hread
    refine ⟨⟨h₂.advances, rfl⟩, ?_⟩
    rw [hread]; rfl

/-! ## Expansion -/

mutual
/-- **A task has the outcome of its node.** -/
theorem expandTask_follows (hordered : site.disk.tree.Ordered) :
    ∀ (n : Nat) (x : TaskId) (e : Expansion),
    e.store.graph.Sound → Faithful site e.store → e.store.graph.HasTask x →
    Follows site (expandTask site t n x) e
      (taskOutcome site t n e.opened (e.store.graph.taskNode x))
  | 0, _, e, _, _, _ => ends_expandTask_zero.2 ⟨.refl e, rfl⟩
  | n + 1, x, e, hs, hf, hx => by
    refine Tells.follows ?_ (expandTask_ends (n + 1) hs hx)
    obtain ⟨-, -, -, hraw, -⟩ := e.store.graph.taskNode_fields x
    have hblock := hs.taskNode_block hx
    have hactions : ∀ actions, (e.store.graph.taskNode x).action? actions =
        (e.store.graph.task x).firstAction? actions := by
      intro _; rw [TaskNode.action?, Task.firstAction?, hraw]
    unfold taskOutcome
    rw [hblock, hactions, hactions]
    refine ends_expandTask (fun hb => ?_) (fun action hd => ?_) (fun action hd => ?_) fun hk => ?_
    · cases hblk : (e.store.graph.task x).block with
      | nil =>
        rw [Task.isBlock_eq_false.2 hblk] at hb
        cases hb
      | cons first rest =>
        have hin : ∀ c ∈ first :: rest, e.store.graph.HasTask c := by
          intro c hc
          rw [← hblk] at hc
          exact ((hs.tasks x hx).block c hc).2.has
        exact (concatEach_tasks (expandTask_follows hordered n) hs hf hin).mono
          (fun _ _ h => ⟨h.1.opened, h.2⟩) fun _ _ h => ⟨h.1.opened, h.2⟩
    · obtain ⟨hb, ha⟩ := hd
      rw [hb, ← Task.taskInclude?, ha]
      exact expandTaskInclude_tells hs hf hordered hx (expandTask_follows hordered n)
    · obtain - | ⟨hb, hn, ha⟩ := hd
      rw [hb, ← Task.taskInclude?, hn, ← Task.roleInclude?, ha]
      exact expandRoleInclude_tells hs hf hordered hx fun r e hs hf hr =>
        expandRoleOn_follows hordered n r [] e hs hf hr
    · obtain ⟨hb, hn, hr⟩ := Task.kind_leaf hk
      rw [Task.isBlock_eq_false.1 hb, ← Task.taskInclude?, hn, ← Task.roleInclude?, hr]
      refine ⟨rfl, [(e.store.graph.taskNode x).leaf], rfl, fun y hy => ?_, ?_⟩
      · rw [List.mem_singleton.1 hy]; exact hx
      · rw [Graph.leaf_taskNode]; rfl

/-- **A role has the outcome of its node.** -/
theorem expandRoleOn_follows (hordered : site.disk.tree.Ordered) :
    ∀ (n : Nat) (r : RoleId) (path : List String)
    (e : Expansion), e.store.graph.Sound → Faithful site e.store → e.store.graph.HasRole r →
    Follows site (expandRoleOn site t n r path) e
      (roleOutcome site t n e.opened path (e.store.graph.roleNode r))
  | 0, _, _, e, _, _, _ => ends_expandRoleOn_zero.2 ⟨.refl e, rfl⟩
  | n + 1, r, path, e, hs, hf, hr => by
    have hrole := hs.roles r hr
    have henter : enterDependency e.store.graph r path =
        enterName path (e.store.graph.roleNode r).head.name := rfl
    unfold roleOutcome
    rw [← henter]
    refine ends_expandRoleOn (fun path₁ hpath => ?_) fun err hpath => ⟨.refl e, by rw [hpath]; rfl⟩
    rw [hpath, ends_bind, ends_load]
    refine (directDependencies_ends hs hr).mono ?_ ?_
    · intro direct s₁ hfound
      have h₁ := hfound.learns.toAdvances
      have hs₁ := h₁.sound hs
      have hf₁ := h₁.faithful hs hf
      have hnode : s₁.graph.roleNode r = e.store.graph.roleNode r :=
        Graph.roleNode_stays hs h₁.grows.toStays hr
      have hdeps : (e.store.graph.roleNode r).dependencies site =
          .ok (direct.map s₁.graph.roleNode) := by
        obtain ⟨roles, hread, hshows⟩ := hf₁.direct r direct hfound.direct
        rw [← hnode]; exact hs₁.dependencies_known hfound.direct hread hshows
      have hbelow : Follows site (concatEach (fun dep => expandRoleOn site t n dep path₁) direct)
          { e with store := s₁ }
          (concatEach (roleOutcome site t n e.opened path₁) (direct.map s₁.graph.roleNode)) :=
        concatEach_roles (e := { e with store := s₁ })
          (o := fun opened => roleOutcome site t n opened path₁)
          (fun d e hs hf hd => expandRoleOn_follows hordered n d path₁ e hs hf hd) hs₁ hf₁
          fun d hd => hs₁.hasRole_dep hfound.direct hd
      -- the tasks are looked up after the dependencies are expanded, and are the same as before
      have hown : ∀ e₂, GoesOn site { e with store := s₁ } e₂ →
          Follows site (do concatEach (expandTask site t n) ((← Expand.graph).role r).tasks) e₂
            (concatEach (taskOutcome site t n e.opened) (e.store.graph.roleNode r).tasks) := by
        intro e₂ h₂
        have h₁₂ := h₁.trans h₂.advances
        have hst := h₁₂.grows.toStays
        have hin : ∀ c ∈ (e.store.graph.role r).tasks, e.store.graph.HasTask c :=
          fun c hc => (hrole.tasks c hc).has
        have htasks :
            (e.store.graph.roleNode r).tasks =
              (e.store.graph.role r).tasks.map e₂.store.graph.taskNode := by
          rw [Graph.taskNodes_stays hs hst hin]; rfl
        unfold Follows
        rw [ends_bind, ends_expand_graph, (h₁₂.grows.role r hr).same, htasks, ← h₂.opened]
        exact concatEach_tasks (expandTask_follows hordered n) (h₁₂.sound hs) (h₁₂.faithful hs hf)
          fun c hc => h₁₂.grows.keeps.hasTask (hin c hc)
      have hon : GoesOn site e { e with store := s₁ } := ⟨h₁, rfl⟩
      have hboth := Follows.after hon (Follows.append hs₁ hbelow hown)
      have houtcome : (do
          let path ← (Except.ok path₁ : Except LoadError (List String)).mapError .load
          let direct ← ((e.store.graph.roleNode r).dependencies site).mapError .load
          let below ← concatEach (roleOutcome site t n e.opened path) direct
          let own ← concatEach (taskOutcome site t n e.opened) (e.store.graph.roleNode r).tasks
          return below ++ own : Except ExpandError (List Leaf)) = (do
          let below ← concatEach (roleOutcome site t n e.opened path₁)
            (direct.map s₁.graph.roleNode)
          let own ← concatEach (taskOutcome site t n e.opened) (e.store.graph.roleNode r).tasks
          return below ++ own) := by
        rw [hdeps]; rfl
      rw [houtcome]
      simpa only [ends_bind, ends_expand_graph, ends_pure] using hboth
    · rintro err s₁ ⟨h₁, -, hfail⟩
      rw [funext fun name => hf.readNamed name .main] at hfail
      refine ⟨⟨h₁.toAdvances, rfl⟩, ?_⟩
      rw [Graph.dependencies_error hfail]; rfl
end

/-- The plays that a play imports are those of the file. -/
theorem loadPlaybook_follows {s : Store} (hs : s.graph.Sound) (hf : Faithful site s)
    {o : Option OriginId} (ho : ∀ o', o = some o' → s.graph.HasOrigin o') (path : FilePath) :
    Ends (loadPlaybook site o path) s
      (fun pb s' => Advances site s s' ∧ pb.path = path ∧ (∀ p ∈ pb.plays, s'.graph.HasPlay p) ∧
        site.readPlays path (s.graph.trailOf o) = .ok (pb.plays.map s'.graph.playNode))
      fun err s' => Advances site s s' ∧ ∀ around, site.readPlays path around = .error err := by
  have hread : s.readNamed site = site.readNamed := by
    funext name selection; exact hf.readNamed name selection
  refine (loadPlaybook_ends hs ho path).mono ?_ ?_
  · rintro pb s' ⟨h, hpath, ds, hds, hplays⟩
    have hs' := h.advances.sound hs
    refine ⟨h.advances, hpath, fun p hp => ?_, ?_⟩
    · obtain ⟨_, -, hloaded⟩ := exists_left hplays hp
      exact hloaded.shows.has
    · have hshows :=
        hplays.imp fun d p (hp : LoadedPlay site s s' o path d p) => (⟨hp.shows, hp.origin⟩ :
        s'.graph.ShowsPlay (s.readNamed site · .main) path p d ∧ _)
      rw [hread] at hshows
      rw [← Graph.trailOf_keeps h.advances.grows.keeps ho]
      exact Graph.playNodes_loaded hs' hds hshows
  · rintro err s' ⟨h, hfail⟩
    rw [hread] at hfail
    exact ⟨h.advances, fun _ => readPlays_error hfail⟩

mutual
/-- **A play has the outcome of its node.** -/
theorem expandPlay_follows (hordered : site.disk.tree.Ordered) :
    ∀ (n : Nat) (p : PlayId) (e : Expansion),
    e.store.graph.Sound → Faithful site e.store → e.store.graph.HasPlay p →
    Follows site (expandPlay site t n p) e
      (playOutcome site t n e.opened (e.store.graph.playNode p))
  | 0, _, e, _, _, _ => ends_expandPlay_zero.2 ⟨.refl e, rfl⟩
  | n + 1, p, e, hs, hf, hp => by
    have hplay := hs.plays p hp
    have htarget : (e.store.graph.playNode p).target = (e.store.graph.play p).importTarget? := rfl
    unfold playOutcome
    rw [htarget]
    refine ends_expandPlay (fun target ht => ?_) fun ht => ?_
    · have ho : ∀ o, some (e.store.graph.play p).origin = some o → e.store.graph.HasOrigin o := by
        rintro _ ⟨⟩; exact hplay.origin
      have htrail :
          (e.store.graph.playNode p).trail = e.store.graph.trail (e.store.graph.play p).origin :=
        rfl
      have hchain : ∀ s', Advances site e.store s' →
          (s'.graph.provenance (e.store.graph.play p).origin).map Origin.bare =
            (e.store.graph.trail (e.store.graph.play p).origin).reverse := by
        intro s' h
        rw [Graph.provenance_bare (h.sound hs).origins (h.grows.keeps.hasOrigin hplay.origin),
          Graph.trail_keeps h.grows.keeps hplay.origin]
      rw [ht, htrail]
      dsimp only
      rw [ends_bind, ends_load]
      refine (loadPlaybook_follows hs hf ho (site.root.join target)).mono ?_ ?_
      · rintro ⟨path, plays⟩ s₁ ⟨h₁, hpath, hhas, hread⟩
        dsimp only at hpath
        subst hpath
        rw [Graph.trailOf_some] at hread
        rw [hread]
        refine (expandPlaybook_follows hordered n _ ⟨s₁, e.opened⟩ (h₁.sound hs)
          (h₁.faithful hs hf) hhas).mono
          ?_ ?_
        · rintro ids e₂ ⟨h₂, leaves, ho, hleaves⟩
          refine ⟨⟨h₁.trans h₂.advances, h₂.opened⟩, leaves, ?_, hleaves⟩
          exact mapError_ok.2 ho
        · rintro err e₂ ⟨h₂, ho⟩
          refine ends_failed_within (hchain _ (h₁.trans h₂.advances)) fun err' herr =>
            ⟨⟨h₁.trans h₂.advances, h₂.opened⟩, ?_⟩
          exact mapError_error.2 ⟨_, ho, herr.symm⟩
      · rintro err s₁ ⟨h₁, hread⟩
        refine ends_failed_within (hchain _ h₁) fun err' herr => ⟨⟨h₁, rfl⟩, ?_⟩
        rw [hread, herr]; rfl
    · -- the roles are expanded after the tasks, and are the same as before
      have hroles : ∀ e₁, GoesOn site e e₁ →
          Follows site (concatEach (expandRole site t n) (e.store.graph.play p).roles) e₁
            (concatEach (roleOutcome site t n e.opened []) (e.store.graph.playNode p).roles) := by
        intro e₁ h₁
        have hst := h₁.advances.grows.toStays
        have hhas : ∀ r ∈ (e.store.graph.play p).roles, e.store.graph.HasRole r := by
          intro r hr
          obtain ⟨_, -, hstands⟩ := hplay.roles r hr
          exact hstands.has
        have hnodes : (e.store.graph.playNode p).roles =
            (e.store.graph.play p).roles.map e₁.store.graph.roleNode :=
          List.map_congr_left fun r hr => (Graph.roleNode_stays hs hst (hhas r hr)).symm
        rw [hnodes, ← h₁.opened]
        exact concatEach_roles (o := fun opened => roleOutcome site t n opened [])
          (fun r e hs hf hr => expandRoleOn_follows hordered n r [] e hs hf hr)
          (h₁.advances.sound hs)
          (h₁.advances.faithful hs hf) fun r hr => hst.keeps.hasRole (hhas r hr)
      rw [ht]
      exact Follows.append hs (concatEach_tasks (expandTask_follows hordered n) hs hf
        fun c hc => (hplay.tasks c hc).has) hroles

/-- **A playbook has the outcome of its node.** -/
theorem expandPlaybook_follows (hordered : site.disk.tree.Ordered) : ∀ (n : Nat) (pb : Playbook)
    (e : Expansion), e.store.graph.Sound → Faithful site e.store →
    (∀ p ∈ pb.plays, e.store.graph.HasPlay p) →
    Follows site (expandPlaybook site t n pb) e
      (playbookOutcome site t n e.opened (e.store.graph.playbookNode pb))
  | 0, _, e, _, _, _ => ends_expandPlaybook_zero.2 ⟨.refl e, rfl⟩
  | n + 1, pb, e, hs, hf, hpb => by
    have hpath : (e.store.graph.playbookNode pb).path = pb.path := rfl
    unfold playbookOutcome
    rw [hpath]
    refine ends_expandPlaybook (fun hopen => ⟨.refl e, inside_opened hopen⟩) fun hclosed => ?_
    rw [inside_closed hclosed]
    have hplays := concatEach_nodes (e := e.enter site (.file pb.path)) (H := Graph.HasPlay)
      (N := Graph.playNode)
      (fun h => h.hasPlay) (fun hs h => Graph.playNode_stays hs h) (o := playOutcome site t n)
      (expandPlay_follows hordered n) hs hf hpb
    have hback : ∀ {e₁ : Expansion}, GoesOn site (e.enter site (.file pb.path)) e₁ →
        GoesOn site e e₁.close :=
      fun h => ⟨h.advances, (congrArg List.dropLast h.opened).trans List.dropLast_concat⟩
    exact hplays.mono (fun ids e₁ h => ⟨hback h.1, h.2⟩) fun err e₁ h => ⟨hback h.1, h.2⟩
end

end Runlist
