import Runlist.Proofs.Expand.Include
import Runlist.Proofs.Expand.Trace
import Runlist.Proofs.Load.Dependencies

/-!
# Where expansion leads

What expansion leaves behind, and how the tasks of its result are placed. An include makes its own
task the parent of the topmost tasks that it has added, so that parents tell the way that was taken.

* `Graph.Under`, `Graph.UnderRole`, `Graph.UnderPlay`: what is said of a task of the result.
* `traceTask_ends`, `traceRoleOn_ends`: **expansion only goes on, and parents tell the way to each
  task.**
* `tracePlay_ends`, `tracePlaybook_ends`: the same of plays and playbooks.
-/

namespace Runlist

variable {site : Site} {t : Templater} {x c : TaskId} {r d : RoleId} {p : PlayId}
  {through : List TaskId}
  {y : Reached}

namespace Graph

variable {g g' : Graph}

/-- **A task that was reached from a task**, which itself was reached through some others. -/
structure Under (g : Graph) (through : List TaskId) (x : TaskId) (y : Reached) : Prop where
  has : g.HasTask y.task
  way : ∃ l, y.through = l ++ through ∧ g.Climbs y.task l x
  coherent : g.Coherent x → g.Coherent y.task

/-- **A task that was reached from a role**, which itself was reached through some tasks. -/
structure UnderRole (g : Graph) (through : List TaskId) (r : RoleId) (y : Reached) : Prop where
  has : g.HasTask y.task
  way : ∃ l top, y.through = l ++ through ∧ g.Climbs y.task l top ∧ g.Hangs r top
  coherent : g.CoherentRole r → g.Coherent y.task

/-- **A task that was reached from a play.** -/
structure UnderPlay (g : Graph) (y : Reached) : Prop where
  has : g.HasTask y.task
  way : ∃ top, g.Climbs y.task y.through top ∧ g.above .task (g.task top).origin = none
  coherent : g.Coherent y.task

section Keeps

variable (hs : g.Sound) (k : g.Keeps g')
include hs k

theorem Under.keeps (h : g.Under through x y) : g'.Under through x y where
  has := k.hasTask h.has
  way := by
    obtain ⟨l, hl, hclimb⟩ := h.way
    exact ⟨l, hl, hclimb.keeps hs k h.has⟩
  coherent hx := by
    obtain ⟨l, -, hclimb⟩ := h.way
    exact (coherent_keeps hs k h.has).2
      (h.coherent ((coherent_keeps hs k (hclimb.has hs h.has)).1 hx))

theorem UnderRole.keeps (h : g.UnderRole through r y) : g'.UnderRole through r y where
  has := k.hasTask h.has
  way := by
    obtain ⟨l, top, hl, hclimb, hhangs⟩ := h.way
    exact ⟨l, top, hl, hclimb.keeps hs k h.has, hhangs.keeps hs k⟩
  coherent hr := by
    obtain ⟨_, _, -, -, hhangs⟩ := h.way
    exact (coherent_keeps hs k h.has).2 (h.coherent ((coherentRole_keeps hs k hhangs.role).1 hr))

theorem UnderPlay.keeps (h : g.UnderPlay y) : g'.UnderPlay y where
  has := k.hasTask h.has
  way := by
    obtain ⟨top, hclimb, habove⟩ := h.way
    have htop := hclimb.has hs h.has
    refine ⟨top, hclimb.keeps hs k h.has, ?_⟩
    rw [(k.task top htop).origin, above_keeps k (hs.tasks top htop).origin]; exact habove
  coherent := (coherent_keeps hs k h.has).2 h.coherent

end Keeps

section Ways

variable (hs : g.Sound)
include hs

/-- From a task to one inside it. -/
theorem Under.inside (hc : g.Placed (some (g.task x).origin) (g.task x).role (g.task x).play c)
    (hp : (g.task c).parent = some x) (h : g.Under (x :: through) c y) : g.Under through x y where
  has := h.has
  way := by
    obtain ⟨l, hl, hclimb⟩ := h.way
    exact ⟨l ++ [x], by rw [hl]; simp, hclimb.trans (.up hp .here)⟩
  coherent hx := h.coherent (hx.placed hs hc)

/-- From a role to its tasks. -/
theorem UnderRole.task (hr : g.HasRole r) (hc : c ∈ (g.role r).tasks) (h : g.Under through c y) :
    g.UnderRole through r y where
  has := h.has
  way := by
    obtain ⟨l, hl, hclimb⟩ := h.way
    exact ⟨l, c, hl, hclimb, ((hs.roles r hr).tasks c hc).hangs hs hr⟩
  coherent hrole := h.coherent (hrole.task hs hr ((hs.roles r hr).tasks c hc))

/-- From a role to its dependencies. -/
theorem UnderRole.dependency (hd : g.Depends r d) (h : g.UnderRole through d y) :
    g.UnderRole through r y where
  has := h.has
  way := by
    obtain ⟨l, top, hl, hclimb, hhangs⟩ := h.way
    exact ⟨l, top, hl, hclimb, hhangs.depends hs hd⟩
  coherent hrole := h.coherent (hrole.depends hs hd)

/-- From a play to its tasks. -/
theorem UnderPlay.task (hp : g.HasPlay p) (hroot : g.Rooted p) (hc : c ∈ (g.play p).tasks)
    (h : g.Under [] c y) : g.UnderPlay y where
  has := h.has
  way := by
    obtain ⟨l, hl, hclimb⟩ := h.way
    refine ⟨c, ?_, hroot.task_above hs ((hs.plays p hp).tasks c hc)⟩
    rw [hl, List.append_nil]; exact hclimb
  coherent := h.coherent (hroot.task_coherent hs hp ((hs.plays p hp).tasks c hc))

/-- From a play to its roles. -/
theorem UnderPlay.role (hp : g.HasPlay p) (hroot : g.Rooted p) (hr : r ∈ (g.play p).roles)
    (h : g.UnderRole [] r y) : g.UnderPlay y where
  has := h.has
  way := by
    obtain ⟨l, top, hl, hclimb, hhangs⟩ := h.way
    obtain ⟨definition, hd, hst⟩ := (hs.plays p hp).roles r hr
    refine ⟨top, by rw [hl, List.append_nil]; exact hclimb, ?_⟩
    rw [hhangs.above, hroot.role_nearest hs hd hst]
  coherent := by
    obtain ⟨definition, hd, hst⟩ := (hs.plays p hp).roles r hr
    exact h.coherent (hs.role_coherent hp hd hst)

end Ways

end Graph

/-! ## Steps -/

/-- **A step only goes on**, and leads to tasks of which something holds. -/
def Leads (site : Site) (step : Expand (List Reached)) (e : Expansion)
    (U : Graph → Reached → Prop) : Prop :=
  Ends step e (fun ys e' => Advances site e.store e'.store ∧ ∀ y ∈ ys, U e'.store.graph y)
    fun _ e' => Advances site e.store e'.store

variable {e : Expansion} {U V : Graph → Reached → Prop}

theorem Leads.imp {step : Expand (List Reached)} (hs : e.store.graph.Sound)
    (h : Leads site step e U) (hUV : ∀ g y, g.Sound → e.store.graph.Keeps g → U g y → V g y) :
    Leads site step e V :=
  h.mono (fun _ _ h => ⟨h.1, fun y hy => hUV _ y (h.1.sound hs) h.1.grows.keeps (h.2 y hy)⟩)
    fun _ _ h => h

/-- A loop leads where its rounds lead. -/
theorem concatEach_leads {α : Type} {f : α → Expand (List Reached)} {l : List α}
    {U : Graph → α → Reached → Prop} (hs : e.store.graph.Sound)
    (keeps : ∀ {a y g g'}, g.Sound → g.Keeps g' → U g a y → U g' a y)
    (round : ∀ a ∈ l, ∀ e₁ : Expansion, e₁.store.graph.Sound → Advances site e.store e₁.store →
      Leads site (f a) e₁ (U · a)) :
    Leads site (concatEach f l) e fun g y => ∃ a ∈ l, U g a y := by
  refine (Ends.concatEach (R := fun e e' => Advances site e.store e'.store)
    (P := fun a ys e' => e'.store.graph.Sound ∧ ∀ y ∈ ys, U e'.store.graph a y) (fun _ => .refl _)
    Advances.trans (fun h hP => ⟨h.sound hP.1, fun y hy => keeps hP.1 h.grows.keeps (hP.2 y hy)⟩)
    fun a ha e₁ h₁ => ?_).mono ?_ fun _ _ h => h
  · have hs₁ := h₁.sound hs
    exact (round a ha e₁ hs₁ h₁).mono (fun ys e₂ h₂ => ⟨h₂.1, h₂.1.sound hs₁, h₂.2⟩) fun _ _ h => h
  · rintro _ e' ⟨h, parts, rfl, hparts⟩
    refine ⟨h, fun y hy => ?_⟩
    obtain ⟨part, hpart, hy⟩ := List.mem_flatten.1 hy
    obtain ⟨a, ha, -, hU⟩ := exists_left hparts hpart
    exact ⟨a, ha, hU y hy⟩

/-- A directive may adopt what is new since it was met. -/
theorem Advances.adopt {s₀ s : Store} {g : Graph} (h : Advances site s₀ s) (hg : g.Sound)
    (ha : Graph.Adopts s₀.graph s.graph g x) : Advances site s₀ { s with graph := g } where
  sound _ := hg
  grows := ha.grows h.grows
  locate := h.locate
  faithful hs hf := by
    refine (h.faithful hs hf).stays (h.sound hs) ha.stays (fun _ => rfl)
      (fun hreal => hreal.of_roles ha.roles fun _ => rfl) (fun r ds hd => Or.inl ?_)
      fun y vars hv => Or.inl ?_
    · rw [Graph.role, ← ha.roles]; exact hd
    · rcases ha.task y with he | ⟨-, -, he⟩
      · rw [← he]; exact hv
      · have hv' : (g.task y).cachedVars = some vars := hv
        rw [he] at hv'; exact hv'

/-- The topmost tasks of the result get the directive as their parent. -/
theorem finishTrace_ends {s₀ : Store} (hs₀ : s₀.graph.Sound) (hx : s₀.graph.HasTask x)
    (h : Advances site s₀ e.store) {ys : List Reached}
    (hys : ∀ y ∈ ys, e.store.graph.HasTask y.task ∧ ∃ l top, e.store.graph.Climbs y.task l top ∧
      e.store.graph.Adoptable x top ∧
      ¬ s₀.graph.HasTask top) (origin : OriginId) (target : String) :
    Ends (finishTrace x origin target (.ok ys)) e
      (fun ys' e' => ys' = ys ∧ Advances site s₀ e'.store ∧ e.store.graph.Keeps e'.store.graph ∧
        ∀ y ∈ ys, ∀ l top, e.store.graph.Climbs y.task l top → e.store.graph.Adoptable x top →
          ¬ s₀.graph.HasTask top → (e'.store.graph.task top).parent = some x)
      fun _ _ => False := by
  have hs := h.sound hs₀
  obtain ⟨hsound, hadopts, hparent⟩ := Graph.adopt_spec hs (h.grows.keeps.hasTask hx)
    (ys.map Reached.task) fun z hz => by
      obtain ⟨y, hy, rfl⟩ := List.mem_map.1 hz
      exact hys y hy
  unfold finishTrace
  simp only [ends_bind, ends_load, ends_update]
  exact ⟨rfl, h.adopt hsound hadopts, hadopts.stays.keeps,
    fun y hy => hparent y.task (List.mem_map_of_mem hy)⟩

/-- The failure of a directive leaves everything as it is. -/
theorem finishTrace_failed {origin : OriginId} {target : String} {err : ExpandError}
    {Q : List Reached → Expansion → Prop} {E : ExpandError → Expansion → Prop}
    (h : ∀ err, E err e) : Ends (finishTrace x origin target (.error err)) e Q E :=
  ends_failed h

/-- A directive that includes a file of tasks leads to tasks under it. -/
theorem traceTaskInclude_leads (hs : e.store.graph.Sound) (hx : e.store.graph.HasTask x)
    {trace : TaskId → Expand (List Reached)}
    (htrace : ∀ c (e : Expansion), e.store.graph.Sound → e.store.graph.HasTask c →
      Leads site (trace c) e fun g => g.Under (x :: through) c) (action : String) :
    Leads site (traceTaskInclude site t trace x action) e fun g => g.Under through x := by
  have htask := hs.tasks x hx
  unfold Leads traceTaskInclude
  rw [ends_bind, ends_expand_graph]
  simp only [ends_bind, ends_attempt]
  refine (includeParams_ends hs hx).mono ?_ fun _ _ h => ends_failed fun _ => h
  rintro params e₁ ⟨h₁, -⟩
  have hs₁ := h₁.sound hs
  have k₁ := h₁.grows.keeps
  refine ends_inside (fun _ => h₁) ?_
  rw [ends_bind, ends_load]
  refine (loadTasks_included hs hx h₁ _).mono ?_ ?_
  · rintro xs s₂ ⟨h₂, hstamped, -⟩
    have h₁₂ := h₁.trans h₂.advances
    have hs₂ := h₁₂.sound hs
    refine (concatEach_leads (U := fun g c => g.Under (x :: through) c) hs₂
      (fun hs k h => h.keeps hs k) fun c hc e₃ hs₃ h₃ =>
        htrace c e₃ hs₃ (h₃.grows.keeps.hasTask (hstamped c hc).placed.has)).mono ?_ ?_
    · rintro ys e₃ ⟨h₃, hys⟩
      have h₁₃ := h₁₂.trans h₃
      have hs₃ := h₁₃.sound hs
      -- the tasks of the file stand where the directive stands, and the directive may adopt them
      have hplaced : ∀ {g : Graph}, g.Sound → s₂.graph.Keeps g → e.store.graph.Keeps g → ∀ c ∈ xs,
          g.Placed (some (g.task x).origin) (g.task x).role (g.task x).play c := by
        intro g _ k₂ k c hc
        rw [(k.task x hx).origin, (k.task x hx).role, (k.task x hx).play]
        exact (hstamped c hc).placed.keeps k₂ hs₂
      have hnew : ∀ c ∈ xs, ¬ e.store.graph.HasTask c :=
        fun c hc hhas => (hstamped c hc).new (k₁.hasTask hhas)
      have hadopt : ∀ c ∈ xs, e₃.store.graph.Adoptable x c := fun c hc =>
        (hplaced hs₃ h₃.grows.keeps h₁₃.grows.keeps c hc).adoptable hs₃ (h₁₃.grows.keeps.hasTask hx)
      refine (finishTrace_ends (e := { e₃ with opened := e₃.opened.dropLast }) hs hx h₁₃
        (fun y hy => ?_) _ _).mono ?_ fun _ _ h => h.elim
      · obtain ⟨c, hc, hunder⟩ := hys y hy
        obtain ⟨l, -, hclimb⟩ := hunder.way
        exact ⟨hunder.has, l, c, hclimb, hadopt c hc, hnew c hc⟩
      · rintro _ e₄ ⟨rfl, h₄, k₃, hparent⟩
        have hs₄ := h₄.sound hs
        refine ⟨h₄, fun y hy => ?_⟩
        obtain ⟨c, hc, hunder⟩ := hys y hy
        obtain ⟨l, -, hclimb⟩ := hunder.way
        exact (hunder.keeps hs₃ k₃).inside hs₄
          (hplaced hs₄ (h₃.grows.keeps.trans k₃) h₄.grows.keeps c hc)
          (hparent y hy l c hclimb (hadopt c hc) (hnew c hc))
    · exact fun _ e₃ h₃ => finishTrace_failed fun _ => h₁₂.trans h₃
  · exact fun _ s₂ h₂ => finishTrace_failed fun _ => h₁.trans h₂.1.advances

/-- A directive that includes a role leads to tasks under it. -/
theorem traceRoleInclude_leads (hs : e.store.graph.Sound) (hx : e.store.graph.HasTask x)
    {trace : RoleId → Expand (List Reached)}
    (htrace : ∀ r (e : Expansion), e.store.graph.Sound → e.store.graph.HasRole r →
      Leads site (trace r) e fun g => g.UnderRole (x :: through) r) (action : String) :
    Leads site (traceRoleInclude site t trace x action) e fun g => g.Under through x := by
  have htask := hs.tasks x hx
  unfold Leads traceRoleInclude
  simp only [ends_bind, ends_expand_graph, ends_attempt]
  refine (includeParams_ends hs hx).mono ?_ fun _ _ h => ends_failed fun _ => h
  rintro params e₁ ⟨h₁, -⟩
  have hs₁ := h₁.sound hs
  have k₁ := h₁.grows.keeps
  refine ends_inside (fun _ => h₁) ?_
  rw [ends_bind, ends_load]
  refine (loadRole_included hs hx h₁ params.name params.selection).mono ?_ ?_
  · rintro r s₂ ⟨h₂, _, -, hrole⟩
    have h₁₂ := h₁.trans h₂.advances
    have hs₂ := h₁₂.sound hs
    refine (htrace r { e₁ with store := s₂, opened := _ } hs₂ hrole.has).mono ?_ ?_
    · rintro ys e₃ ⟨h₃, hys⟩
      have h₁₃ := h₁₂.trans h₃
      have hs₃ := h₁₃.sound hs
      have k₃ := h₃.grows.keeps
      have kr := k₃.role r hrole.has
      -- the role stands inside the directive, so that the directive may adopt its topmost tasks
      have horigin : ∀ {g : Graph}, s₂.graph.Keeps g → e.store.graph.Keeps g →
          (g.origin (g.role r).origin).parent = some (g.task x).origin := by
        intro g k₂ k
        rw [(k₂.role r hrole.has).origin, k₂.origin _ (hs₂.roles r hrole.has).origin,
          hrole.origin, (k.task x hx).origin]
      have hadopt : ∀ top, e₃.store.graph.Hangs r top → e₃.store.graph.Adoptable x top :=
        fun top h =>
        h.adoptable hs₃ (h₁₃.grows.keeps.hasTask hx) (horigin k₃ h₁₃.grows.keeps)
      have hnew : ∀ top, e₃.store.graph.Hangs r top → ¬ e.store.graph.HasTask top := by
        intro top h
        refine h.new hs h₁₃.grows.keeps fun hhas => hrole.newOrigin (k₁.hasOrigin ?_)
        rw [← kr.origin]; exact hhas
      refine (finishTrace_ends (e := { e₃ with opened := e₃.opened.dropLast }) hs hx h₁₃
        (fun y hy => ?_) _ _).mono ?_ fun _ _ h => h.elim
      · obtain ⟨l, top, -, hclimb, hhangs⟩ := (hys y hy).way
        exact ⟨(hys y hy).has, l, top, hclimb, hadopt top hhangs, hnew top hhangs⟩
      · rintro _ e₄ ⟨rfl, h₄, k₄, hparent⟩
        refine ⟨h₄, fun y hy => ?_⟩
        have k₂₄ := k₃.trans k₄
        obtain ⟨l, top, hl, hclimb, hhangs⟩ := (hys y hy).way
        refine ⟨k₄.hasTask (hys y hy).has, ⟨l ++ [x], by rw [hl]; simp, ?_⟩, fun hcoherent => ?_⟩
        · exact (hclimb.keeps hs₃ k₄ (hys y hy).has).trans
            (.up (hparent y hy l top hclimb (hadopt top hhangs) (hnew top hhangs)) .here)
        · refine ((hys y hy).keeps hs₃ k₄).coherent
            (hcoherent.included (h₄.sound hs) (k₂₄.hasRole hrole.has)
            (horigin k₂₄ h₄.grows.keeps) ?_)
          rw [(k₂₄.role r hrole.has).play, hrole.play, Graph.taskPlay_keeps hs h₄.grows.keeps hx,
            Graph.taskPlay_keeps hs k₁ hx]
    · exact fun _ e₃ h₃ => finishTrace_failed fun _ => h₁₂.trans h₃
  · exact fun _ s₂ h₂ => finishTrace_failed fun _ => h₁.trans h₂.1.advances

/-! ## Expansion -/

mutual
/-- **The expansion of a task only goes on**, and parents tell the way to each task. -/
theorem traceTask_leads : ∀ (n : Nat) (through : List TaskId) (x : TaskId) (e : Expansion),
    e.store.graph.Sound → e.store.graph.HasTask x →
    Leads site (traceTask site t n through x) e fun g => g.Under through x
  | 0, _, _, e, _, _ => by unfold traceTask; exact Advances.refl e.store
  | n + 1, through, x, e, hs, hx => by
    have ih := traceTask_leads n (x :: through)
    have htask := hs.tasks x hx
    unfold traceTask
    unfold Leads
    simp only [ends_bind, ends_expand_graph]
    by_cases hb : (e.store.graph.task x).isBlock
    · rw [if_pos hb]
      refine Leads.imp (V := fun g => g.Under through x) hs (concatEach_leads
        (U := fun g c => g.Under (x :: through) c) hs (fun hs k h => h.keeps hs k)
        fun c hc e₁ hs₁ h₁ => ih c e₁ hs₁ (h₁.grows.keeps.hasTask (htask.block c hc).2.has)) ?_
      rintro g y hg k ⟨c, hc, hunder⟩
      obtain ⟨hparent, hplaced⟩ := htask.block c hc
      refine hunder.inside hg ?_ ((k.task c hplaced.has).parent x hparent)
      rw [(k.task x hx).origin, (k.task x hx).role, (k.task x hx).play]
      exact hplaced.keeps k hs
    · rw [if_neg hb]
      cases (e.store.graph.task x).taskInclude? with
      | some action => exact traceTaskInclude_leads hs hx ih action
      | none =>
        cases (e.store.graph.task x).roleInclude? with
        | some action =>
          exact traceRoleInclude_leads hs hx
            (fun r e hs hr => traceRoleOn_leads n (x :: through) r [] e hs hr) action
        | none =>
          refine ⟨.refl _, fun y hy => ?_⟩
          rw [List.mem_singleton.1 hy]
          exact ⟨hx, ⟨[], rfl, .here⟩, id⟩

/-- **The expansion of a role only goes on**, and parents tell the way to each task. -/
theorem traceRoleOn_leads : ∀ (n : Nat) (through : List TaskId) (r : RoleId) (path : List String)
    (e : Expansion), e.store.graph.Sound → e.store.graph.HasRole r →
    Leads site (traceRoleOn site t n through r path) e fun g => g.UnderRole through r
  | 0, _, _, _, e, _, _ => by unfold traceRoleOn; exact Advances.refl e.store
  | n + 1, through, r, path, e, hs, hr => by
    unfold traceRoleOn
    unfold Leads
    simp only [ends_bind, ends_expand_graph, ends_load, ends_ofExcept]
    refine ⟨fun path _ => ?_, fun _ _ => .refl _⟩
    refine (directDependencies_ends hs hr).mono ?_ fun _ _ h => h.1.toAdvances
    intro direct s₁ hfound
    have h₁ := hfound.learns.toAdvances
    have hs₁ := h₁.sound hs
    have hdepends : ∀ d ∈ direct, s₁.graph.Depends r d := fun d hd => ⟨direct, hfound.direct, hd⟩
    refine (concatEach_leads (U := fun g d => g.UnderRole through d) hs₁
      (fun hs k h => h.keeps hs k)
      fun d hd e₂ hs₂ h₂ => traceRoleOn_leads n through d path e₂ hs₂
        (h₂.grows.keeps.hasRole (hs₁.hasRole_depends (hdepends d hd)).2)).mono ?_
        fun _ _ h => h₁.trans h
    rintro below e₂ ⟨h₂, hbelow⟩
    have h₁₂ := h₁.trans h₂
    have hs₂ := h₁₂.sound hs
    have hr₂ := h₁₂.grows.keeps.hasRole hr
    refine (concatEach_leads (U := fun g c => g.Under through c) hs₂ (fun hs k h => h.keeps hs k)
      fun c hc e₃ hs₃ h₃ => traceTask_leads n through c e₃ hs₃
        (h₃.grows.keeps.hasTask ((hs₂.roles r hr₂).tasks c hc).has)).mono ?_
        fun _ _ h => h₁₂.trans h
    rintro own e₃ ⟨h₃, hown⟩
    have hs₃ := h₃.sound hs₂
    refine ⟨h₁₂.trans h₃, fun y hy => ?_⟩
    rcases List.mem_append.1 hy with hy | hy
    · obtain ⟨d, hd, hunder⟩ := hbelow y hy
      have hdep := Graph.depends_keeps hs₁ h₂.grows.keeps (hdepends d hd)
      exact (hunder.dependency hs₂ hdep).keeps hs₂ h₃.grows.keeps
    · obtain ⟨c, hc, hunder⟩ := hown y hy
      refine Graph.UnderRole.task hs₃ (h₃.grows.keeps.hasRole hr₂) ?_ hunder
      rw [(h₃.grows.role r hr₂).same]; exact hc
end

/-- Below a play with only plays around it. -/
def Graph.OfPlay (g : Graph) (p : PlayId) (y : Reached) : Prop :=
  g.HasPlay p ∧ (g.Rooted p → g.UnderPlay y)

theorem Graph.OfPlay.keeps {g g' : Graph} (hs : g.Sound) (k : g.Keeps g') (h : g.OfPlay p y) :
    g'.OfPlay p y :=
  ⟨k.hasPlay h.1, fun hroot => (h.2 ((Graph.rooted_keeps hs k h.1).1 hroot)).keeps hs k⟩

mutual
/-- **The expansion of a play only goes on**, and parents tell the way to each task. -/
theorem tracePlay_leads : ∀ (n : Nat) (p : PlayId) (e : Expansion), e.store.graph.Sound →
    e.store.graph.HasPlay p → Leads site (tracePlay site t n p) e fun g => g.OfPlay p
  | 0, _, e, _, _ => by unfold tracePlay; exact Advances.refl e.store
  | n + 1, p, e, hs, hp => by
    have hplay := hs.plays p hp
    unfold tracePlay Leads
    simp only [ends_bind, ends_expand_graph]
    cases (e.store.graph.play p).importTarget? with
    | some target =>
      simp only [ends_bind, ends_attempt, ends_load]
      have ho : ∀ o, some (e.store.graph.play p).origin = some o → e.store.graph.HasOrigin o := by
        rintro _ ⟨⟩; exact hplay.origin
      refine (loadPlaybook_ends hs ho _).mono ?_ fun _ _ h => ends_failed fun _ => h.1.advances
      rintro pb s₁ ⟨h₁, -, ds, -, hloaded⟩
      have hs₁ := h₁.sound hs
      refine (tracePlaybook_leads n pb { e with store := s₁ } hs₁ fun q hq => ?_).mono ?_
        fun _ _ h => ends_failed fun _ => h₁.advances.trans h
      · obtain ⟨d, -, hq⟩ := exists_left hloaded hq
        exact hq.shows.has
      · rintro ys e₂ ⟨h₂, hys⟩
        have hadv := h₁.advances.trans h₂
        refine ⟨hadv, fun y hy => ⟨hadv.grows.keeps.hasPlay hp, fun hroot => ?_⟩⟩
        obtain ⟨q, hq, hhas, hunder⟩ := hys y hy
        obtain ⟨d, -, hq⟩ := exists_left hloaded hq
        have k := h₂.grows.keeps
        refine hunder (hroot.imported (hadv.sound hs) hhas ?_)
        rw [k.play q hq.shows.has, k.origin _ (hs₁.plays q hq.shows.has).origin, hq.origin,
          hadv.grows.keeps.play p hp]
    | none =>
      simp only [ends_bind]
      refine (concatEach_leads (U := fun g c => g.Under [] c) hs (fun hs k h => h.keeps hs k)
        fun c hc e₁ hs₁ h₁ => traceTask_leads n [] c e₁ hs₁
          (h₁.grows.keeps.hasTask (hplay.tasks c hc).has)).mono ?_ fun _ _ h => h
      rintro ys e₁ ⟨h₁, hys⟩
      have hs₁ := h₁.sound hs
      refine (concatEach_leads (U := fun g r => g.UnderRole [] r) hs₁ (fun hs k h => h.keeps hs k)
        fun r hr e₂ hs₂ h₂ => traceRoleOn_leads n [] r [] e₂ hs₂ ?_).mono ?_ fun _ _ h => h₁.trans h
      · obtain ⟨_, -, hst⟩ := hplay.roles r hr
        exact h₂.grows.keeps.hasRole (h₁.grows.keeps.hasRole hst.has)
      · rintro zs e₂ ⟨h₂, hzs⟩
        have h₁₂ := h₁.trans h₂
        have hp₂ := h₁₂.grows.keeps.hasPlay hp
        have hs₂ := h₁₂.sound hs
        have heq := h₁₂.grows.play p hp
        refine ⟨h₁₂, fun y hy => ⟨hp₂, fun hroot => ?_⟩⟩
        rcases List.mem_append.1 hy with hy | hy
        · obtain ⟨c, hc, hunder⟩ := hys y hy
          exact Graph.UnderPlay.task hs₂ hp₂ hroot (by rw [heq]; exact hc)
            (hunder.keeps hs₁ h₂.grows.keeps)
        · obtain ⟨r, hr, hunder⟩ := hzs y hy
          exact Graph.UnderPlay.role hs₂ hp₂ hroot (by rw [heq]; exact hr) hunder

/-- **The expansion of a playbook only goes on**, and parents tell the way to each task. -/
theorem tracePlaybook_leads : ∀ (n : Nat) (pb : Playbook) (e : Expansion), e.store.graph.Sound →
    (∀ p ∈ pb.plays, e.store.graph.HasPlay p) →
    Leads site (tracePlaybook site t n pb) e fun g y => ∃ p ∈ pb.plays, g.OfPlay p y
  | 0, _, e, _, _ => by unfold tracePlaybook; exact Advances.refl e.store
  | n + 1, pb, e, hs, hp => by
    unfold tracePlaybook Leads
    rw [ends_bind]
    refine ends_inside (fun _ => .refl _) ?_
    exact concatEach_leads
      (e := { e with opened := e.opened ++ [Target.key site.disk (.file pb.path)] })
      (U := fun g p => g.OfPlay p) hs (fun hs k h => h.keeps hs k) fun p hmem e₁ hs₁ h₁ =>
        tracePlay_leads n p e₁ hs₁ (h₁.grows.keeps.hasPlay (hp p hmem))
end

end Runlist
