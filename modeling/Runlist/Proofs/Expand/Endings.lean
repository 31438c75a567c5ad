import Runlist.Proofs.Expand.Leaves
import Runlist.Proofs.Expand.Owned

/-!
# What expansion ends with

An expansion that succeeds has nothing left to expand: the tasks that it gives are no blocks and no
directives, whatever state it was made in, and they stay so.

* `Graph.IsLeaf`: a task that is expanded to itself.
* `Entity.Valid`: the handles of an entity are those of a graph.
* `expandTask_leaves`, `expandPlaybook_leaves` and the like: **expansion gives such tasks only.**
-/

namespace Runlist

/-- **A task that is expanded to itself.** -/
structure Graph.IsLeaf (g : Graph) (x : TaskId) : Prop where
  has : g.HasTask x
  kind : (g.task x).kind = .leaf

variable {site : Site} {t : Templater} {e : Expansion} {x : TaskId}

theorem Graph.IsLeaf.stays {g g' : Graph} (hg : g.Stays g') (h : g.IsLeaf x) : g'.IsLeaf x where
  has := hg.keeps.hasTask h.has
  kind := by
    rw [(hg.task x h.has).same]
    exact h.kind

/-- When the step succeeds, **it gives tasks that are expanded to themselves.** -/
def Ripens (site : Site) (step : Expand (List TaskId)) (e : Expansion) : Prop :=
  Ends step e (fun ids e' => Advances site e.store e'.store ∧ ∀ y ∈ ids, e'.store.graph.IsLeaf y)
    fun _ _ => True

theorem Ripens.of {step : Expand (List TaskId)} {F : ExpandError → Expansion → Prop}
    (hadvances : Ends step e (fun _ e' => Advances site e.store e'.store) F)
    (h : Ends step e (fun ids e' => ∀ y ∈ ids, e'.store.graph.IsLeaf y) fun _ _ => True) :
    Ripens site step e :=
  (hadvances.and h).mono (fun _ _ h => h) fun _ _ _ => trivial

theorem concatEach_ripens (site : Site) {α : Type} {f : α → Expand (List TaskId)} {l : List α}
    (round : ∀ a ∈ l, ∀ e₁ : Expansion, Advances site e.store e₁.store → Ripens site (f a) e₁) :
    Ripens site (concatEach f l) e := by
  induction l generalizing e with
  | nil => exact ⟨.refl e.store, fun _ hy => (List.not_mem_nil hy).elim⟩
  | cons a l ih =>
    simp only [Ripens, concatEach, ends_bind, ends_pure]
    refine (round a List.mem_cons_self e (.refl e.store)).mono ?_ fun _ _ h => h
    rintro first e₁ ⟨h₁, hfirst⟩
    refine (ih fun b hb e₂ h₂ => round b (List.mem_cons_of_mem _ hb) e₂ (h₁.trans h₂)).mono ?_
      fun _ _ h => h
    rintro others e₂ ⟨h₂, hothers⟩
    refine ⟨h₁.trans h₂, fun y hy => ?_⟩
    rcases List.mem_append.1 hy with hy | hy
    · exact (hfirst y hy).stays h₂.grows.toStays
    · exact hothers y hy

/-! ## Directives -/

/-- A task that is adopted is what it was. -/
theorem Graph.IsLeaf.adopt {g : Graph} {y : TaskId} (h : g.IsLeaf y) (ids : List TaskId)
    (x : TaskId) : (g.adopt ids x).IsLeaf y := by
  induction ids generalizing g with
  | nil => exact h
  | cons c ids ih =>
    refine ih (g := g.adoptOne x c) ?_
    unfold Graph.adoptOne
    dsimp only
    split
    · refine ⟨Graph.hasTask_modifyTask.2 h.has, ?_⟩
      rw [Graph.task_modifyTask]
      split
      · rename_i hy
        rw [← hy.1]
        exact h.kind
      · exact h.kind
    · exact h

theorem expandTaskInclude_leaves (hs : e.store.graph.Sound) (hx : e.store.graph.HasTask x)
    {expand : TaskId → Expand (List TaskId)}
    (hexpand : ∀ (c : TaskId) (e : Expansion), e.store.graph.Sound → e.store.graph.HasTask c →
      Ripens site (expand c) e)
    (action : String) :
    Ends (expandTaskInclude site t expand x action) e
      (fun ids e' => ∀ y ∈ ids, e'.store.graph.IsLeaf y)
      fun _ _ => True := by
  refine (ends_congr (run_expandTaskInclude ..)).2 (ends_expandDirective_ok (fun _ _ => trivial) ?_)
  refine (includeParams_ends hs hx).mono ?_ fun _ _ _ => trivial
  rintro params e₁ ⟨h₁, -⟩
  dsimp only
  rw [ends_bind, ends_load]
  refine (loadTasks_included hs hx h₁ _).mono ?_ fun _ _ _ => trivial
  rintro xs s₂ ⟨hext, hstamped, -⟩
  have hs₂ : s₂.graph.Sound := hext.advances.sound (h₁.sound hs)
  refine (concatEach_ripens (e := ⟨s₂, _⟩) site fun c hc e₃ h₃ => ?_).mono ?_ fun _ _ _ => trivial
  · exact hexpand c e₃ (h₃.sound hs₂) (h₃.grows.keeps.hasTask (hstamped c hc).placed.has)
  · exact fun ids e₃ h₃ y hy => (h₃.2 y hy).adopt ids x

theorem expandRoleInclude_leaves (hs : e.store.graph.Sound) (hx : e.store.graph.HasTask x)
    {expand : RoleId → Expand (List TaskId)}
    (hexpand : ∀ (r : RoleId) (e : Expansion), e.store.graph.Sound → e.store.graph.HasRole r →
      Ripens site (expand r) e)
    (action : String) :
    Ends (expandRoleInclude site t expand x action) e
      (fun ids e' => ∀ y ∈ ids, e'.store.graph.IsLeaf y)
      fun _ _ => True := by
  refine (ends_congr (run_expandRoleInclude ..)).2 (ends_expandDirective_ok (fun _ _ => trivial) ?_)
  refine (includeParams_ends hs hx).mono ?_ fun _ _ _ => trivial
  rintro params e₁ ⟨h₁, -⟩
  rw [ends_bind, ends_load]
  refine (loadRole_included hs hx h₁ params.name params.selection).mono ?_ fun _ _ _ => trivial
  rintro r s₂ ⟨hext, _, -, hrole⟩
  refine (hexpand r ⟨s₂, _⟩ (hext.advances.sound (h₁.sound hs)) hrole.has).mono ?_
    fun _ _ _ => trivial
  exact fun ids e₃ h₃ y hy => (h₃.2 y hy).adopt ids x

/-! ## Expansions -/

mutual
/-- **The expansion of a task gives tasks that are expanded to themselves.** -/
theorem expandTask_leaves : ∀ (n : Nat) (x : TaskId) (e : Expansion), e.store.graph.Sound →
    e.store.graph.HasTask x → Ripens site (expandTask site t n x) e
  | 0, _, _, _, _ => ends_expandTask_zero.2 trivial
  | n + 1, x, e, hs, hx => by
    refine .of (expandTask_ends (n + 1) hs hx) ?_
    refine ends_expandTask (fun _ => ?_) (fun action _ => ?_) (fun action _ => ?_) fun hk => ?_
    · refine (concatEach_ripens site fun c hc e₁ h₁ => ?_).mono (fun _ _ h => h.2) fun _ _ h => h
      exact expandTask_leaves n c e₁ (h₁.sound hs)
        (h₁.grows.keeps.hasTask ((hs.tasks x hx).block c hc).2.has)
    · exact expandTaskInclude_leaves hs hx (expandTask_leaves n) action
    · exact expandRoleInclude_leaves hs hx
        (fun r e hs hr => expandRoleOn_leaves n r [] e hs hr) action
    · intro y hy
      rw [List.mem_singleton.1 hy]
      exact ⟨hx, hk⟩

/-- **So does that of a role.** -/
theorem expandRoleOn_leaves :
    ∀ (n : Nat) (r : RoleId) (path : List String) (e : Expansion), e.store.graph.Sound →
    e.store.graph.HasRole r → Ripens site (expandRoleOn site t n r path) e
  | 0, _, _, _, _, _ => ends_expandRoleOn_zero.2 trivial
  | n + 1, r, path, e, hs, hr => by
    refine .of (expandRoleOn_ends (n + 1) path hs hr) ?_
    refine ends_expandRoleOn (fun path _ => ?_) fun _ _ => trivial
    simp only [ends_bind, ends_load, ends_expand_graph, ends_pure]
    refine (directDependencies_ends hs hr).mono ?_ fun _ _ _ => trivial
    intro direct s₁ hfound
    have h₁ := hfound.learns.toAdvances
    have hs₁ := h₁.sound hs
    refine (concatEach_ripens (e := ⟨s₁, _⟩) site fun d hd e₂ h₂ => ?_).mono ?_ fun _ _ h => h
    · have hdepends : s₁.graph.Depends r d := ⟨direct, hfound.direct, hd⟩
      exact expandRoleOn_leaves n d path e₂ (h₂.sound hs₁)
        (h₂.grows.keeps.hasRole (hs₁.hasRole_depends hdepends).2)
    · rintro below e₂ ⟨h₂, hbelow⟩
      have hs₂ := h₂.sound hs₁
      have hr₂ := h₂.grows.keeps.hasRole (h₁.grows.keeps.hasRole hr)
      refine (concatEach_ripens site fun c hc e₃ h₃ => ?_).mono ?_ fun _ _ h => h
      · exact expandTask_leaves n c e₃ (h₃.sound hs₂)
          (h₃.grows.keeps.hasTask ((hs₂.roles r hr₂).tasks c hc).has)
      · rintro own e₃ ⟨h₃, hown⟩ y hy
        rcases List.mem_append.1 hy with hy | hy
        · exact (hbelow y hy).stays h₃.grows.toStays
        · exact hown y hy
end

mutual
/-- **So does that of a play.** -/
theorem expandPlay_leaves : ∀ (n : Nat) (p : PlayId) (e : Expansion), e.store.graph.Sound →
    e.store.graph.HasPlay p → Ripens site (expandPlay site t n p) e
  | 0, _, _, _, _ => ends_expandPlay_zero.2 trivial
  | n + 1, p, e, hs, hp => by
    have hplay := hs.plays p hp
    refine .of (expandPlay_ends (n + 1) hs hp) ?_
    refine ends_expandPlay (fun target _ => ?_) fun _ => ?_
    · rw [ends_bind, ends_load]
      have ho : ∀ o, some (e.store.graph.play p).origin = some o → e.store.graph.HasOrigin o := by
        rintro _ ⟨⟩; exact hplay.origin
      refine (loadPlaybook_ends hs ho _).mono ?_ fun _ _ _ => ends_failed fun _ => trivial
      rintro pb s₁ ⟨hext, -, ds, -, hloaded⟩
      refine (expandPlaybook_leaves n pb { e with store := s₁ } (hext.advances.sound hs)
        fun q hq => ?_).mono
        (fun _ _ h => h.2) fun _ _ _ => ends_failed fun _ => trivial
      obtain ⟨d, -, hd⟩ := exists_left hloaded hq
      exact hd.shows.has
    · simp only [ends_bind, ends_pure]
      refine (concatEach_ripens site fun c hc e₁ h₁ => ?_).mono ?_ fun _ _ h => h
      · exact expandTask_leaves n c e₁ (h₁.sound hs) (h₁.grows.keeps.hasTask (hplay.tasks c hc).has)
      · rintro tasks e₁ ⟨h₁, htasks⟩
        refine (concatEach_ripens site fun r hr e₂ h₂ => ?_).mono ?_ fun _ _ h => h
        · obtain ⟨_, -, hst⟩ := hplay.roles r hr
          exact expandRoleOn_leaves n r [] e₂ (h₂.sound (h₁.sound hs))
            (h₂.grows.keeps.hasRole (h₁.grows.keeps.hasRole hst.has))
        · rintro roles e₂ ⟨h₂, hroles⟩ y hy
          rcases List.mem_append.1 hy with hy | hy
          · exact (htasks y hy).stays h₂.grows.toStays
          · exact hroles y hy

/-- **And that of a playbook.** -/
theorem expandPlaybook_leaves : ∀ (n : Nat) (pb : Playbook) (e : Expansion), e.store.graph.Sound →
    (∀ p ∈ pb.plays, e.store.graph.HasPlay p) → Ripens site (expandPlaybook site t n pb) e
  | 0, _, _, _, _ => ends_expandPlaybook_zero.2 trivial
  | n + 1, pb, e, hs, hpb => by
    refine .of (expandPlaybook_ends (n + 1) hs hpb) ?_
    have hplays : Ripens site (concatEach (expandPlay site t n) pb.plays)
        (e.enter site (.file pb.path)) :=
      concatEach_ripens site fun p hp e₁ h₁ =>
        expandPlay_leaves n p e₁ (h₁.sound hs) (h₁.grows.keeps.hasPlay (hpb p hp))
    exact ends_expandPlaybook (fun _ => trivial) fun _ =>
      hplays.mono (fun _ _ h => h.2) fun _ _ h => h
end

/-! ## Entities -/

/-- The handles of an entity are those of a graph. -/
def Entity.Valid (g : Graph) : Entity → Prop
  | task x => g.HasTask x
  | role r => g.HasRole r
  | play p => g.HasPlay p
  | playbook pb => ∀ p ∈ pb.plays, g.HasPlay p

theorem Entity.Valid.keeps {g g' : Graph} (k : g.Keeps g') {a : Entity}
    (h : a.Valid g) : a.Valid g' := by
  cases a with
  | task x => exact k.hasTask h
  | role r => exact k.hasRole h
  | play p => exact k.hasPlay h
  | playbook pb => exact fun p hp => k.hasPlay (h p hp)

theorem Entity.expand_leaves (n : Nat) {a : Entity} (hs : e.store.graph.Sound)
    (h : a.Valid e.store.graph) : Ripens site (a.expand site t n) e := by
  cases a with
  | task x => exact expandTask_leaves n x e hs h
  | role r => exact expandRoleOn_leaves n r [] e hs h
  | play p => exact expandPlay_leaves n p e hs h
  | playbook pb => exact expandPlaybook_leaves n pb e hs h

/-- **What any entities are expanded to, one after the other, is expanded to itself.** -/
theorem expand_leaves (n : Nat) {as : List Entity} (hs : e.store.graph.Sound)
    (h : ∀ a ∈ as, a.Valid e.store.graph) :
    Ripens site (concatEach (Entity.expand site t n) as) e :=
  concatEach_ripens site fun a ha _ h₁ =>
    a.expand_leaves n (h₁.sound hs) ((h a ha).keeps h₁.grows.keeps)

end Runlist
