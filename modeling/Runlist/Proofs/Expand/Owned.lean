import Runlist.Proofs.Expand.Steps
import Runlist.Proofs.Ranks

/-!
# What an expansion gives

The tasks that an expansion gives are below what is expanded. Things that are expanded one after the
other are told apart by their origins, which are equally deep, so that no task is below two of them.

* `Graph.Below`: a task is below an origin. `Graph.Branches`: it is below an origin of a kind inside
  another.
* `Owns`: a step that gives tasks in a scope, none of them twice.
* `concatEach_owns`: **a loop over things whose scopes are apart gives no task twice.**
* `expandTask_owns`, `expandRoleOn_owns`, `expandPlay_owns`, `expandPlaybook_owns`: neither does an
  expansion.
-/

namespace Runlist

namespace Graph

variable {g g' : Graph} {o m m' p : OriginId} {x : TaskId} {kind kind' : OriginKind}

/-- Of the origins around one, no two are equally deep. -/
theorem eq_of_depth (hm : m ∈ g.lineage o) (hm' : m' ∈ g.lineage o)
    (hdepth : (g.lineage m).length = (g.lineage m').length) : m = m' := by
  obtain ⟨before, after, hsplit⟩ := List.append_of_mem hm
  obtain ⟨before', after', hsplit'⟩ := List.append_of_mem hm'
  rw [lineage_split hsplit, lineage_split hsplit'] at hdepth
  -- a list splits in one way only with so many elements behind
  have heq := List.append_inj_right' (hsplit.symm.trans hsplit') hdepth
  exact (List.cons.inj heq).1

/-- A task is **below an origin**. -/
structure Below (g : Graph) (o : OriginId) (x : TaskId) : Prop where
  has : g.HasTask x
  around : o ∈ g.lineage (g.task x).origin

theorem Below.up (h : g.Below m x) (ho : o ∈ g.lineage m) : g.Below o x :=
  ⟨h.has, mem_lineage_trans h.around ho⟩

theorem Below.keeps (hs : g.Sound) (k : g.Keeps g') (h : g.Below o x) : g'.Below o x := by
  refine ⟨k.hasTask h.has, ?_⟩
  rw [(k.task x h.has).origin, lineage_keeps k (hs.tasks x h.has).origin]
  exact h.around

/-- A task below an origin is below the one around it. -/
theorem Below.outer (hs : g.Sound) (h : g.Below m x) (hm : g.HasOrigin m)
    (hparent : (g.origin m).parent = some o) : g.Below o x := by
  refine h.up ?_
  rw [hs.origins.lineage hm hparent]
  exact List.mem_cons_of_mem _ self_mem_lineage

theorem Inside.lineage (hs : g.Sound) (h : g.Inside kind o m) : g.lineage m = m :: g.lineage o :=
  hs.origins.lineage h.has h.origin

/-- A task is below an origin of a kind that is **directly inside another one**. -/
def Branches (g : Graph) (kind : OriginKind) (o : OriginId) (x : TaskId) : Prop :=
  ∃ m, g.Inside kind o m ∧ g.Below m x

theorem Branches.below (hs : g.Sound) (h : g.Branches kind o x) : g.Below o x := by
  obtain ⟨m, hin, hbelow⟩ := h
  exact hbelow.outer hs hin.has hin.origin

theorem Branches.keeps (hs : g.Sound) (k : g.Keeps g') (h : g.Branches kind o x) :
    g'.Branches kind o x := by
  obtain ⟨m, hin, hbelow⟩ := h
  exact ⟨m, hin.keeps k, hbelow.keeps hs k⟩

/-- No task is below origins of two kinds inside one. -/
theorem Branches.kind_eq (hs : g.Sound) (h : g.Branches kind o x) (h' : g.Branches kind' o x) :
    kind = kind' := by
  obtain ⟨m, hin, hbelow⟩ := h
  obtain ⟨m', hin', hbelow'⟩ := h'
  have heq : m = m' := by
    refine eq_of_depth hbelow.around hbelow'.around ?_
    rw [hin.lineage hs, hin'.lineage hs, List.length_cons, List.length_cons]
  rw [← hin.kind, ← hin'.kind, heq]

/-- Tasks below origins of two kinds inside one. -/
theorem Branches.append (hs : g.Sound) (hne : kind ≠ kind') {ids ids' : List TaskId}
    (hnodup : ids.Nodup) (h : ∀ x ∈ ids, g.Branches kind o x) (hnodup' : ids'.Nodup)
    (h' : ∀ x ∈ ids', g.Branches kind' o x) :
    (ids ++ ids').Nodup ∧ ∀ x ∈ ids ++ ids', g.Below o x := by
  refine ⟨List.nodup_append.2 ⟨hnodup, hnodup', fun x hx y hy hxy => ?_⟩, fun x hx => ?_⟩
  · subst hxy
    exact hne ((h x hx).kind_eq hs (h' x hy))
  · rcases List.mem_append.1 hx with hx | hx
    · exact (h x hx).below hs
    · exact (h' x hx).below hs

/-- What is below a dependency is below what the role declares about itself. -/
theorem Sound.branches_dependency (hs : g.Sound) {r d : RoleId} (hd : g.Depends r d)
    (h : g.Below (g.role d).origin x) : g.Branches .roleMeta (g.role r).origin x := by
  obtain ⟨_, m, -, hkind, hparent, hlin⟩ := hs.lineage_depends hd
  have hm : m ∈ g.lineage (g.role d).origin := by rw [hlin]; simp
  exact ⟨m, ⟨(hs.roles d (hs.hasRole_depends hd).2).origin.mem hm, hkind, hparent⟩, h.up hm⟩

/-- What is below a role of a play is below the reference to it. -/
theorem Sound.branches_role (hs : g.Sound) {p : PlayId} (hp : g.HasPlay p) {r : RoleId}
    (hr : r ∈ (g.play p).roles) (h : g.Below (g.role r).origin x) :
    g.Branches .roleDefinition (g.play p).origin x := by
  obtain ⟨d, hin, hst⟩ := (hs.plays p hp).roles r hr
  exact ⟨d, hin, h.outer hs (hs.roles r hst.has).origin hst.origin⟩

/-- A task is inside what it is placed in. -/
theorem Placed.inside (hs : g.Sound) {role : Option RoleId} {play : Option PlayId}
    (h : g.Placed (some o) role play x) : g.Inside .task o (g.task x).origin :=
  ⟨(hs.tasks x h.has).origin, (hs.tasks x h.has).kind, h.origin⟩

end Graph

/-! ## Steps -/

/-- **A state goes on**: as every request does, and its lists keep ascending. -/
structure Proceeds (site : Site) (s s' : Store) : Prop extends Advances site s s' where
  widens : s.graph.Widens s'.graph

variable {site : Site} {t : Templater}

theorem Proceeds.refl (s : Store) : Proceeds site s s := ⟨.refl s, .refl s.graph⟩

theorem Proceeds.trans {s s₁ s₂ : Store} (h : Proceeds site s s₁) (h' : Proceeds site s₁ s₂) :
    Proceeds site s s₂ := ⟨h.toAdvances.trans h'.toAdvances, h.widens.trans h'.widens⟩

/-- A graph is sound, and its lists ascend. -/
structure Graph.Tidy (g : Graph) : Prop where
  sound : g.Sound
  ranked : g.Ranked

theorem Graph.Tidy.proceeds {s s' : Store} (h : s.graph.Tidy)
    (hp : Proceeds site s s') : s'.graph.Tidy :=
  ⟨hp.sound h.sound, hp.widens.ranked h.ranked⟩

/-- When the step succeeds, **it gives tasks in a scope, none of them twice.** -/
def Owns (site : Site) (step : Expand (List TaskId)) (e : Expansion)
    (scope : Graph → TaskId → Prop) : Prop :=
  Ends step e (fun ids e' => Proceeds site e.store e'.store ∧ ids.Nodup ∧
    ∀ x ∈ ids, scope e'.store.graph x)
    fun _ _ => True

variable {e : Expansion} {step : Expand (List TaskId)} {scope : Graph → TaskId → Prop}

/-- How the state goes on is known, and so is what the step gives. -/
theorem Owns.of {F : ExpandError → Expansion → Prop}
    (hadvances : Ends step e (fun _ e' => Advances site e.store e'.store) F)
    (hwidens : Along (Expansion.On Store.Widens) step)
    (h : Ends step e (fun ids e' => ids.Nodup ∧ ∀ x ∈ ids, scope e'.store.graph x)
      fun _ _ => True) :
    Owns site step e scope :=
  ((hadvances.and (hwidens e)).and h).mono (fun _ _ h => ⟨⟨h.1.1, h.1.2.1⟩, h.2⟩)
    fun _ _ _ => trivial

theorem Owns.imp {scope' : Graph → TaskId → Prop} (hs : e.store.graph.Sound)
    (h : Owns site step e scope)
    (himp : ∀ g x, g.Sound → e.store.graph.Keeps g → scope g x → scope' g x) :
    Owns site step e scope' :=
  h.mono (fun _ _ h =>
    ⟨h.1, h.2.1, fun x hx => himp _ x (h.1.sound hs) h.1.grows.keeps (h.2.2 x hx)⟩)
    fun _ _ h => h

/-- **A loop over things whose scopes are apart** gives no task twice. -/
theorem concatEach_owns {α : Type} {f : α → Expand (List TaskId)} {l : List α}
    (scope : α → Graph → TaskId → Prop) (hs : e.store.graph.Sound)
    (keeps : ∀ {a x} {g g' : Graph}, g.Sound → g.Keeps g' → scope a g x → scope a g' x)
    (apart : l.Pairwise fun a b => ∀ g x, g.Sound → e.store.graph.Keeps g → scope a g x →
      scope b g x → False)
    (round : ∀ a ∈ l, ∀ e₁ : Expansion, Proceeds site e.store e₁.store →
      Owns site (f a) e₁ (scope a)) :
    Owns site (concatEach f l) e fun g x => ∃ a ∈ l, scope a g x := by
  induction l generalizing e with
  | nil => exact ⟨.refl e.store, List.nodup_nil, fun _ hx => (List.not_mem_nil hx).elim⟩
  | cons a l ih =>
    obtain ⟨hhead, htail⟩ := List.pairwise_cons.1 apart
    simp only [Owns, concatEach, ends_bind, ends_pure]
    refine (round a List.mem_cons_self e (.refl e.store)).mono ?_ fun _ _ h => h
    rintro first e₁ ⟨h₁, hfirst, hscope⟩
    have hs₁ := h₁.sound hs
    refine (ih hs₁ (htail.imp fun hab g x hg k => hab g x hg (h₁.grows.keeps.trans k))
      fun b hb e₂ h₂ =>
      round b (List.mem_cons_of_mem _ hb) e₂ (h₁.trans h₂)).mono ?_ fun _ _ h => h
    rintro others e₂ ⟨h₂, hothers, hscopes⟩
    have h₁₂ := h₁.trans h₂
    -- what the first gave is still in its scope, which is apart from those of the others
    have hscope₂ : ∀ x ∈ first, scope a e₂.store.graph x :=
      fun x hx => keeps hs₁ h₂.grows.keeps (hscope x hx)
    refine ⟨h₁₂, List.nodup_append.2 ⟨hfirst, hothers, fun x hx y hy hxy => ?_⟩, fun x hx => ?_⟩
    · subst hxy
      obtain ⟨b, hb, hscopeb⟩ := hscopes x hy
      exact hhead b hb _ x (h₁₂.sound hs) h₁₂.grows.keeps (hscope₂ x hx) hscopeb
    · rcases List.mem_append.1 hx with hx | hx
      · exact ⟨a, List.mem_cons_self, hscope₂ x hx⟩
      · obtain ⟨b, hb, hscopeb⟩ := hscopes x hx
        exact ⟨b, List.mem_cons_of_mem _ hb, hscopeb⟩

/-- **A loop over things whose origins are equally deep.** -/
theorem siblings_own {α : Type} {f : α → Expand (List TaskId)} {l : List α} (origin : α → OriginId)
    (depth : Nat) (hs : e.store.graph.Sound) (hnodup : (l.map origin).Nodup)
    (hdepth : ∀ a ∈ l, e.store.graph.HasOrigin (origin a) ∧
      (e.store.graph.lineage (origin a)).length = depth)
    (round : ∀ a ∈ l, ∀ e₁ : Expansion, Proceeds site e.store e₁.store →
      Owns site (f a) e₁ fun g => g.Below (origin a)) :
    Owns site (concatEach f l) e fun g x => ∃ a ∈ l, g.Below (origin a) x := by
  refine concatEach_owns (fun a g => g.Below (origin a)) hs (fun hs k h => h.keeps hs k) ?_ round
  have hne : l.Pairwise fun a b => origin a ≠ origin b := List.pairwise_map.1 hnodup
  refine hne.imp_of_mem fun {a b} ha hb hab g x _ k hbelow hbelow' => hab ?_
  refine Graph.eq_of_depth hbelow.around hbelow'.around ?_
  rw [Graph.lineage_keeps k (hdepth a ha).1, Graph.lineage_keeps k (hdepth b hb).1, (hdepth a ha).2,
    (hdepth b hb).2]

/-- Tasks inside an origin, each expanded to tasks below it. -/
theorem tasks_own {f : TaskId → Expand (List TaskId)} {xs : List TaskId} (o : OriginId)
    (he : e.store.graph.Tidy) (hnodup : xs.Nodup)
    (hin : ∀ x ∈ xs, e.store.graph.HasTask x ∧
      e.store.graph.Inside .task o (e.store.graph.task x).origin)
    (round : ∀ (x : TaskId) (e : Expansion), e.store.graph.Tidy → e.store.graph.HasTask x →
      Owns site (f x) e fun g => g.Below (e.store.graph.task x).origin) :
    Owns site (concatEach f xs) e fun g => g.Branches .task o := by
  have hs := he.sound
  have hmap : (xs.map fun x => (e.store.graph.task x).origin).Nodup :=
    hnodup.map_on fun x hx y hy heq => hs.taskInj (hin x hx).1 (hin y hy).1 heq
  refine (siblings_own (fun x => (e.store.graph.task x).origin)
    ((e.store.graph.lineage o).length + 1) hs hmap
    (fun x hx => ⟨(hin x hx).2.has, ?_⟩) fun x hx e₁ h₁ => ?_).imp hs ?_
  · rw [(hin x hx).2.lineage hs, List.length_cons]
  · have k₁ := h₁.grows.keeps
    have hround := round x e₁ (he.proceeds h₁) (k₁.hasTask (hin x hx).1)
    rw [(k₁.task x (hin x hx).1).origin] at hround
    exact hround
  · rintro g y hg k ⟨x, hx, hbelow⟩
    exact ⟨_, (hin x hx).2.keeps k, hbelow⟩

/-- Roles whose origins are equally deep, each expanded to tasks below it. -/
theorem roles_own {f : RoleId → Expand (List TaskId)} {rs : List RoleId} (depth : Nat)
    (he : e.store.graph.Tidy) (hnodup : rs.Nodup)
    (hdepth : ∀ r ∈ rs, e.store.graph.HasRole r ∧
      (e.store.graph.lineage (e.store.graph.role r).origin).length = depth)
    (round : ∀ (r : RoleId) (e : Expansion), e.store.graph.Tidy → e.store.graph.HasRole r →
      Owns site (f r) e fun g => g.Below (e.store.graph.role r).origin) :
    Owns site (concatEach f rs) e fun g x => ∃ r ∈ rs, g.Below (e.store.graph.role r).origin x := by
  have hs := he.sound
  have hmap : (rs.map fun r => (e.store.graph.role r).origin).Nodup :=
    hnodup.map_on fun r hr q hq heq => hs.roleInj (hdepth r hr).1 (hdepth q hq).1 heq
  refine siblings_own (fun r => (e.store.graph.role r).origin) depth hs hmap
    (fun r hr => ⟨(hs.roles r (hdepth r hr).1).origin, (hdepth r hr).2⟩) fun r hr e₁ h₁ => ?_
  have k₁ := h₁.grows.keeps
  have hround := round r e₁ (he.proceeds h₁) (k₁.hasRole (hdepth r hr).1)
  rw [(k₁.role r (hdepth r hr).1).origin] at hround
  exact hround

/-! ## Directives -/

namespace Graph

variable {g : Graph}

theorem keeps_adoptOne (parent x : TaskId) : g.Keeps (g.adoptOne parent x) := by
  unfold adoptOne
  simp only
  split
  · rename_i h
    exact keeps_modifyTask ⟨rfl, rfl, rfl, fun p hp => by rw [h.2] at hp; cases hp⟩
  · exact (Stays.refl g).keeps

/-- To make a task an ancestor keeps places. -/
theorem keeps_adopt (ids : List TaskId) (parent : TaskId) : g.Keeps (g.adopt ids parent) := by
  unfold adopt
  induction ids generalizing g with
  | nil => exact (Stays.refl g).keeps
  | cons x ids ih => exact (keeps_adoptOne parent x).trans ih

end Graph

variable {x : TaskId} {o : OriginId} {ids : List TaskId}

/-- What a directive adopts stays below an origin. -/
theorem below_adopt (hs : e.store.graph.Sound) (hids : ∀ y ∈ ids, e.store.graph.Below o y)
    (x : TaskId) : ∀ y ∈ ids, (e.close.adopt ids x).store.graph.Below o y :=
  fun y hy => (hids y hy).keeps hs (Graph.keeps_adopt ids x)

theorem includeParams_proceeds {α : Type} {read : Json → Except ShapeError α}
    {textKey action : String} (he : e.store.graph.Tidy) (hx : e.store.graph.HasTask x) :
    Ends (includeParams site t read textKey x action) e (fun _ e' => Proceeds site e.store e'.store)
      fun _ _ => True :=
  ((includeParams_ends he.sound hx).and ((steady_widens site).includeParams x action e)).mono
    (fun _ _ h => ⟨h.1.1, h.2.1⟩)
    fun _ _ _ => trivial

/-- A directive that includes a file of tasks gives tasks below it. -/
theorem expandTaskInclude_gives (he : e.store.graph.Tidy) (hx : e.store.graph.HasTask x)
    {expand : TaskId → Expand (List TaskId)}
    (hexpand : ∀ (c : TaskId) (e : Expansion), e.store.graph.Tidy → e.store.graph.HasTask c →
      Owns site (expand c) e fun g => g.Below (e.store.graph.task c).origin) (action : String) :
    Ends (expandTaskInclude site t expand x action) e
      (fun ids e' => ids.Nodup ∧ ∀ y ∈ ids, e'.store.graph.Below (e.store.graph.task x).origin y)
      fun _ _ => True := by
  refine (ends_congr (run_expandTaskInclude ..)).2 (ends_expandDirective_ok (fun _ _ => trivial) ?_)
  refine (includeParams_proceeds he hx).mono ?_ fun _ _ _ => trivial
  intro params e₁ h₁
  have he₁ := he.proceeds h₁
  dsimp only
  rw [ends_bind, ends_load]
  refine ((loadTasks_included he.sound hx h₁.toAdvances _).and
    (loadTasksIn_ascends site _ _ _ _ e₁.store)).mono ?_ fun _ _ _ => trivial
  rintro xs s₂ ⟨⟨hext, hstamped, -⟩, hwidens, -, hascends⟩
  have he₂ : s₂.graph.Tidy := ⟨hext.sound he₁.sound, hwidens.ranked he₁.ranked⟩
  refine (tasks_own (e := ⟨s₂, _⟩) (e.store.graph.task x).origin he₂ hascends.nodup (fun c hc => ?_)
    hexpand).mono ?_ fun _ _ _ => trivial
  · exact ⟨(hstamped c hc).placed.has, (hstamped c hc).placed.inside he₂.sound⟩
  · rintro ids e₃ ⟨h₃, hnodup, hids⟩
    have hs₃ := h₃.sound he₂.sound
    exact ⟨hnodup, below_adopt hs₃ (fun y hy => (hids y hy).below hs₃) x⟩

/-- A directive that includes a role gives tasks below it. -/
theorem expandRoleInclude_gives (he : e.store.graph.Tidy) (hx : e.store.graph.HasTask x)
    {expand : RoleId → Expand (List TaskId)}
    (hexpand : ∀ (r : RoleId) (e : Expansion), e.store.graph.Tidy → e.store.graph.HasRole r →
      Owns site (expand r) e fun g => g.Below (e.store.graph.role r).origin) (action : String) :
    Ends (expandRoleInclude site t expand x action) e
      (fun ids e' => ids.Nodup ∧ ∀ y ∈ ids, e'.store.graph.Below (e.store.graph.task x).origin y)
      fun _ _ => True := by
  refine (ends_congr (run_expandRoleInclude ..)).2 (ends_expandDirective_ok (fun _ _ => trivial) ?_)
  refine (includeParams_proceeds he hx).mono ?_ fun _ _ _ => trivial
  intro params e₁ h₁
  have he₁ := he.proceeds h₁
  rw [ends_bind, ends_load]
  refine ((loadRole_included he.sound hx h₁.toAdvances params.name params.selection).and
    (loadRoleWith_ascends site _ _ _ _ e₁.store)).mono ?_ fun _ _ _ => trivial
  rintro r s₂ ⟨⟨hext, _, -, hrole⟩, hwidens, -⟩
  have he₂ : s₂.graph.Tidy := ⟨hext.sound he₁.sound, hwidens.ranked he₁.ranked⟩
  refine (hexpand r ⟨s₂, _⟩ he₂ hrole.has).mono ?_ fun _ _ _ => trivial
  rintro ids e₃ ⟨h₃, hnodup, hids⟩
  have hs₃ := h₃.sound he₂.sound
  have horigin := (he₂.sound.roles r hrole.has).origin
  have k₃ := h₃.grows.keeps
  have hparent : (e₃.store.graph.origin (s₂.graph.role r).origin).parent =
      some (e.store.graph.task x).origin := by
    rw [k₃.origin _ horigin]; exact hrole.origin
  exact ⟨hnodup,
    below_adopt hs₃ (fun y hy => (hids y hy).outer hs₃ (k₃.hasOrigin horigin) hparent) x⟩

/-! ## Expansions -/

mutual
/-- **The expansion of a task gives tasks below it**, none of them twice. -/
theorem expandTask_owns : ∀ (n : Nat) (x : TaskId) (e : Expansion), e.store.graph.Tidy →
    e.store.graph.HasTask x → Owns site (expandTask site t n x) e fun g =>
      g.Below (e.store.graph.task x).origin
  | 0, _, _, _, _ => ends_expandTask_zero.2 trivial
  | n + 1, x, e, he, hx => by
    have hs := he.sound
    have htask := hs.tasks x hx
    refine .of (expandTask_ends (n + 1) hs hx) ((steady_widens site).expandTask (n + 1) x) ?_
    refine ends_expandTask (fun _ => ?_) (fun action _ => ?_) (fun action _ => ?_) fun _ => ?_
    · refine (tasks_own (e.store.graph.task x).origin he (he.ranked.block x).nodup (fun c hc => ?_)
        (expandTask_owns n)).mono ?_ fun _ _ h => h
      · exact ⟨(htask.block c hc).2.has, (htask.block c hc).2.inside hs⟩
      · rintro ids e₁ ⟨h₁, hnodup, hids⟩
        exact ⟨hnodup, fun y hy => (hids y hy).below (h₁.sound hs)⟩
    · exact expandTaskInclude_gives he hx (expandTask_owns n) action
    · exact expandRoleInclude_gives he hx (fun r e he hr => expandRoleOn_owns n r [] e he hr) action
    · refine ⟨List.nodup_singleton x, fun y hy => ?_⟩
      rw [List.mem_singleton.1 hy]
      exact ⟨hx, Graph.self_mem_lineage⟩

/-- **The expansion of a role gives tasks below it**, none of them twice. -/
theorem expandRoleOn_owns :
    ∀ (n : Nat) (r : RoleId) (path : List String) (e : Expansion), e.store.graph.Tidy →
    e.store.graph.HasRole r →
    Owns site (expandRoleOn site t n r path) e fun g => g.Below (e.store.graph.role r).origin
  | 0, _, _, _, _, _ => ends_expandRoleOn_zero.2 trivial
  | n + 1, r, path, e, he, hr => by
    have hs := he.sound
    refine .of (expandRoleOn_ends (n + 1) path hs hr)
      ((steady_widens site).expandRoleOn (n + 1) r path) ?_
    refine ends_expandRoleOn (fun path _ => ?_) fun _ _ => trivial
    simp only [ends_bind, ends_load, ends_expand_graph, ends_pure]
    refine ((directDependencies_ends hs hr).and (directDependencies_widens site r e.store)).mono ?_
      fun _ _ _ => trivial
    rintro direct s₁ ⟨hfound, hwidens⟩
    have h₁ : Proceeds site e.store s₁ := ⟨hfound.learns.toAdvances, hwidens⟩
    have he₁ := he.proceeds h₁
    have hs₁ := he₁.sound
    have hdepends : ∀ d ∈ direct, s₁.graph.Depends r d := fun d hd => ⟨direct, hfound.direct, hd⟩
    have horigin : (s₁.graph.role r).origin = (e.store.graph.role r).origin :=
      (h₁.grows.keeps.role r hr).origin
    -- between a role and a dependency there are the origins of the declaration and of the reference
    refine (roles_own ((s₁.graph.lineage (s₁.graph.role r).origin).length + 3) he₁
      (he₁.ranked.direct r direct hfound.direct).nodup (fun d hd => ?_)
      fun d e he hd => expandRoleOn_owns n d path e he hd).mono ?_ fun _ _ h => h
    · obtain ⟨_, _, -, -, -, hlin⟩ := hs₁.lineage_depends (hdepends d hd)
      refine ⟨(hs₁.hasRole_depends (hdepends d hd)).2, ?_⟩
      rw [hlin]; rfl
    · rintro below e₂ ⟨h₂, hbelow, hdeps⟩
      have he₂ := he₁.proceeds h₂
      have hr₂ := h₂.grows.keeps.hasRole (h₁.grows.keeps.hasRole hr)
      have hrole := he₂.sound.roles r hr₂
      have horigin₂ := (h₂.grows.keeps.role r (h₁.grows.keeps.hasRole hr)).origin.trans horigin
      refine (tasks_own (e₂.store.graph.role r).origin he₂ (he₂.ranked.roleTasks r).nodup
        (fun c hc => ?_)
        (expandTask_owns n)).mono ?_ fun _ _ h => h
      · exact ⟨(hrole.tasks c hc).has, (hrole.tasks c hc).inside he₂.sound⟩
      · rintro own e₃ ⟨h₃, hown, htasks⟩
        have hs₃ := h₃.sound he₂.sound
        have k₃ := (h₂.trans h₃).grows.keeps
        rw [horigin₂] at htasks
        -- the tasks of dependencies are below what the role declares about itself, its own are not
        have hne : OriginKind.roleMeta ≠ .task := by decide
        refine Graph.Branches.append hs₃ hne hbelow (fun y hy => ?_) hown htasks
        obtain ⟨d, hd, hy⟩ := hdeps y hy
        have hdep := Graph.depends_keeps hs₁ k₃ (hdepends d hd)
        have hbranch := hs₃.branches_dependency hdep (x := y)
        rw [(k₃.role d (hs₁.hasRole_depends (hdepends d hd)).2).origin,
          (k₃.role r (h₁.grows.keeps.hasRole hr)).origin, horigin] at hbranch
        exact hbranch (hy.keeps (he₂.sound) h₃.grows.keeps)
end

/-! ## Plays and playbooks -/

/-- **Plays that are told apart**, all of them directly inside one origin, or inside none. -/
structure Graph.Siblings (g : Graph) (around : Option OriginId) (plays : List PlayId) : Prop where
  nodup : plays.Nodup
  inside : ∀ p ∈ plays, g.HasPlay p ∧ (g.origin (g.play p).origin).parent = around

namespace Graph.Siblings

variable {g g' : Graph} {around : Option OriginId} {plays : List PlayId}

theorem keeps (hs : g.Sound) (k : g.Keeps g') (h : g.Siblings around plays) :
    g'.Siblings around plays := by
  refine ⟨h.nodup, fun p hp => ?_⟩
  obtain ⟨hhas, ho⟩ := h.inside p hp
  refine ⟨k.hasPlay hhas, ?_⟩
  rw [k.play p hhas, k.origin _ (hs.plays p hhas).origin]; exact ho

/-- They are equally deep. -/
theorem depth (hs : g.Sound) (h : g.Siblings around plays) : ∃ depth, ∀ p ∈ plays,
    g.HasOrigin (g.play p).origin ∧ (g.lineage (g.play p).origin).length = depth := by
  have hinside : ∀ p ∈ plays, g.HasOrigin (g.play p).origin ∧
      (g.origin (g.play p).origin).parent = around :=
    fun p hp => ⟨(hs.plays p (h.inside p hp).1).origin, (h.inside p hp).2⟩
  cases around with
  | none =>
    refine ⟨1, fun p hp => ⟨(hinside p hp).1, ?_⟩⟩
    rw [lineage_root (hinside p hp).2]; rfl
  | some o =>
    refine ⟨(g.lineage o).length + 1, fun p hp => ⟨(hinside p hp).1, ?_⟩⟩
    rw [hs.origins.lineage (hinside p hp).1 (hinside p hp).2]; rfl

end Graph.Siblings

/-- **The plays of a document are told apart**, from each other and from those that are there. -/
theorem loadPlaybook_siblings {s : Store} (hs : s.graph.Sound) {around : Option OriginId}
    (ho : ∀ o, around = some o → s.graph.HasOrigin o) (path : FilePath) :
    Ends (loadPlaybook site around path) s
      (fun pb s' => Proceeds site s s' ∧ s'.graph.Siblings around pb.plays ∧
        ∀ p ∈ pb.plays, ¬ s.graph.HasPlay p)
      fun _ s' => Proceeds site s s' := by
  refine ((loadPlaybook_ends hs ho path).and (loadPlaybook_ascends site around path s)).mono ?_
    fun _ _ h => ⟨h.1.1.advances, h.2⟩
  rintro pb s' ⟨⟨hext, -, ds, -, hloaded⟩, hwidens, hascends⟩
  have hplay : ∀ p ∈ pb.plays, ∃ d, LoadedPlay site s s' around path d p := by
    intro p hp
    obtain ⟨d, -, hd⟩ := exists_left hloaded hp
    exact ⟨d, hd⟩
  refine ⟨⟨hext.advances, hwidens⟩, ⟨hascends.nodup, fun p hp => ?_⟩, fun p hp => ?_⟩
  · obtain ⟨d, hd⟩ := hplay p hp
    exact ⟨hd.shows.has, hd.origin⟩
  · obtain ⟨d, hd⟩ := hplay p hp
    exact hd.new

mutual
/-- **The expansion of a play gives tasks below it**, none of them twice. -/
theorem expandPlay_owns : ∀ (n : Nat) (p : PlayId) (e : Expansion), e.store.graph.Tidy →
    e.store.graph.HasPlay p → Owns site (expandPlay site t n p) e fun g =>
      g.Below (e.store.graph.play p).origin
  | 0, _, _, _, _ => ends_expandPlay_zero.2 trivial
  | n + 1, p, e, he, hp => by
    have hs := he.sound
    have hplay := hs.plays p hp
    refine .of (expandPlay_ends (n + 1) hs hp) ((steady_widens site).expandPlay (n + 1) p) ?_
    refine ends_expandPlay (fun target _ => ?_) fun _ => ?_
    · rw [ends_bind, ends_load]
      have ho : ∀ o, some (e.store.graph.play p).origin = some o → e.store.graph.HasOrigin o := by
        rintro _ ⟨⟩; exact hplay.origin
      refine (loadPlaybook_siblings hs ho _).mono ?_ fun _ _ _ => ends_failed fun _ => trivial
      rintro pb s₁ ⟨h₁, hsiblings, -⟩
      have he₁ := he.proceeds h₁
      refine (expandPlaybook_owns n pb { e with store := s₁ } he₁ hsiblings).mono ?_
        fun _ _ _ => ends_failed fun _ => trivial
      rintro ids e₂ ⟨h₂, hnodup, hids⟩
      refine ⟨hnodup, fun y hy => ?_⟩
      obtain ⟨q, hq, hbelow⟩ := hids y hy
      obtain ⟨hhas, hparent⟩ := hsiblings.inside q hq
      have horigin := (he₁.sound.plays q hhas).origin
      have k₂ := h₂.grows.keeps
      refine hbelow.outer (h₂.sound he₁.sound) (k₂.hasOrigin horigin) ?_
      rw [k₂.origin _ horigin]; exact hparent
    · simp only [ends_bind, ends_pure]
      refine (tasks_own (e.store.graph.play p).origin he (he.ranked.playTasks p).nodup
        (fun c hc => ?_)
        (expandTask_owns n)).mono ?_ fun _ _ h => h
      · exact ⟨(hplay.tasks c hc).has, (hplay.tasks c hc).inside hs⟩
      · rintro tasks e₁ ⟨h₁, htasks, hscope⟩
        have he₁ := he.proceeds h₁
        have hroles : ∀ r ∈ (e.store.graph.play p).roles, e.store.graph.HasRole r := by
          intro r hr
          obtain ⟨_, -, hst⟩ := hplay.roles r hr
          exact hst.has
        refine (roles_own ((e.store.graph.lineage (e.store.graph.play p).origin).length + 2) he₁
          (he.ranked.playRoles p).nodup (fun r hr => ?_)
          fun r e he hr => expandRoleOn_owns n r [] e he hr).mono ?_ fun _ _ h => h
        · obtain ⟨d, hin, hst⟩ := hplay.roles r hr
          have horigin := (hs.roles r hst.has).origin
          have k₁ := h₁.grows.keeps
          refine ⟨k₁.hasRole hst.has, ?_⟩
          rw [(k₁.role r hst.has).origin, Graph.lineage_keeps k₁ horigin,
            hs.origins.lineage horigin hst.origin, hin.lineage hs]
          rfl
        · rintro roles e₂ ⟨h₂, hnodup, hids⟩
          have h₁₂ := h₁.trans h₂
          have hs₂ := h₁₂.sound hs
          have heq := h₁₂.grows.play p hp
          -- the tasks of its roles are below the references to these, its own are not
          have hne : OriginKind.task ≠ .roleDefinition := by decide
          refine Graph.Branches.append hs₂ hne htasks (fun y hy =>
            (hscope y hy).keeps he₁.sound h₂.grows.keeps)
            hnodup fun y hy => ?_
          obtain ⟨r, hr, hbelow⟩ := hids y hy
          have hhas := h₁.grows.keeps.hasRole (hroles r hr)
          have hbranch := hs₂.branches_role (h₁₂.grows.keeps.hasPlay hp) (r := r) (x := y)
            (by rw [heq]; exact hr)
          rw [(h₂.grows.keeps.role r hhas).origin, heq] at hbranch
          exact hbranch hbelow

/-- **The expansion of a playbook gives tasks below its plays**, none of them twice. -/
theorem expandPlaybook_owns : ∀ (n : Nat) (pb : Playbook) (e : Expansion), e.store.graph.Tidy →
    ∀ {around : Option OriginId}, e.store.graph.Siblings around pb.plays →
    Owns site (expandPlaybook site t n pb) e
      fun g x => ∃ p ∈ pb.plays, g.Below (e.store.graph.play p).origin x
  | 0, _, _, _, _, _ => ends_expandPlaybook_zero.2 trivial
  | n + 1, pb, e, he, _, hpb => by
    have hs := he.sound
    refine .of (expandPlaybook_ends (n + 1) hs fun p hp => (hpb.inside p hp).1)
      ((steady_widens site).expandPlaybook (n + 1) pb) ?_
    have hmap : (pb.plays.map fun p => (e.store.graph.play p).origin).Nodup :=
      hpb.nodup.map_on fun p hp q hq heq => hs.playInj (hpb.inside p hp).1 (hpb.inside q hq).1 heq
    obtain ⟨depth, hdepth⟩ := hpb.depth hs
    have hplays : Owns site (concatEach (expandPlay site t n) pb.plays)
        (e.enter site (.file pb.path)) fun g x =>
        ∃ p ∈ pb.plays, g.Below (e.store.graph.play p).origin x := by
      refine siblings_own (fun p => (e.store.graph.play p).origin) depth hs hmap hdepth
        fun p hp e₁ h₁ => ?_
      have k₁ := h₁.grows.keeps
      have hround := expandPlay_owns n p e₁ (he.proceeds h₁) (k₁.hasPlay (hpb.inside p hp).1)
      rw [k₁.play p (hpb.inside p hp).1] at hround
      exact hround
    exact ends_expandPlaybook (fun _ => trivial) fun _ =>
      hplays.mono (fun _ _ h => h.2) fun _ _ h => h
end

end Runlist
