import Runlist.Proofs.Graph.Sound

/-!
# Single changes of a graph

For each way to change a graph: what it keeps, and when the changed graph is sound.

* `Sound.addOrigin`, `Sound.addTask`, `Sound.addPlay`, `Sound.addRole`: something new.
* `Sound.modifyTask`, `Sound.modifyPlay`, `Sound.modifyRole`: one entity changed.
-/

namespace Runlist.Graph

variable {g g₀ : Graph}

theorem origin_addOrigin_of_has (o : Origin) {id : OriginId} (h : g.HasOrigin id) :
    (g.addOrigin o).2.origin id = g.origin id := by
  rw [origin_addOrigin, if_neg (ne_of_lt h)]

theorem origin_addOrigin_self (o : Origin) : (g.addOrigin o).2.origin ⟨g.origins.size⟩ = o := by
  rw [origin_addOrigin, if_pos rfl]

theorem task_addTask_of_has (t : Task) {x : TaskId} (h : g.HasTask x) :
    (g.addTask t).2.task x = g.task x := by
  rw [task_addTask, if_neg (ne_of_lt h)]

theorem task_addTask_self (t : Task) : (g.addTask t).2.task ⟨g.tasks.size⟩ = t := by
  rw [task_addTask, if_pos rfl]

theorem play_addPlay_of_has (p : Play) {id : PlayId} (h : g.HasPlay id) :
    (g.addPlay p).2.play id = g.play id := by
  rw [play_addPlay, if_neg (ne_of_lt h)]

theorem play_addPlay_self (p : Play) : (g.addPlay p).2.play ⟨g.plays.size⟩ = p := by
  rw [play_addPlay, if_pos rfl]

theorem role_addRole_of_has (r : Role) {id : RoleId} (h : g.HasRole id) :
    (g.addRole r).2.role id = g.role id := by
  rw [role_addRole, if_neg (ne_of_lt h)]

theorem role_addRole_self (r : Role) : (g.addRole r).2.role ⟨g.roles.size⟩ = r := by
  rw [role_addRole, if_pos rfl]

theorem hasOrigin_addOrigin {o : Origin} {id : OriginId} :
    (g.addOrigin o).2.HasOrigin id ↔ id.index = g.origins.size ∨ g.HasOrigin id := by
  simp only [HasOrigin, addOrigin, Array.size_push]; omega

theorem hasTask_addTask {t : Task} {x : TaskId} :
    (g.addTask t).2.HasTask x ↔ x.index = g.tasks.size ∨ g.HasTask x := by
  simp only [HasTask, addTask, Array.size_push]; omega

theorem hasPlay_addPlay {p : Play} {id : PlayId} :
    (g.addPlay p).2.HasPlay id ↔ id.index = g.plays.size ∨ g.HasPlay id := by
  simp only [HasPlay, addPlay, Array.size_push]; omega

theorem hasRole_addRole {r : Role} {id : RoleId} :
    (g.addRole r).2.HasRole id ↔ id.index = g.roles.size ∨ g.HasRole id := by
  simp only [HasRole, addRole, Array.size_push]; omega

/-! ## Something new -/

theorem adds_addOrigin (o : Origin) : g.Adds (g.addOrigin o).2 :=
  { Adds.refl g with
    origins_le := by simp only [addOrigin, Array.size_push]; omega
    origin := fun _ ho => origin_addOrigin_of_has o ho }

theorem adds_addTask {t : Task} (hc : t.cachedVars = none) : g.Adds (g.addTask t).2 :=
  { Adds.refl g with
    tasks_le := by simp only [addTask, Array.size_push]; omega
    task := fun _ hx => task_addTask_of_has t hx
    newTask := fun x hx => by
      rw [task_addTask]; split
      · exact hc
      · rw [task_of_not_has hx]; rfl }

theorem adds_addPlay (p : Play) : g.Adds (g.addPlay p).2 :=
  { Adds.refl g with
    plays_le := by simp only [addPlay, Array.size_push]; omega
    play := fun _ hp => play_addPlay_of_has p hp }

theorem adds_addRole {r : Role} (hd : r.directDependencies = none) (ha : r.allDependencies = none) :
    g.Adds (g.addRole r).2 :=
  { Adds.refl g with
    roles_le := by simp only [addRole, Array.size_push]; omega
    role := fun _ hr => role_addRole_of_has r hr
    newRole := fun q hq => by
      rw [role_addRole]; split
      · exact ⟨hd, ha⟩
      · rw [role_of_not_has hq]; exact ⟨rfl, rfl⟩ }

theorem Sound.addOrigin (hs : g.Sound) {o : Origin} (hp : ∀ p, o.parent = some p → g.HasOrigin p) :
    (g.addOrigin o).2.Sound := by
  refine hs.of_keeps (adds_addOrigin o).keeps ?_ (fun x hx => Or.inr ⟨hx, rfl⟩)
    (fun p hp => Or.inr ⟨hp, rfl⟩) fun r hr => Or.inr ⟨hr, rfl⟩
  intro id p hid hparent
  rcases hasOrigin_addOrigin.1 hid with h | h
  · rw [show id = ⟨g.origins.size⟩ from congrArg OriginId.mk h, origin_addOrigin_self] at hparent
    rw [h]; exact hp p hparent
  · rw [origin_addOrigin_of_has o h] at hparent
    exact hs.origins id p h hparent

/-- A task that may be added: it has the newest origin, and no block yet. -/
structure NewTask (g : Graph) (t : Task) : Prop where
  origin : g.HasOrigin t.origin
  kind : (g.origin t.origin).kind = .task
  order : ∀ y, g.HasTask y → (g.task y).origin.index < t.origin.index
  parent : ∀ p, t.parent = some p → g.HasTask p ∧ g.above .task t.origin = some (g.task p).origin
  role : ∀ r, t.role = some r → g.HasRole r
  play : ∀ p, t.play = some p → g.HasPlay p
  block : t.block = []
  vars : Fields.Sorted t.vars
  raw : Json.Ordered (.object t.raw)
  cached : t.cachedVars = none

/-- A play that may be added: it has the newest origin, and neither tasks nor roles yet. -/
structure NewPlay (g : Graph) (p : Play) : Prop where
  origin : g.HasOrigin p.origin
  kind : (g.origin p.origin).kind = .play
  order : ∀ q, g.HasPlay q → (g.play q).origin.index < p.origin.index
  tasks : p.tasks = []
  roles : p.roles = []
  vars : Fields.Sorted p.vars

/-- A role that may be added: it has the newest origin, and nothing of its files yet. -/
structure NewRole (g : Graph) (r : Role) : Prop where
  origin : g.HasOrigin r.origin
  kind : (g.origin r.origin).kind = .role
  order : ∀ q, g.HasRole q → (g.role q).origin.index < r.origin.index
  play : ∀ p, r.play = some p → g.HasPlay p
  tasks : r.tasks = []
  declared : r.declared = .empty
  defaults : r.defaults = []
  vars : r.vars = []
  direct : r.directDependencies = none
  all : r.allDependencies = none

theorem Sound.addTask (hs : g.Sound) {t : Task} (h : g.NewTask t) : (g.addTask t).2.Sound := by
  have k := (adds_addTask (g := g) h.cached).keeps
  refine hs.of_keeps k hs.origins (fun x hx => ?_) (fun p hp => Or.inr ⟨hp, rfl⟩)
    fun r hr => Or.inr ⟨hr, rfl⟩
  rcases hasTask_addTask.1 hx with hx | hx
  · left
    have he : (g.addTask t).2.task x = t := by rw [task_addTask, if_pos hx]
    constructor <;> rw [he]
    · exact h.origin
    · exact h.kind
    · intro y hy
      rw [hx] at hy
      rw [task_addTask_of_has t hy]; exact h.order y hy
    · intro p hp
      obtain ⟨hhas, habove⟩ := h.parent p hp
      rw [task_addTask_of_has t hhas, above_keeps k h.origin]
      exact ⟨k.hasTask hhas, habove⟩
    · exact h.role
    · exact h.play
    · rw [h.block]; intro c hc; cases hc
    · exact h.vars
    · exact h.raw
  · exact Or.inr ⟨hx, task_addTask_of_has t hx⟩

theorem Sound.addPlay (hs : g.Sound) {p : Play} (h : g.NewPlay p) : (g.addPlay p).2.Sound := by
  refine hs.of_keeps (adds_addPlay p).keeps hs.origins (fun x hx => Or.inr ⟨hx, rfl⟩)
    (fun q hq => ?_) fun r hr => Or.inr ⟨hr, rfl⟩
  rcases hasPlay_addPlay.1 hq with hq | hq
  · left
    have he : (g.addPlay p).2.play q = p := by rw [play_addPlay, if_pos hq]
    constructor <;> rw [he]
    · exact h.origin
    · exact h.kind
    · intro q' hq'
      rw [hq] at hq'
      rw [play_addPlay_of_has p hq']; exact h.order q' hq'
    · rw [h.tasks]; intro x hx; cases hx
    · rw [h.roles]; intro r hr; cases hr
    · exact h.vars
  · exact Or.inr ⟨hq, play_addPlay_of_has p hq⟩

theorem Sound.addRole (hs : g.Sound) {r : Role} (h : g.NewRole r) : (g.addRole r).2.Sound := by
  refine hs.of_keeps (adds_addRole h.direct h.all).keeps hs.origins (fun x hx => Or.inr ⟨hx, rfl⟩)
    (fun p hp => Or.inr ⟨hp, rfl⟩) fun q hq => ?_
  rcases hasRole_addRole.1 hq with hq | hq
  · left
    have he : (g.addRole r).2.role q = r := by rw [role_addRole, if_pos hq]
    constructor <;> rw [he]
    · exact h.origin
    · exact h.kind
    · intro q' hq'
      rw [hq] at hq'
      rw [role_addRole_of_has r hq']; exact h.order q' hq'
    · exact h.play
    · rw [h.tasks]; intro x hx; cases hx
    · rw [h.declared]; intro d hd; cases hd
    · rw [h.direct]; intro ds hds; cases hds
    · rw [h.all]; intro l hl; cases hl
    · rw [h.defaults]; exact Fields.sorted_nil
    · rw [h.vars]; exact Fields.sorted_nil
  · exact Or.inr ⟨hq, role_addRole_of_has r hq⟩

/-! ## One entity changed -/

section Modify

variable {x : TaskId} {p : PlayId} {r : RoleId} {ft : Task → Task} {fp : Play → Play}
  {fr : Role → Role}

@[simp]
theorem hasTask_modifyTask {y : TaskId} : (g.modifyTask x ft).HasTask y ↔ g.HasTask y := by
  simp only [HasTask, modifyTask, Array.size_modify]

@[simp]
theorem hasPlay_modifyPlay {q : PlayId} : (g.modifyPlay p fp).HasPlay q ↔ g.HasPlay q := by
  simp only [HasPlay, modifyPlay, Array.size_modify]

@[simp]
theorem hasRole_modifyRole {q : RoleId} : (g.modifyRole r fr).HasRole q ↔ g.HasRole q := by
  simp only [HasRole, modifyRole, Array.size_modify]

theorem task_modifyTask_self (hx : g.HasTask x) : (g.modifyTask x ft).task x = ft (g.task x) := by
  rw [task_modifyTask, if_pos ⟨rfl, hx⟩]

theorem task_modifyTask_of_ne {y : TaskId} (h : y ≠ x) : (g.modifyTask x ft).task y = g.task y := by
  rw [task_modifyTask, if_neg fun h' => h h'.1]

theorem play_modifyPlay_self (hp : g.HasPlay p) : (g.modifyPlay p fp).play p = fp (g.play p) := by
  rw [play_modifyPlay, if_pos ⟨rfl, hp⟩]

theorem play_modifyPlay_of_ne {q : PlayId} (h : q ≠ p) : (g.modifyPlay p fp).play q = g.play q := by
  rw [play_modifyPlay, if_neg fun h' => h h'.1]

theorem role_modifyRole_self (hr : g.HasRole r) : (g.modifyRole r fr).role r = fr (g.role r) := by
  rw [role_modifyRole, if_pos ⟨rfl, hr⟩]

theorem role_modifyRole_of_ne {q : RoleId} (h : q ≠ r) : (g.modifyRole r fr).role q = g.role q := by
  rw [role_modifyRole, if_neg fun h' => h h'.1]

theorem keeps_modifyTask (h : KeepsTask (g.task x) (ft (g.task x))) : g.Keeps (g.modifyTask x ft) :=
  { (Grows.refl g).keeps with
    tasks_le := by simp only [modifyTask, Array.size_modify]; omega
    task := fun y hy => by
      by_cases hyx : y = x
      · subst hyx; rw [task_modifyTask_self hy]; exact h
      · rw [task_modifyTask_of_ne hyx]; exact (Grows.refl g).keeps.task y hy }

theorem keeps_modifyPlay (h : (fp (g.play p)).origin = (g.play p).origin) :
    g.Keeps (g.modifyPlay p fp) :=
  { (Grows.refl g).keeps with
    plays_le := by simp only [modifyPlay, Array.size_modify]; omega
    play := fun q hq => by
      by_cases hqp : q = p
      · subst hqp; rw [play_modifyPlay_self hq]; exact h
      · rw [play_modifyPlay_of_ne hqp] }

theorem keeps_modifyRole (h : KeepsRole (g.role r) (fr (g.role r))) : g.Keeps (g.modifyRole r fr) :=
  { (Grows.refl g).keeps with
    roles_le := by simp only [modifyRole, Array.size_modify]; omega
    role := fun q hq => by
      by_cases hqr : q = r
      · subst hqr; rw [role_modifyRole_self hq]; exact h
      · rw [role_modifyRole_of_ne hqr]; exact (Grows.refl g).keeps.role q hq }

theorem Sound.modifyTask (hs : g.Sound) (hk : KeepsTask (g.task x) (ft (g.task x)))
    (h : g.HasTask x → (g.modifyTask x ft).SoundTask x) : (g.modifyTask x ft).Sound := by
  refine hs.of_keeps (keeps_modifyTask hk) hs.origins (fun y hy => ?_)
    (fun p hp => Or.inr ⟨hp, rfl⟩) fun r hr => Or.inr ⟨hr, rfl⟩
  rw [hasTask_modifyTask] at hy
  by_cases hyx : y = x
  · subst hyx; exact Or.inl (h hy)
  · exact Or.inr ⟨hy, task_modifyTask_of_ne hyx⟩

theorem Sound.modifyPlay (hs : g.Sound) (hk : (fp (g.play p)).origin = (g.play p).origin)
    (h : g.HasPlay p → (g.modifyPlay p fp).SoundPlay p) : (g.modifyPlay p fp).Sound := by
  refine hs.of_keeps (keeps_modifyPlay hk) hs.origins (fun x hx => Or.inr ⟨hx, rfl⟩)
    (fun q hq => ?_) fun r hr => Or.inr ⟨hr, rfl⟩
  rw [hasPlay_modifyPlay] at hq
  by_cases hqp : q = p
  · subst hqp; exact Or.inl (h hq)
  · exact Or.inr ⟨hq, play_modifyPlay_of_ne hqp⟩

theorem Sound.modifyRole (hs : g.Sound) (hk : KeepsRole (g.role r) (fr (g.role r)))
    (h : g.HasRole r → (g.modifyRole r fr).SoundRole r) : (g.modifyRole r fr).Sound := by
  refine hs.of_keeps (keeps_modifyRole hk) hs.origins (fun x hx => Or.inr ⟨hx, rfl⟩)
    (fun p hp => Or.inr ⟨hp, rfl⟩) fun q hq => ?_
  rw [hasRole_modifyRole] at hq
  by_cases hqr : q = r
  · subst hqr; exact Or.inl (h hq)
  · exact Or.inr ⟨hq, role_modifyRole_of_ne hqr⟩

/-- What is new may be changed. -/
theorem Adds.modifyTask (h : g₀.Adds g) (hx : ¬ g₀.HasTask x)
    (hc : (ft (g.task x)).cachedVars = none) : g₀.Adds (g.modifyTask x ft) :=
  { h with
    tasks_le := by simpa only [Graph.modifyTask, Array.size_modify] using h.tasks_le
    task := fun y hy => by
      rw [task_modifyTask_of_ne (by rintro rfl; exact hx hy)]; exact h.task y hy
    newTask := fun y hy => by
      rw [task_modifyTask]; split
      · exact hc
      · exact h.newTask y hy }

theorem Adds.modifyPlay (h : g₀.Adds g) (hp : ¬ g₀.HasPlay p) : g₀.Adds (g.modifyPlay p fp) :=
  { h with
    plays_le := by simpa only [Graph.modifyPlay, Array.size_modify] using h.plays_le
    play := fun q hq => by
      rw [play_modifyPlay_of_ne (by rintro rfl; exact hp hq)]; exact h.play q hq }

theorem Adds.modifyRole (h : g₀.Adds g) (hr : ¬ g₀.HasRole r)
    (hd : (fr (g.role r)).directDependencies = none ∧ (fr (g.role r)).allDependencies = none) :
    g₀.Adds (g.modifyRole r fr) :=
  { h with
    roles_le := by simpa only [Graph.modifyRole, Array.size_modify] using h.roles_le
    role := fun q hq => by
      rw [role_modifyRole_of_ne (by rintro rfl; exact hr hq)]; exact h.role q hq
    newRole := fun q hq => by
      rw [role_modifyRole]; split
      · exact hd
      · exact h.newRole q hq }

end Modify

end Runlist.Graph
