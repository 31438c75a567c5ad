import Runlist.Proofs.Graph.Change

/-!
# What one write may do

A graph is written to entity by entity: one is added, or one is changed. What such a write may do is
said once, relative to the graph in which the operation has begun, and whatever holds of all graphs
follows.

* `Graph.WellFormed`: the handles in every entity are those of entities, and how old these are.
* `Limits`: where an operation has begun, and what it may remember.
* `Graph.Write`: **one write.** `Graph.Writes`: any number of them.
* `Write.wellFormed`: a write keeps a graph well formed.
* `Write.grows`: to what was there when the operation began, only what is remembered is added.
* `Write.remembers`: nothing that is remembered is ever forgotten or replaced.
* `Write.closed`: what is new stays among what is new.
-/

namespace Runlist

/-- The handle of an entity. -/
inductive Handle where
  | origin (id : OriginId)
  | task (id : TaskId)
  | play (id : PlayId)
  | role (id : RoleId)
deriving DecidableEq, Inhabited, Repr

/-- **What an operation may write to.** Entities that are new since it has begun may be completed;
to the others only what is remembered is added, and it is added from some numbers on. -/
structure Limits where
  /-- The graph in which the operation has begun. -/
  start : Graph
  /-- From which number on tasks may become parents. -/
  parents : Nat
  /-- From which number on variables may be remembered with tasks. -/
  vars : Nat
  /-- From which number on dependencies may be remembered with roles. -/
  dependencies : Nat

namespace Graph

variable {g g' g₁ g₂ : Graph} {L M : Limits}

/-- The handle is that of an entity of the graph. -/
def Has (g : Graph) : Handle → Prop
  | .origin o => g.HasOrigin o
  | .task x => g.HasTask x
  | .play p => g.HasPlay p
  | .role r => g.HasRole r

/-- Every handle of one graph is one of the other. -/
structure Spans (g g' : Graph) : Prop where
  origins : g.origins.size ≤ g'.origins.size
  tasks : g.tasks.size ≤ g'.tasks.size
  plays : g.plays.size ≤ g'.plays.size
  roles : g.roles.size ≤ g'.roles.size

namespace Spans

theorem refl (g : Graph) : g.Spans g := ⟨le_rfl, le_rfl, le_rfl, le_rfl⟩

theorem trans (h : g.Spans g₁) (h' : g₁.Spans g₂) : g.Spans g₂ :=
  ⟨h.origins.trans h'.origins, h.tasks.trans h'.tasks, h.plays.trans h'.plays,
    h.roles.trans h'.roles⟩

theorem hasOrigin (h : g.Spans g') {o : OriginId} (ho : g.HasOrigin o) : g'.HasOrigin o :=
  lt_of_lt_of_le ho h.origins

theorem hasTask (h : g.Spans g') {x : TaskId} (hx : g.HasTask x) : g'.HasTask x :=
  lt_of_lt_of_le hx h.tasks

theorem hasPlay (h : g.Spans g') {p : PlayId} (hp : g.HasPlay p) : g'.HasPlay p :=
  lt_of_lt_of_le hp h.plays

theorem hasRole (h : g.Spans g') {r : RoleId} (hr : g.HasRole r) : g'.HasRole r :=
  lt_of_lt_of_le hr h.roles

end Spans

theorem Keeps.spans (h : g.Keeps g') : g.Spans g' :=
  ⟨h.origins_le, h.tasks_le, h.plays_le, h.roles_le⟩

/-! ## Well-formed graphs -/

/-- The handles in a task are those of entities. Its parent is older than the task, its block
younger. -/
structure WellFormedTask (g : Graph) (x : TaskId) (t : Task) : Prop where
  origin : g.HasOrigin t.origin
  parent : ∀ p, t.parent = some p → g.HasTask p ∧ p.index < x.index
  block : ∀ c ∈ t.block, g.HasTask c ∧ x.index < c.index
  role : ∀ r, t.role = some r → g.HasRole r
  play : ∀ p, t.play = some p → g.HasPlay p

/-- The handles in a play are those of entities. -/
structure WellFormedPlay (g : Graph) (p : Play) : Prop where
  origin : g.HasOrigin p.origin
  preTasks : ∀ x ∈ p.preTasks, g.HasTask x
  mainTasks : ∀ x ∈ p.mainTasks, g.HasTask x
  postTasks : ∀ x ∈ p.postTasks, g.HasTask x
  roles : ∀ r ∈ p.roles, g.HasRole r
  definitions : ∀ d ∈ p.roleDefinitions, g.HasOrigin d.origin

/-- The handles in a role are those of entities. The roles that it depends on directly are
younger. -/
structure WellFormedRole (g : Graph) (r : RoleId) (q : Role) : Prop where
  origin : g.HasOrigin q.origin
  play : ∀ p, q.play = some p → g.HasPlay p
  tasks : ∀ x ∈ q.tasks, g.HasTask x
  declared : ∀ o, q.declared.origin = some o → g.HasOrigin o
  definitions : ∀ d ∈ q.declared.dependencies, g.HasOrigin d.origin
  direct : ∀ ds, q.directDependencies = some ds → ∀ d ∈ ds, g.HasRole d ∧ r.index < d.index
  all : ∀ ds, q.allDependencies = some ds → ∀ d ∈ ds, g.HasRole d

/-- An origin is inside an older one, if it is inside one. -/
def WellFormedOrigin (g : Graph) (id : OriginId) (o : Origin) : Prop :=
  ∀ p, o.parent = some p → g.HasOrigin p ∧ p.index < id.index

/-- **Every handle in the graph is that of an entity.** Parents of tasks and of origins are older
than these, the tasks of a block and the direct dependencies of a role are younger than the task and
the role. -/
structure WellFormed (g : Graph) : Prop where
  origins : ∀ o, g.HasOrigin o → g.WellFormedOrigin o (g.origin o)
  tasks : ∀ x, g.HasTask x → g.WellFormedTask x (g.task x)
  plays : ∀ p, g.HasPlay p → g.WellFormedPlay (g.play p)
  roles : ∀ r, g.HasRole r → g.WellFormedRole r (g.role r)

theorem wellFormed_empty : WellFormed empty where
  origins _ ho := absurd ho (Nat.not_lt_zero _)
  tasks _ hx := absurd hx (Nat.not_lt_zero _)
  plays _ hp := absurd hp (Nat.not_lt_zero _)
  roles _ hr := absurd hr (Nat.not_lt_zero _)

section Spans

variable (h : g.Spans g')
include h

theorem WellFormedOrigin.spans {id : OriginId} {o : Origin} (ho : g.WellFormedOrigin id o) :
    g'.WellFormedOrigin id o :=
  fun p hp => ⟨h.hasOrigin (ho p hp).1, (ho p hp).2⟩

theorem WellFormedTask.spans {x : TaskId} {t : Task} (ht : g.WellFormedTask x t) :
    g'.WellFormedTask x t where
  origin := h.hasOrigin ht.origin
  parent p hp := ⟨h.hasTask (ht.parent p hp).1, (ht.parent p hp).2⟩
  block c hc := ⟨h.hasTask (ht.block c hc).1, (ht.block c hc).2⟩
  role r hr := h.hasRole (ht.role r hr)
  play p hp := h.hasPlay (ht.play p hp)

theorem WellFormedPlay.spans {p : Play} (hp : g.WellFormedPlay p) : g'.WellFormedPlay p where
  origin := h.hasOrigin hp.origin
  preTasks x hx := h.hasTask (hp.preTasks x hx)
  mainTasks x hx := h.hasTask (hp.mainTasks x hx)
  postTasks x hx := h.hasTask (hp.postTasks x hx)
  roles r hr := h.hasRole (hp.roles r hr)
  definitions d hd := h.hasOrigin (hp.definitions d hd)

theorem WellFormedRole.spans {r : RoleId} {q : Role} (hq : g.WellFormedRole r q) :
    g'.WellFormedRole r q where
  origin := h.hasOrigin hq.origin
  play p hp := h.hasPlay (hq.play p hp)
  tasks x hx := h.hasTask (hq.tasks x hx)
  declared o ho := h.hasOrigin (hq.declared o ho)
  definitions d hd := h.hasOrigin (hq.definitions d hd)
  direct ds hds d hd := ⟨h.hasRole (hq.direct ds hds d hd).1, (hq.direct ds hds d hd).2⟩
  all ds hds d hd := h.hasRole (hq.all ds hds d hd)

end Spans

/-! ## Writes -/

/-- What a task may be changed to. A parent is given to a task once. -/
structure TaskChange (L : Limits) (x : TaskId) (t t' : Task) : Prop where
  old : L.start.HasTask x → t' = { t with cachedVars := t'.cachedVars }
  before : x.index < L.vars → t'.cachedVars = t.cachedVars
  cached : ∀ vars, t.cachedVars = some vars → t'.cachedVars = some vars
  parent : ∀ p, t.parent = some p → t'.parent = some p
  adopted : ∀ p, t'.parent = some p → t.parent = some p ∨ L.parents ≤ p.index

/-- What a role may be changed to. It gets new tasks only. -/
structure RoleChange (L : Limits) (r : RoleId) (q q' : Role) : Prop where
  old : L.start.HasRole r → q' = { q with
    directDependencies := q'.directDependencies, allDependencies := q'.allDependencies }
  before : r.index < L.dependencies →
    q'.directDependencies = q.directDependencies ∧ q'.allDependencies = q.allDependencies
  direct : ∀ ds, q.directDependencies = some ds → q'.directDependencies = some ds
  all : ∀ ds, q.allDependencies = some ds → q'.allDependencies = some ds
  tasks : ∀ x ∈ q'.tasks, x ∈ q.tasks ∨ ¬ L.start.HasTask x

/-- **One write.** -/
inductive Write (L : Limits) (g : Graph) : Graph → Prop
  | addOrigin {o : Origin} : g.WellFormedOrigin ⟨g.origins.size⟩ o → Write L g (g.addOrigin o).2
  | addTask {t : Task} : g.WellFormedTask ⟨g.tasks.size⟩ t →
      (∀ p, t.parent = some p → L.parents ≤ p.index) →
      Write L g (g.addTask t).2
  | addPlay {p : Play} : g.WellFormedPlay p → Write L g (g.addPlay p).2
  | addRole {q : Role} : g.WellFormedRole ⟨g.roles.size⟩ q → q.tasks = [] →
      Write L g (g.addRole q).2
  | changeTask {x : TaskId} {f : Task → Task} :
      (g.WellFormedTask x (g.task x) → g.WellFormedTask x (f (g.task x))) →
      TaskChange L x (g.task x) (f (g.task x)) → Write L g (g.modifyTask x f)
  | changePlay {p : PlayId} {f : Play → Play} :
      (g.WellFormedPlay (g.play p) → g.WellFormedPlay (f (g.play p))) → ¬ L.start.HasPlay p →
      Write L g (g.modifyPlay p f)
  | changeRole {r : RoleId} {f : Role → Role} :
      (g.WellFormedRole r (g.role r) → g.WellFormedRole r (f (g.role r))) →
      RoleChange L r (g.role r) (f (g.role r)) → Write L g (g.modifyRole r f)

/-- Any number of writes. -/
abbrev Writes (L : Limits) : Graph → Graph → Prop := Relation.ReflTransGen (Write L)

/-- **A write keeps all handles.** -/
theorem Write.spans (h : Write L g g') : g.Spans g' := by
  cases h with
  | addOrigin => exact (adds_addOrigin _).keeps.spans
  | addTask =>
    exact { Spans.refl g with tasks := by simp only [Graph.addTask, Array.size_push]; omega }
  | addPlay => exact (adds_addPlay _).keeps.spans
  | addRole =>
    exact { Spans.refl g with roles := by simp only [Graph.addRole, Array.size_push]; omega }
  | changeTask =>
    exact { Spans.refl g with tasks := by simp only [modifyTask, Array.size_modify]; omega }
  | changePlay =>
    exact { Spans.refl g with plays := by simp only [modifyPlay, Array.size_modify]; omega }
  | changeRole =>
    exact { Spans.refl g with roles := by simp only [modifyRole, Array.size_modify]; omega }

/-- **A write keeps a graph well formed.** -/
theorem Write.wellFormed (h : Write L g g') (hg : g.WellFormed) : g'.WellFormed := by
  have k := h.spans
  cases h with
  | @addOrigin o ho =>
    refine ⟨fun id hid => ?_, fun x hx => (hg.tasks x hx).spans k, fun p hp =>
      (hg.plays p hp).spans k,
      fun r hr => (hg.roles r hr).spans k⟩
    rcases hasOrigin_addOrigin.1 hid with hnew | hold
    · rw [origin_addOrigin, if_pos hnew, show id = ⟨g.origins.size⟩ from congrArg OriginId.mk hnew]
      exact ho.spans k
    · rw [origin_addOrigin_of_has o hold]; exact (hg.origins id hold).spans k
  | @addTask t ht _ =>
    refine ⟨fun o ho => (hg.origins o ho).spans k, fun x hx => ?_, fun p hp =>
      (hg.plays p hp).spans k,
      fun r hr => (hg.roles r hr).spans k⟩
    rcases hasTask_addTask.1 hx with hnew | hold
    · rw [task_addTask, if_pos hnew, show x = ⟨g.tasks.size⟩ from congrArg TaskId.mk hnew]
      exact ht.spans k
    · rw [task_addTask_of_has t hold]; exact (hg.tasks x hold).spans k
  | @addPlay p hp =>
    refine ⟨fun o ho => (hg.origins o ho).spans k, fun x hx =>
      (hg.tasks x hx).spans k, fun id hid => ?_,
      fun r hr => (hg.roles r hr).spans k⟩
    rcases hasPlay_addPlay.1 hid with hnew | hold
    · rw [play_addPlay, if_pos hnew]; exact hp.spans k
    · rw [play_addPlay_of_has p hold]; exact (hg.plays id hold).spans k
  | @addRole q hq _ =>
    refine ⟨fun o ho => (hg.origins o ho).spans k, fun x hx => (hg.tasks x hx).spans k,
      fun p hp => (hg.plays p hp).spans k, fun id hid => ?_⟩
    rcases hasRole_addRole.1 hid with hnew | hold
    · rw [role_addRole, if_pos hnew, show id = ⟨g.roles.size⟩ from congrArg RoleId.mk hnew]
      exact hq.spans k
    · rw [role_addRole_of_has q hold]; exact (hg.roles id hold).spans k
  | @changeTask x f hf _ =>
    refine ⟨fun o ho => (hg.origins o ho).spans k, fun y hy => ?_, fun p hp =>
      (hg.plays p hp).spans k,
      fun r hr => (hg.roles r hr).spans k⟩
    rw [hasTask_modifyTask] at hy
    by_cases hyx : y = x
    · subst hyx
      rw [task_modifyTask_self hy]; exact (hf (hg.tasks y hy)).spans k
    · rw [task_modifyTask_of_ne hyx]; exact (hg.tasks y hy).spans k
  | @changePlay p f hf _ =>
    refine ⟨fun o ho => (hg.origins o ho).spans k, fun x hx =>
      (hg.tasks x hx).spans k, fun q hq => ?_,
      fun r hr => (hg.roles r hr).spans k⟩
    rw [hasPlay_modifyPlay] at hq
    by_cases hqp : q = p
    · subst hqp
      rw [play_modifyPlay_self hq]; exact (hf (hg.plays q hq)).spans k
    · rw [play_modifyPlay_of_ne hqp]; exact (hg.plays q hq).spans k
  | @changeRole r f hf _ =>
    refine ⟨fun o ho => (hg.origins o ho).spans k, fun x hx => (hg.tasks x hx).spans k,
      fun p hp => (hg.plays p hp).spans k, fun q hq => ?_⟩
    rw [hasRole_modifyRole] at hq
    by_cases hqr : q = r
    · subst hqr
      rw [role_modifyRole_self hq]; exact (hf (hg.roles q hq)).spans k
    · rw [role_modifyRole_of_ne hqr]; exact (hg.roles q hq).spans k

/-- **What was there when the operation began** keeps everything but what is remembered with it. -/
theorem Write.grows (h : Write L g g') (hg : L.start.Grows g) : L.start.Grows g' := by
  cases h with
  | addOrigin => exact hg.trans (adds_addOrigin _).grows
  | @addTask t _ _ =>
    refine hg.trans
      { Grows.refl g with tasks_le := ?_, task := fun x hx => ?_, parent := fun x hx => ?_ }
    · simp only [Graph.addTask, Array.size_push]; omega
    · rw [task_addTask_of_has t hx]; exact ⟨rfl, fun _ h => h, fun _ h => h⟩
    · rw [task_addTask_of_has t hx]
  | addPlay => exact hg.trans (adds_addPlay _).grows
  | @addRole q _ _ =>
    refine hg.trans { Grows.refl g with roles_le := ?_, role := fun r hr => ?_ }
    · simp only [Graph.addRole, Array.size_push]; omega
    · rw [role_addRole_of_has q hr]; exact .refl _
  | @changeTask x f _ hf =>
    refine { hg with tasks_le := ?_, task := fun y hy => ?_, parent := fun y hy => ?_ }
    · simpa only [modifyTask, Array.size_modify] using hg.tasks_le
    · by_cases hyx : y = x
      · subst hyx
        have h := hg.task y hy
        rw [task_modifyTask_self (hg.keeps.hasTask hy), hf.old hy]
        refine ⟨by rw [h.same], fun p hp => h.parent p hp, fun vars hv => ?_⟩
        exact hf.cached vars (h.cached vars hv)
      · rw [task_modifyTask_of_ne hyx]; exact hg.task y hy
    · by_cases hyx : y = x
      · subst hyx
        rw [task_modifyTask_self (hg.keeps.hasTask hy), hf.old hy]; exact hg.parent y hy
      · rw [task_modifyTask_of_ne hyx]; exact hg.parent y hy
  | @changePlay p f _ hnew =>
    refine { hg with plays_le := ?_, play := fun q hq => ?_ }
    · simpa only [modifyPlay, Array.size_modify] using hg.plays_le
    · rw [play_modifyPlay_of_ne (by rintro rfl; exact hnew hq)]; exact hg.play q hq
  | @changeRole r f _ hf =>
    refine { hg with roles_le := ?_, role := fun q hq => ?_ }
    · simpa only [modifyRole, Array.size_modify] using hg.roles_le
    · by_cases hqr : q = r
      · subst hqr
        have h := hg.role q hq
        rw [role_modifyRole_self (hg.keeps.hasRole hq), hf.old hq]
        refine ⟨by rw [h.same], fun ds hd => ?_, fun ds hd => ?_⟩
        · exact hf.direct ds (h.direct ds hd)
        · exact hf.all ds (h.all ds hd)
      · rw [role_modifyRole_of_ne hqr]; exact hg.role q hq

/-- **What is remembered stays**: the variables of tasks and the dependencies of roles. -/
structure Remembers (g g' : Graph) : Prop where
  cached : ∀ x vars, (g.task x).cachedVars = some vars → (g'.task x).cachedVars = some vars
  direct : ∀ r ds, (g.role r).directDependencies = some ds →
      (g'.role r).directDependencies = some ds
  all : ∀ r ds, (g.role r).allDependencies = some ds → (g'.role r).allDependencies = some ds

theorem Remembers.refl (g : Graph) : g.Remembers g :=
  ⟨fun _ _ h => h, fun _ _ h => h, fun _ _ h => h⟩

theorem Remembers.trans (h : g.Remembers g₁) (h' : g₁.Remembers g₂) : g.Remembers g₂ :=
  ⟨fun x v hv => h'.cached x v (h.cached x v hv), fun r v hv => h'.direct r v (h.direct r v hv),
    fun r v hv => h'.all r v (h.all r v hv)⟩

theorem hasTask_of_cached {x : TaskId} {vars : Variables} (h : (g.task x).cachedVars = some vars) :
    g.HasTask x := by
  by_contra hx
  rw [task_of_not_has hx] at h; cases h

theorem hasRole_of_direct {r : RoleId} {ds : List RoleId}
    (h : (g.role r).directDependencies = some ds) : g.HasRole r := by
  by_contra hr
  rw [role_of_not_has hr] at h; cases h

theorem hasRole_of_all {r : RoleId} {ds : List RoleId} (h : (g.role r).allDependencies = some ds) :
    g.HasRole r := by
  by_contra hr
  rw [role_of_not_has hr] at h; cases h

theorem Write.remembers (h : Write L g g') : g.Remembers g' := by
  cases h with
  | addOrigin => exact ⟨fun _ _ h => h, fun _ _ h => h, fun _ _ h => h⟩
  | @addTask t _ _ =>
    refine { Remembers.refl g with cached := fun x vars hv => ?_ }
    rw [task_addTask_of_has t (hasTask_of_cached hv)]; exact hv
  | addPlay => exact ⟨fun _ _ h => h, fun _ _ h => h, fun _ _ h => h⟩
  | @addRole q _ _ =>
    refine { Remembers.refl g with direct := fun r ds hd => ?_, all := fun r ds hd => ?_ }
    · rw [role_addRole_of_has q (hasRole_of_direct hd)]; exact hd
    · rw [role_addRole_of_has q (hasRole_of_all hd)]; exact hd
  | @changeTask x f _ hf =>
    refine { Remembers.refl g with cached := fun y vars hv => ?_ }
    by_cases hyx : y = x
    · subst hyx
      rw [task_modifyTask_self (hasTask_of_cached hv)]; exact hf.cached vars hv
    · rw [task_modifyTask_of_ne hyx]; exact hv
  | changePlay => exact ⟨fun _ _ h => h, fun _ _ h => h, fun _ _ h => h⟩
  | @changeRole r f _ hf =>
    refine { Remembers.refl g with direct := fun q ds hd => ?_, all := fun q ds hd => ?_ }
    · by_cases hqr : q = r
      · subst hqr
        rw [role_modifyRole_self (hasRole_of_direct hd)]; exact hf.direct ds hd
      · rw [role_modifyRole_of_ne hqr]; exact hd
    · by_cases hqr : q = r
      · subst hqr
        rw [role_modifyRole_self (hasRole_of_all hd)]; exact hf.all ds hd
      · rw [role_modifyRole_of_ne hqr]; exact hd

/-- **What is older than anything with which something may be remembered** stays as it is. -/
theorem Write.role (h : Write L g g') {r : RoleId} (hr : L.start.HasRole r) (hg : g.HasRole r)
    (hlt : r.index < L.dependencies) : g'.role r = g.role r := by
  cases h with
  | addOrigin | addTask | addPlay | changeTask | changePlay => rfl
  | addRole => exact role_addRole_of_has _ hg
  | @changeRole q f _ hf =>
    by_cases hrq : r = q
    · subst hrq
      rw [role_modifyRole_self hg, hf.old hr, (hf.before hlt).1, (hf.before hlt).2]
    · exact role_modifyRole_of_ne hrq

theorem Write.task (h : Write L g g') {x : TaskId} (hx : L.start.HasTask x) (hg : g.HasTask x)
    (hlt : x.index < L.vars) : g'.task x = g.task x := by
  cases h with
  | addOrigin | addPlay | addRole | changePlay | changeRole => rfl
  | addTask => exact task_addTask_of_has _ hg
  | @changeTask y f _ hf =>
    by_cases hxy : x = y
    · subst hxy
      rw [task_modifyTask_self hg, hf.old hx, hf.before hlt]
    · exact task_modifyTask_of_ne hxy

/-! ## Numbers from which tasks and roles are new -/

/-- Tasks from number `c` on have parents from there on only, and so have roles from number `d` on
their tasks. -/
structure Closed (c d : Nat) (g : Graph) : Prop where
  parent : ∀ x p, c ≤ x.index → (g.task x).parent = some p → c ≤ p.index
  tasks : ∀ r, d ≤ r.index → ∀ x ∈ (g.role r).tasks, c ≤ x.index

theorem closed_zero (g : Graph) : g.Closed 0 0 :=
  ⟨fun _ _ _ _ => Nat.zero_le _, fun _ _ _ _ => Nat.zero_le _⟩

/-- What is not there yet may be said to be new. -/
theorem closed_size (g : Graph) : g.Closed g.tasks.size g.roles.size where
  parent x p hx hp := by
    rw [task_of_not_has (not_lt.2 hx)] at hp; cases hp
  tasks r hr x hx := by
    rw [role_of_not_has (not_lt.2 hr)] at hx; cases hx

theorem Write.closed {c d : Nat} (h : Write L g g') (hc : c ≤ L.parents)
    (hsize : c ≤ L.start.tasks.size) (hg : g.Closed c d) : g'.Closed c d := by
  cases h with
  | addOrigin => exact ⟨hg.parent, hg.tasks⟩
  | @addTask t _ ht =>
    refine ⟨fun x p hx hp => ?_, hg.tasks⟩
    rw [task_addTask] at hp
    split at hp
    · exact hc.trans (ht p hp)
    · exact hg.parent x p hx hp
  | addPlay => exact ⟨hg.parent, hg.tasks⟩
  | @addRole q _ hq =>
    refine ⟨hg.parent, fun r hr x hx => ?_⟩
    rw [role_addRole] at hx
    split at hx
    · rw [hq] at hx; cases hx
    · exact hg.tasks r hr x hx
  | @changeTask x f _ hf =>
    refine ⟨fun y p hy hp => ?_, hg.tasks⟩
    rw [task_modifyTask] at hp
    split at hp
    · rename_i hyx
      rw [hyx.1] at hy
      rcases hf.adopted p hp with hp | hp
      · exact hg.parent x p hy hp
      · exact hc.trans hp
    · exact hg.parent y p hy hp
  | changePlay => exact ⟨hg.parent, hg.tasks⟩
  | @changeRole r f _ hf =>
    refine ⟨hg.parent, fun q hq x hx => ?_⟩
    rw [role_modifyRole] at hx
    split at hx
    · rename_i hqr
      rw [hqr.1] at hq
      rcases hf.tasks x hx with hx | hx
      · exact hg.tasks r hq x hx
      · exact hsize.trans (not_lt.1 hx)
    · exact hg.tasks q hq x hx

/-! ## Any number of writes -/

/-- One operation is within the limits of another: it begins later, and remembers less. -/
structure Within (L M : Limits) : Prop where
  start : L.start.Spans M.start
  parents : L.parents ≤ M.parents
  vars : L.vars ≤ M.vars
  dependencies : L.dependencies ≤ M.dependencies

theorem Write.within (h : Write M g g') (hLM : Within L M) : Write L g g' := by
  cases h with
  | addOrigin ho => exact .addOrigin ho
  | addTask ht hp => exact .addTask ht fun p h => hLM.parents.trans (hp p h)
  | addPlay hp => exact .addPlay hp
  | addRole hq ht => exact .addRole hq ht
  | changeTask hf h =>
    exact .changeTask hf ⟨fun hx => h.old (hLM.start.hasTask hx), fun hlt =>
      h.before (hlt.trans_le hLM.vars),
      h.cached, h.parent, fun p hp => (h.adopted p hp).imp_right hLM.parents.trans⟩
  | changePlay hf h => exact .changePlay hf fun hp => h (hLM.start.hasPlay hp)
  | changeRole hf h =>
    exact .changeRole hf ⟨fun hr => h.old (hLM.start.hasRole hr),
      fun hlt => h.before (hlt.trans_le hLM.dependencies), h.direct, h.all,
      fun x hx => (h.tasks x hx).imp_right fun hnew hold => hnew (hLM.start.hasTask hold)⟩

namespace Writes

theorem spans (h : Writes L g g') : g.Spans g' := by
  induction h with
  | refl => exact .refl g
  | tail _ h ih => exact ih.trans h.spans

/-- **Writes keep a graph well formed.** -/
theorem wellFormed (h : Writes L g g') (hg : g.WellFormed) : g'.WellFormed := by
  induction h with
  | refl => exact hg
  | tail _ h ih => exact h.wellFormed ih

theorem grows (h : Writes L g g') (hg : L.start.Grows g) : L.start.Grows g' := by
  induction h with
  | refl => exact hg
  | tail _ h ih => exact h.grows ih

theorem remembers (h : Writes L g g') : g.Remembers g' := by
  induction h with
  | refl => exact .refl g
  | tail _ h ih => exact ih.trans h.remembers

theorem role (h : Writes L g g') {r : RoleId} (hr : L.start.HasRole r) (hg : g.HasRole r)
    (hlt : r.index < L.dependencies) : g'.role r = g.role r := by
  induction h with
  | refl => rfl
  | tail hs h ih => rw [h.role hr (Writes.spans hs |>.hasRole hg) hlt, ih]

theorem task (h : Writes L g g') {x : TaskId} (hx : L.start.HasTask x) (hg : g.HasTask x)
    (hlt : x.index < L.vars) : g'.task x = g.task x := by
  induction h with
  | refl => rfl
  | tail hs h ih => rw [h.task hx (Writes.spans hs |>.hasTask hg) hlt, ih]

theorem closed {c d : Nat} (h : Writes L g g') (hc : c ≤ L.parents) (hsize : c ≤ L.start.tasks.size)
    (hg : g.Closed c d) : g'.Closed c d := by
  induction h with
  | refl => exact hg
  | tail _ h ih => exact h.closed hc hsize ih

end Writes

end Graph

end Runlist
