import Runlist.Proofs.Ordered
import Runlist.Proofs.Graph.Lineage

/-!
# Sound graphs

What every graph of loaded entities satisfies, entity by entity. A task's place in the chain of
origins says where it is declared, and so do the handles that it holds; the two agree.

* `Graph.Sound`: every origin, task, play and role is placed as it should be.
* `Graph.Sound.of_keeps`: a graph that keeps a sound one is sound if what has changed or is new is.
* `PostOrder`: roles after the roles that they depend on, read off the known dependencies.
* `Sound.taskInj` and the like: an origin is that of one entity only.
-/

namespace Runlist.Graph

variable {g g' : Graph}

/-- **Post-order over the known dependencies**: each of some roles after those it depends on. -/
inductive PostOrder (g : Graph) : List RoleId → List RoleId → Prop
  | nil : PostOrder g [] []
  | cons {r : RoleId} {direct below rest l : List RoleId} :
      (g.role r).directDependencies = some direct → PostOrder g direct below → PostOrder g rest l →
      PostOrder g (r :: rest) (below ++ r :: l)

/-- A task is declared at an origin, in the scope of a role and a play. -/
structure Placed (g : Graph) (origin : Option OriginId) (role : Option RoleId)
    (play : Option PlayId) (x : TaskId) : Prop where
  has : g.HasTask x
  origin : (g.origin (g.task x).origin).parent = origin
  role : (g.task x).role = role
  play : (g.task x).play = play

/-- A role stands at a definition, in the scope of a play. -/
structure Stands (g : Graph) (definition : OriginId) (play : Option PlayId)
    (r : RoleId) : Prop where
  has : g.HasRole r
  origin : (g.origin (g.role r).origin).parent = some definition
  play : (g.role r).play = play

/-- An origin of a kind inside another one. -/
structure Inside (g : Graph) (kind : OriginKind) (around o : OriginId) : Prop where
  has : g.HasOrigin o
  kind : (g.origin o).kind = kind
  origin : (g.origin o).parent = some around

/-- A task is placed as it should be. -/
structure SoundTask (g : Graph) (x : TaskId) : Prop where
  origin : g.HasOrigin (g.task x).origin
  kind : (g.origin (g.task x).origin).kind = .task
  /-- Older tasks have older origins. -/
  order : ∀ y : TaskId, y.index < x.index → (g.task y).origin.index < (g.task x).origin.index
  /-- The parent is the nearest task around it. -/
  parent : ∀ p, (g.task x).parent = some p →
    g.HasTask p ∧ g.above .task (g.task x).origin = some (g.task p).origin
  role : ∀ r, (g.task x).role = some r → g.HasRole r
  play : ∀ p, (g.task x).play = some p → g.HasPlay p
  block : ∀ c ∈ (g.task x).block, (g.task c).parent = some x ∧
    g.Placed (some (g.task x).origin) (g.task x).role (g.task x).play c
  vars : Fields.Sorted (g.task x).vars
  raw : Json.Ordered (.object (g.task x).raw)

/-- A play is placed as it should be, and so are its tasks and roles. -/
structure SoundPlay (g : Graph) (p : PlayId) : Prop where
  origin : g.HasOrigin (g.play p).origin
  kind : (g.origin (g.play p).origin).kind = .play
  order : ∀ q : PlayId, q.index < p.index → (g.play q).origin.index < (g.play p).origin.index
  tasks : ∀ x ∈ (g.play p).tasks, g.Placed (some (g.play p).origin) none (some p) x
  roles : ∀ r ∈ (g.play p).roles, ∃ d, g.Inside .roleDefinition (g.play p).origin d ∧
    g.Stands d (some p) r
  vars : Fields.Sorted (g.play p).vars

/-- A role is placed as it should be, and so are its tasks and dependencies. -/
structure SoundRole (g : Graph) (r : RoleId) : Prop where
  origin : g.HasOrigin (g.role r).origin
  kind : (g.origin (g.role r).origin).kind = .role
  order : ∀ q : RoleId, q.index < r.index → (g.role q).origin.index < (g.role r).origin.index
  play : ∀ p, (g.role r).play = some p → g.HasPlay p
  tasks : ∀ x ∈ (g.role r).tasks, g.Placed (some (g.role r).origin) (some r) (g.role r).play x
  declared : ∀ d ∈ (g.role r).declared.dependencies, ∃ m, g.Inside .roleMeta (g.role r).origin m ∧
    g.Inside .roleDefinition m d.origin
  /-- The known dependencies are those that it declares. -/
  direct : ∀ ds, (g.role r).directDependencies = some ds →
    List.Forall₂ (fun d dep => g.Stands d.origin (g.role r).play dep ∧ (g.role dep).name = d.name)
      (g.role r).declared.dependencies ds
  /-- What is known of all its dependencies is known of each of them. -/
  all : ∀ l, (g.role r).allDependencies = some l → ∃ ds, (g.role r).directDependencies = some ds ∧
    g.PostOrder ds l ∧ ∀ d ∈ ds, (g.role d).allDependencies ≠ none
  defaults : Fields.Sorted (g.role r).defaults
  vars : Fields.Sorted (g.role r).vars

/-- **Every entity is placed as it should be.** -/
structure Sound (g : Graph) : Prop where
  origins : g.Placing
  tasks : ∀ x, g.HasTask x → g.SoundTask x
  plays : ∀ p, g.HasPlay p → g.SoundPlay p
  roles : ∀ r, g.HasRole r → g.SoundRole r

theorem sound_empty : Sound empty where
  origins _ _ ho _ := absurd ho (Nat.not_lt_zero _)
  tasks _ hx := absurd hx (Nat.not_lt_zero _)
  plays _ hp := absurd hp (Nat.not_lt_zero _)
  roles _ hr := absurd hr (Nat.not_lt_zero _)

/-! ## What is kept -/

section Keeps

variable (k : g.Keeps g')
include k

theorem PostOrder.keeps (hd : ∀ r l, (g.role r).directDependencies = some l → g.HasRole r)
    {rs l : List RoleId} (h : g.PostOrder rs l) : g'.PostOrder rs l := by
  induction h with
  | nil => exact .nil
  | cons hr _ _ ih₁ ih₂ => exact .cons ((k.role _ (hd _ _ hr)).direct _ hr) ih₁ ih₂

theorem Placed.keeps (hs : g.Sound) {origin : Option OriginId} {role : Option RoleId}
    {play : Option PlayId} {x : TaskId} (h : g.Placed origin role play x) :
    g'.Placed origin role play x := by
  have kt := k.task x h.has
  refine ⟨k.hasTask h.has, ?_, by rw [kt.role]; exact h.role, by rw [kt.play]; exact h.play⟩
  rw [kt.origin, k.origin _ (hs.tasks x h.has).origin]; exact h.origin

theorem Stands.keeps (hs : g.Sound) {d : OriginId} {play : Option PlayId} {r : RoleId}
    (h : g.Stands d play r) : g'.Stands d play r := by
  have kr := k.role r h.has
  refine ⟨k.hasRole h.has, ?_, by rw [kr.play]; exact h.play⟩
  rw [kr.origin, k.origin _ (hs.roles r h.has).origin]; exact h.origin

theorem Inside.keeps {kind : OriginKind} {around o : OriginId} (h : g.Inside kind around o) :
    g'.Inside kind around o :=
  ⟨k.hasOrigin
    h.has, by rw [k.origin o h.has]; exact h.kind, by rw [k.origin o h.has]; exact h.origin⟩

/-- A task with its parent, block, variables and mapping as before is placed as before. -/
theorem SoundTask.keeps (hs : g.Sound) {x : TaskId} (hx : g.HasTask x)
    (hp : ∀ p, (g'.task x).parent = some p → (g.task x).parent = some p)
    (hb : (g'.task x).block = (g.task x).block) (hv : (g'.task x).vars = (g.task x).vars)
    (hraw : (g'.task x).raw = (g.task x).raw) :
    g'.SoundTask x := by
  have h := hs.tasks x hx
  have kt := k.task x hx
  refine ⟨?_, ?_, fun y hy => ?_, fun p hq => ?_, fun r hr => ?_,
    fun p hr => ?_, fun c hc => ?_, ?_, ?_⟩
  · rw [kt.origin]; exact k.hasOrigin h.origin
  · rw [kt.origin, k.origin _ h.origin]; exact h.kind
  · rw [kt.origin, (k.task y (lt_trans hy hx)).origin]; exact h.order y hy
  · obtain ⟨hhas, habove⟩ := h.parent p (hp p hq)
    refine ⟨k.hasTask hhas, ?_⟩
    rw [kt.origin, (k.task p hhas).origin, above_keeps k h.origin]; exact habove
  · rw [kt.role] at hr; exact k.hasRole (h.role r hr)
  · rw [kt.play] at hr; exact k.hasPlay (h.play p hr)
  · rw [hb] at hc
    obtain ⟨hparent, hplaced⟩ := h.block c hc
    rw [kt.origin, kt.role, kt.play]
    exact ⟨(k.task c hplaced.has).parent x hparent, hplaced.keeps k hs⟩
  · rw [hv]; exact h.vars
  · rw [hraw]; exact h.raw

/-- A play that is as before is placed as before. -/
theorem SoundPlay.keeps (hs : g.Sound) {p : PlayId} (hp : g.HasPlay p) (he : g'.play p = g.play p) :
    g'.SoundPlay p := by
  have h := hs.plays p hp
  refine ⟨?_, ?_, fun q hq => ?_, fun x hx => ?_, fun r hr => ?_, ?_⟩
  · rw [he]; exact k.hasOrigin h.origin
  · rw [he, k.origin _ h.origin]; exact h.kind
  · rw [he, k.play q (lt_trans hq hp)]; exact h.order q hq
  · rw [he] at hx ⊢; exact (h.tasks x hx).keeps k hs
  · rw [he] at hr ⊢
    obtain ⟨d, hd, hst⟩ := h.roles r hr
    exact ⟨d, hd.keeps k, hst.keeps k hs⟩
  · rw [he]; exact h.vars

/-- The part of a role that depends on nothing it holds. -/
theorem SoundRole.frame (hs : g.Sound) {r : RoleId} (hr : g.HasRole r) :
    g'.HasOrigin (g'.role r).origin ∧ (g'.origin (g'.role r).origin).kind = .role ∧
    (∀ q : RoleId, q.index < r.index → (g'.role q).origin.index < (g'.role r).origin.index) ∧
    ∀ p, (g'.role r).play = some p → g'.HasPlay p := by
  have h := hs.roles r hr
  have kr := k.role r hr
  refine ⟨?_, ?_, fun q hq => ?_, fun p hp => ?_⟩
  · rw [kr.origin]; exact k.hasOrigin h.origin
  · rw [kr.origin, k.origin _ h.origin]; exact h.kind
  · rw [kr.origin, (k.role q (lt_trans hq hr)).origin]; exact h.order q hq
  · rw [kr.play] at hp; exact k.hasPlay (h.play p hp)

theorem SoundRole.tasks_keeps (hs : g.Sound) {r : RoleId} (hr : g.HasRole r) :
    ∀ x ∈ (g.role r).tasks, g'.Placed (some (g'.role r).origin) (some r) (g'.role r).play x := by
  intro x hx
  rw [(k.role r hr).origin, (k.role r hr).play]
  exact ((hs.roles r hr).tasks x hx).keeps k hs

theorem SoundRole.declared_keeps (hs : g.Sound) {r : RoleId} (hr : g.HasRole r) :
    ∀ d ∈ (g.role r).declared.dependencies, ∃ m, g'.Inside .roleMeta (g'.role r).origin m ∧
      g'.Inside .roleDefinition m d.origin := by
  intro d hd
  obtain ⟨m, hm, hdm⟩ := (hs.roles r hr).declared d hd
  rw [(k.role r hr).origin]
  exact ⟨m, hm.keeps k, hdm.keeps k⟩

theorem SoundRole.direct_keeps (hs : g.Sound) {r : RoleId} (hr : g.HasRole r) {ds : List RoleId}
    (hd : (g.role r).directDependencies = some ds) :
    List.Forall₂ (fun d dep => g'.Stands d.origin (g'.role r).play dep ∧
      (g'.role dep).name = d.name)
      (g.role r).declared.dependencies ds := by
  refine ((hs.roles r hr).direct ds hd).imp fun d dep h => ⟨?_, ?_⟩
  · rw [(k.role r hr).play]; exact h.1.keeps k hs
  · rw [(k.role dep h.1.has).name]; exact h.2

end Keeps

theorem Sound.hasRole_of_direct (_ : g.Sound) {r : RoleId} {l : List RoleId}
    (h : (g.role r).directDependencies = some l) : g.HasRole r := by
  by_contra hr
  rw [role_of_not_has hr] at h; cases h

theorem Sound.hasRole_dep (hs : g.Sound) {r d : RoleId} {ds : List RoleId}
    (h : (g.role r).directDependencies = some ds) (hd : d ∈ ds) : g.HasRole d := by
  obtain ⟨_, _, hst, _⟩ := exists_left ((hs.roles r (hs.hasRole_of_direct h)).direct ds h) hd
  exact hst.has

/-- A role with what it holds as before is placed as before. -/
theorem SoundRole.keeps (k : g.Keeps g') (hs : g.Sound) {r : RoleId} (hr : g.HasRole r)
    (he : g'.role r = g.role r) : g'.SoundRole r := by
  have h := hs.roles r hr
  obtain ⟨h₁, h₂, h₃, h₄⟩ := SoundRole.frame k hs hr
  refine ⟨h₁, h₂, h₃, h₄, fun x hx => ?_, fun d hd => ?_, fun ds hds => ?_, fun l hl => ?_, ?_, ?_⟩
  · rw [he] at hx; exact SoundRole.tasks_keeps k hs hr x hx
  · rw [he] at hd; exact SoundRole.declared_keeps k hs hr d hd
  · have := SoundRole.direct_keeps k hs hr (by rw [← he]; exact hds)
    rw [he] at this ⊢; exact this
  · rw [he] at hl ⊢
    obtain ⟨ds, hds, hpo, hall⟩ := h.all l hl
    refine ⟨ds, hds, hpo.keeps k fun _ _ h => hs.hasRole_of_direct h, fun d hd hn => ?_⟩
    obtain ⟨m, hm⟩ := Option.ne_none_iff_exists'.1 (hall d hd)
    rw [(k.role d (hs.hasRole_dep hds hd)).all m hm] at hn; cases hn
  · rw [he]; exact h.defaults
  · rw [he]; exact h.vars

/-- **A graph that keeps a sound one is sound** if what has changed or is new is placed as it
should be. -/
theorem Sound.of_keeps (hs : g.Sound) (k : g.Keeps g') (origins : g'.Placing)
    (tasks : ∀ x, g'.HasTask x → g'.SoundTask x ∨ g.HasTask x ∧ g'.task x = g.task x)
    (plays : ∀ p, g'.HasPlay p → g'.SoundPlay p ∨ g.HasPlay p ∧ g'.play p = g.play p)
    (roles : ∀ r, g'.HasRole r →
      g'.SoundRole r ∨ g.HasRole r ∧ g'.role r = g.role r) : g'.Sound where
  origins := origins
  tasks x hx := by
    rcases tasks x hx with h | ⟨h, he⟩
    · exact h
    · exact SoundTask.keeps k hs h (by rw [he]; exact fun _ h => h) (by rw [he])
        (by rw [he]) (by rw [he])
  plays p hp := by
    rcases plays p hp with h | ⟨h, he⟩
    · exact h
    · exact SoundPlay.keeps k hs h he
  roles r hr := by
    rcases roles r hr with h | ⟨h, he⟩
    · exact h
    · exact SoundRole.keeps k hs h he

/-! ## An origin is that of one entity only -/

section Unique

variable (hs : g.Sound)
include hs

theorem Sound.taskInj {x y : TaskId} (hx : g.HasTask x) (hy : g.HasTask y)
    (h : (g.task x).origin = (g.task y).origin) : x = y := by
  rcases lt_trichotomy x.index y.index with hlt | heq | hlt
  · have := (hs.tasks y hy).order x hlt; rw [h] at this; omega
  · exact congrArg TaskId.mk heq
  · have := (hs.tasks x hx).order y hlt; rw [h] at this; omega

theorem Sound.playInj {p q : PlayId} (hp : g.HasPlay p) (hq : g.HasPlay q)
    (h : (g.play p).origin = (g.play q).origin) : p = q := by
  rcases lt_trichotomy p.index q.index with hlt | heq | hlt
  · have := (hs.plays q hq).order p hlt; rw [h] at this; omega
  · exact congrArg PlayId.mk heq
  · have := (hs.plays p hp).order q hlt; rw [h] at this; omega

theorem Sound.roleInj {r q : RoleId} (hr : g.HasRole r) (hq : g.HasRole q)
    (h : (g.role r).origin = (g.role q).origin) : r = q := by
  rcases lt_trichotomy r.index q.index with hlt | heq | hlt
  · have := (hs.roles q hq).order r hlt; rw [h] at this; omega
  · exact congrArg RoleId.mk heq
  · have := (hs.roles r hr).order q hlt; rw [h] at this; omega

/-- An older origin is that of an older task. -/
theorem Sound.index_lt {x y : TaskId} (hx : g.HasTask x)
    (h : (g.task x).origin.index < (g.task y).origin.index) : x.index < y.index := by
  by_contra hle
  rcases Nat.eq_or_lt_of_le (not_lt.1 hle) with heq | hlt
  · rw [show y = x from congrArg TaskId.mk heq] at h; omega
  · have := (hs.tasks x hx).order y hlt; omega

end Unique

end Runlist.Graph
