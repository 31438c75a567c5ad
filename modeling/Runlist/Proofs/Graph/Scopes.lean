import Runlist.Proofs.Graph.Ancestors
import Runlist.Proofs.Graph.Dependency

/-!
# Plays and roles around origins

A task holds handles of a play and a role, and its origin stands inside origins of plays and roles.
Expansion goes from coherent entities to coherent ones.

* `Graph.Coherent`: **the play and the role of a task are those nearest to its origin.**
* `Graph.CoherentRole`: the same of a role. `Graph.Rooted`: there are only plays around a play.
* `Coherent.placed`, `Rooted.task`, `CoherentRole.depends` and the like: one lemma for each way on.
* `Graph.Hangs`: a task of a role or of one of its dependencies.
-/

namespace Runlist.Graph

variable {g g' : Graph} {x c : TaskId} {r d : RoleId} {p q : PlayId} {o : OriginId}

theorem taskPlay_keeps (hs : g.Sound) (h : g.Keeps g') (hx : g.HasTask x) :
    g'.taskPlay x = g.taskPlay x := by
  rw [taskPlay, taskPlay, (h.task x hx).role, (h.task x hx).play]
  cases hr : (g.task x).role with
  | none => rfl
  | some r => exact (h.role r ((hs.tasks x hx).role r hr)).play

theorem hasPlay_taskPlay (hs : g.Sound) (hx : g.HasTask x) (hp : g.taskPlay x = some p) :
    g.HasPlay p := by
  rw [taskPlay] at hp
  cases hr : (g.task x).role with
  | none => rw [hr] at hp; exact (hs.tasks x hx).play p hp
  | some r => rw [hr] at hp; exact (hs.roles r ((hs.tasks x hx).role r hr)).play p hp

/-! ## Coherence -/

/-- **The play and the role of a task are those nearest to its origin.** -/
structure Coherent (g : Graph) (x : TaskId) : Prop where
  play : ∃ p, g.taskPlay x = some p ∧ g.nearest .play (g.task x).origin = some (g.play p).origin
  role : g.nearest .role (g.task x).origin = (g.task x).role.map fun r => (g.role r).origin

/-- The play of a role is the one nearest to its origin. -/
def CoherentRole (g : Graph) (r : RoleId) : Prop :=
  ∃ p, (g.role r).play = some p ∧ g.nearest .play (g.role r).origin = some (g.play p).origin

/-- There are neither tasks nor roles around a play. -/
structure Rooted (g : Graph) (p : PlayId) : Prop where
  task : g.nearest .task (g.play p).origin = none
  role : g.nearest .role (g.play p).origin = none

section Keeps

variable (hs : g.Sound) (k : g.Keeps g')
include hs k

theorem coherent_keeps (hx : g.HasTask x) : g'.Coherent x ↔ g.Coherent x := by
  have ho := (hs.tasks x hx).origin
  have hrole : ((g'.task x).role.map fun r => (g'.role r).origin) =
      (g.task x).role.map fun r => (g.role r).origin := by
    rw [(k.task x hx).role]
    cases hr : (g.task x).role with
    | none => rfl
    | some r => exact congrArg some (k.role r ((hs.tasks x hx).role r hr)).origin
  constructor
  · rintro ⟨⟨p, hp, h₁⟩, h₂⟩
    rw [taskPlay_keeps hs k hx] at hp
    rw [(k.task x hx).origin, nearest_keeps k ho] at h₁ h₂
    rw [k.play p (hasPlay_taskPlay hs hx hp)] at h₁
    exact ⟨⟨p, hp, h₁⟩, h₂.trans hrole⟩
  · rintro ⟨⟨p, hp, h₁⟩, h₂⟩
    refine ⟨⟨p, by rw [taskPlay_keeps hs k hx]; exact hp, ?_⟩, ?_⟩
    · rw [(k.task x hx).origin, nearest_keeps k ho, k.play p (hasPlay_taskPlay hs hx hp)]; exact h₁
    · rw [(k.task x hx).origin, nearest_keeps k ho, hrole]; exact h₂

theorem coherentRole_keeps (hr : g.HasRole r) : g'.CoherentRole r ↔ g.CoherentRole r := by
  unfold CoherentRole
  rw [(k.role r hr).origin, (k.role r hr).play, nearest_keeps k (hs.roles r hr).origin]
  refine exists_congr fun p => and_congr_right fun hp => ?_
  rw [k.play p ((hs.roles r hr).play p hp)]

theorem rooted_keeps (hp : g.HasPlay p) : g'.Rooted p ↔ g.Rooted p := by
  have ho := (hs.plays p hp).origin
  constructor
  · rintro ⟨h₁, h₂⟩
    rw [k.play p hp, nearest_keeps k ho] at h₁ h₂
    exact ⟨h₁, h₂⟩
  · rintro ⟨h₁, h₂⟩
    refine ⟨?_, ?_⟩
    · rw [k.play p hp, nearest_keeps k ho]; exact h₁
    · rw [k.play p hp, nearest_keeps k ho]; exact h₂

end Keeps

/-! ## The ways on -/

section Ways

variable (hs : g.Sound)
include hs

/-- From a task to one that is placed inside it, in the same role and play. -/
theorem Coherent.placed (h : g.Coherent x)
    (hc : g.Placed (some (g.task x).origin) (g.task x).role (g.task x).play c) : g.Coherent c := by
  have htask := hs.tasks c hc.has
  obtain ⟨p, hp, hplay⟩ := h.play
  refine ⟨⟨p, ?_, ?_⟩, ?_⟩
  · rw [← hp, taskPlay, taskPlay, hc.role, hc.play]
  · rw [hs.origins.nearest_parent htask.origin hc.origin (by rw [htask.kind]; decide), hplay]
  · rw [hs.origins.nearest_parent htask.origin hc.origin (by rw [htask.kind]; decide),
      h.role, hc.role]

/-- From a task to a role that it includes, in the same play. -/
theorem Coherent.included (h : g.Coherent x) (hr : g.HasRole r)
    (ho : (g.origin (g.role r).origin).parent = some (g.task x).origin)
    (hp : (g.role r).play = g.taskPlay x) : g.CoherentRole r := by
  have hrole := hs.roles r hr
  obtain ⟨p, hplay, hnearest⟩ := h.play
  refine ⟨p, hp.trans hplay, ?_⟩
  rw [hs.origins.nearest_parent hrole.origin ho (by rw [hrole.kind]; decide), hnearest]

/-- From a role to its tasks. -/
theorem CoherentRole.task (h : g.CoherentRole r) (hr : g.HasRole r)
    (hc : g.Placed (some (g.role r).origin) (some r) (g.role r).play c) : g.Coherent c := by
  have htask := hs.tasks c hc.has
  obtain ⟨p, hp, hplay⟩ := h
  refine ⟨⟨p, ?_, ?_⟩, ?_⟩
  · rw [taskPlay, hc.role]; exact hp
  · rw [hs.origins.nearest_parent htask.origin hc.origin (by rw [htask.kind]; decide), hplay]
  · rw [hs.origins.nearest_parent htask.origin hc.origin (by rw [htask.kind]; decide),
      nearest_self (hs.roles r hr).kind, hc.role]
    rfl

/-- What is around a dependency is around the role. -/
theorem Sound.nearest_depends (h : g.Depends r d) {kind : OriginKind}
    (hk : kind = .task ∨ kind = .play) :
    g.nearest kind (g.role d).origin = g.nearest kind (g.role r).origin := by
  obtain ⟨definition, m, hdef, hm, -, hlin⟩ := hs.lineage_depends h
  have hd := (hs.roles d (hs.hasRole_depends h).2).kind
  have hne : ∀ o ∈ [(g.role d).origin, definition, m], ((g.origin o).kind == kind) = false := by
    intro o ho
    simp only [List.mem_cons, List.not_mem_nil, or_false] at ho
    rcases ho with rfl | rfl | rfl
    · rw [hd]; rcases hk with rfl | rfl <;> rfl
    · rw [hdef]; rcases hk with rfl | rfl <;> rfl
    · rw [hm]; rcases hk with rfl | rfl <;> rfl
  rw [nearest, first, hlin, List.find?_cons, hne _ (by simp), List.find?_cons, hne _ (by simp),
    List.find?_cons, hne _ (by simp)]
  rfl

theorem Sound.play_depends (h : g.Depends r d) : (g.role d).play = (g.role r).play := by
  obtain ⟨ds, hds, hd⟩ := h
  obtain ⟨_, _, hst, _⟩ := exists_left ((hs.roles r (hs.hasRole_of_direct hds)).direct ds hds) hd
  exact hst.play

/-- From a role to its dependencies. -/
theorem CoherentRole.depends (h : g.CoherentRole r) (hd : g.Depends r d) : g.CoherentRole d := by
  unfold CoherentRole
  rw [hs.nearest_depends hd (Or.inr rfl), hs.play_depends hd]; exact h

/-- From a play to its tasks. -/
theorem Rooted.task_coherent (h : g.Rooted p) (hp : g.HasPlay p)
    (hc : g.Placed (some (g.play p).origin) none (some p) c) : g.Coherent c := by
  have htask := hs.tasks c hc.has
  refine ⟨⟨p, ?_, ?_⟩, ?_⟩
  · rw [taskPlay, hc.role, hc.play]
  · rw [hs.origins.nearest_parent htask.origin hc.origin (by rw [htask.kind]; decide),
      nearest_self (hs.plays p hp).kind]
  · rw [hs.origins.nearest_parent htask.origin hc.origin (by rw [htask.kind]; decide),
      h.role, hc.role]
    rfl

/-- There is no task around a task of a play. -/
theorem Rooted.task_above (h : g.Rooted p)
    (hc : g.Placed (some (g.play p).origin) none (some p) c) :
    g.above .task (g.task c).origin = none := by
  rw [hs.origins.above_parent (hs.tasks c hc.has).origin hc.origin, h.task]

/-- From a play to its roles. -/
theorem Sound.role_coherent (hp : g.HasPlay p) (hd : g.Inside .roleDefinition (g.play p).origin o)
    (hr : g.Stands o (some p) r) : g.CoherentRole r := by
  have hrole := hs.roles r hr.has
  refine ⟨p, hr.play, ?_⟩
  rw [hs.origins.nearest_parent hrole.origin hr.origin (by rw [hrole.kind]; decide),
    hs.origins.nearest_parent hd.has hd.origin (by rw [hd.kind]; decide),
    nearest_self (hs.plays p hp).kind]

/-- There is no task around a role of a play. -/
theorem Rooted.role_nearest (h : g.Rooted p) (hd : g.Inside .roleDefinition (g.play p).origin o)
    (hr : g.Stands o (some p) r) : g.nearest .task (g.role r).origin = none := by
  have hrole := hs.roles r hr.has
  rw [hs.origins.nearest_parent hrole.origin hr.origin (by rw [hrole.kind]; decide),
    hs.origins.nearest_parent hd.has hd.origin (by rw [hd.kind]; decide), h.task]

/-- From a play to one that it imports. -/
theorem Rooted.imported (h : g.Rooted p) (hq : g.HasPlay q)
    (ho : (g.origin (g.play q).origin).parent = some (g.play p).origin) : g.Rooted q := by
  have hplay := hs.plays q hq
  refine ⟨?_, ?_⟩
  · rw [hs.origins.nearest_parent hplay.origin ho (by rw [hplay.kind]; decide), h.task]
  · rw [hs.origins.nearest_parent hplay.origin ho (by rw [hplay.kind]; decide), h.role]

/-- Nothing is around a play of a playbook that was loaded by itself. -/
theorem Sound.rooted (hq : g.HasPlay q)
    (ho : (g.origin (g.play q).origin).parent = none) : g.Rooted q := by
  have hk := (hs.plays q hq).kind
  refine ⟨?_, ?_⟩
  · rw [nearest_above (by rw [hk]; decide), above_root ho]
  · rw [nearest_above (by rw [hk]; decide), above_root ho]

end Ways

/-! ## Tasks of a role and its dependencies -/

/-- **A task of a role or of one of its dependencies**: the role is around it, and there is no task
between them. -/
structure Hangs (g : Graph) (r : RoleId) (x : TaskId) : Prop where
  role : g.HasRole r
  has : g.HasTask x
  around : (g.role r).origin ∈ g.lineage (g.task x).origin
  above : g.above .task (g.task x).origin = g.nearest .task (g.role r).origin

theorem Hangs.keeps (hs : g.Sound) (k : g.Keeps g') (h : g.Hangs r x) : g'.Hangs r x where
  role := k.hasRole h.role
  has := k.hasTask h.has
  around := by
    rw [(k.role r h.role).origin, (k.task x h.has).origin,
      lineage_keeps k (hs.tasks x h.has).origin]
    exact h.around
  above := by
    rw [(k.role r h.role).origin, (k.task x h.has).origin, above_keeps k (hs.tasks x h.has).origin,
      nearest_keeps k (hs.roles r h.role).origin]
    exact h.above

theorem Placed.hangs (hs : g.Sound) (hr : g.HasRole r) {role : Option RoleId} {play : Option PlayId}
    (h : g.Placed (some (g.role r).origin) role play x) : g.Hangs r x where
  role := hr
  has := h.has
  around := by
    rw [hs.origins.lineage (hs.tasks x h.has).origin h.origin]
    exact List.mem_cons_of_mem _ self_mem_lineage
  above := hs.origins.above_parent (hs.tasks x h.has).origin h.origin .task

theorem Hangs.depends (hs : g.Sound) (hd : g.Depends r d) (h : g.Hangs d x) : g.Hangs r x where
  role := (hs.hasRole_depends hd).1
  has := h.has
  around := by
    obtain ⟨definition, m, -, -, -, hlin⟩ := hs.lineage_depends hd
    refine mem_lineage_trans h.around ?_
    rw [hlin]
    simp [self_mem_lineage]
  above := h.above.trans (hs.nearest_depends hd (Or.inl rfl))

/-- A task of a role that is new since a graph is new, too. -/
theorem Hangs.new {g₀ : Graph} (hs₀ : g₀.Sound) (k : g₀.Keeps g) (h : g.Hangs r x)
    (hnew : ¬ g₀.HasOrigin (g.role r).origin) : ¬ g₀.HasTask x := by
  intro hx
  have ho := (hs₀.tasks x hx).origin
  have haround := h.around
  rw [(k.task x hx).origin, lineage_keeps k ho] at haround
  exact hnew (ho.mem haround)

/-- A directive may adopt the tasks of a role that it includes. -/
theorem Hangs.adoptable (hs : g.Sound) (h : g.Hangs r x) (hc : g.HasTask c)
    (ho : (g.origin (g.role r).origin).parent = some (g.task c).origin) : g.Adoptable c x where
  has := h.has
  above := by
    have hrole := hs.roles r h.role
    rw [h.above, hs.origins.nearest_parent hrole.origin ho (by rw [hrole.kind]; decide),
      nearest_self (hs.tasks c hc).kind]

/-- A directive may adopt the tasks that it includes. -/
theorem Placed.adoptable (hs : g.Sound) {role : Option RoleId} {play : Option PlayId}
    (hc : g.HasTask c) (h : g.Placed (some (g.task c).origin) role play x) : g.Adoptable c x where
  has := h.has
  above := by
    rw [hs.origins.above_parent (hs.tasks x h.has).origin h.origin,
      nearest_self (hs.tasks c hc).kind]

end Runlist.Graph
