import Runlist.Proofs.Reach

/-!
# Where the tasks of a playbook come from

A task has two records of where it comes from: its parent, which expansion may fill in, and its
origin, which never changes. Both tell the same about every task to which a playbook is expanded.

* `loadPlaybook_rooted`: nothing is around the plays of a playbook that is loaded by itself.
* `Graph.Tells`: the ancestors of a task, and the tasks in its provenance, are the way to it.
* `ancestors_eq_way`: **so it is with every task of the result.**
* `scope_eq_nearest`: **every task of the result runs in the play and the role nearest to its
  origin.**
-/

namespace Runlist

variable {sites : Site → Prop} {site site₀ : Site} {t : Templater} {s s₀ s₁ : Store} {pb : Playbook}
  {path : FilePath} {n : Nat} {opened : List String}

/-- **Both records tell the way to a task**: the ancestors are the blocks and directives through
which expansion came to it, and the tasks in its provenance are the same from the outside, then
itself. -/
structure Graph.Tells (g : Graph) (y : Reached) : Prop where
  ancestors : g.ancestors y.task = y.through
  provenance : (g.provenance (g.task y.task).origin).filter (fun o => o.kind == .task) =
    (y.through.reverse ++ [y.task]).map fun x => g.origin (g.task x).origin

theorem Graph.UnderPlay.tells {g : Graph} (hs : g.Sound) {y : Reached}
    (h : g.UnderPlay y) : g.Tells y := by
  obtain ⟨top, hclimb, habove⟩ := h.way
  have horigins := taskOrigins_eq hs hclimb h.has habove
  refine ⟨ancestors_eq hs hclimb h.has (hs.parent_none (hclimb.has hs h.has) habove), ?_⟩
  calc (g.provenance (g.task y.task).origin).filter (fun o => o.kind == .task)
      = (g.taskOrigins (g.task y.task).origin).reverse.map g.origin := by
        rw [provenance_eq hs.origins (hs.tasks _ h.has).origin, List.filter_map,
          List.filter_reverse]
        rfl
    _ = (y.through.reverse ++ [y.task]).map fun x => g.origin (g.task x).origin := by
        rw [horigins, ← List.map_reverse, List.map_map, List.reverse_cons]
        rfl

/-- **Nothing is around the plays** of a playbook that is loaded by itself. -/
theorem loadPlaybook_rooted (hs : s₀.graph.Sound)
    (h : (loadPlaybook site₀ none path).run.run s₀ = (.ok pb, s₁)) :
    s₁.graph.Sound ∧ ∀ p ∈ pb.plays, s₁.graph.HasPlay p ∧ s₁.graph.Rooted p := by
  have ho : ∀ o, (none : Option OriginId) = some o → s₀.graph.HasOrigin o := by rintro _ ⟨⟩
  obtain ⟨h₁, -, ds, -, hloaded⟩ := (loadPlaybook_ends hs ho path).of_ok h
  have hs₁ := h₁.sound hs
  refine ⟨hs₁, fun p hp => ?_⟩
  obtain ⟨d, -, hp⟩ := exists_left hloaded hp
  exact ⟨hp.shows.has, hs₁.rooted hp.shows.has hp.origin⟩

/-- The plays of such a playbook, in any state that is reached after it was loaded. -/
theorem rooted_of_reaches (h₀ : Reachable sites s₀)
    (hload : (loadPlaybook site₀ none path).run.run s₀ = (.ok pb, s₁)) (hr : Reaches sites s₁ s) :
    s.graph.Sound ∧ ∀ p ∈ pb.plays, s.graph.HasPlay p ∧ s.graph.Rooted p := by
  obtain ⟨hs₁, hplays⟩ := loadPlaybook_rooted h₀.sound hload
  have k := (hr.grows hs₁).keeps
  refine ⟨hr.sound hs₁, fun p hp => ?_⟩
  obtain ⟨hhas, hroot⟩ := hplays p hp
  exact ⟨k.hasPlay hhas, (Graph.rooted_keeps hs₁ k hhas).2 hroot⟩

/-- The expansion of such a play, with the way to each task. -/
theorem expandPlay_way {e : Expansion} {p : PlayId} {ids : List TaskId} (hs : s.graph.Sound)
    (hp : s.graph.HasPlay p) (hroot : s.graph.Rooted p)
    (hrun : (expandPlay site t n p).run.run ⟨s, opened⟩ = (.ok ids, e)) :
    ∃ ys, (tracePlay site t n p).run.run ⟨s, opened⟩ = (.ok ys, e) ∧ ys.map Reached.task = ids ∧
      e.store.graph.Sound ∧ ∀ y ∈ ys, e.store.graph.UnderPlay y := by
  rw [← tracePlay_erase n p] at hrun
  obtain ⟨ys, hys, rfl⟩ := map_run_ok hrun
  obtain ⟨hadv, hunder⟩ := (tracePlay_leads n p ⟨s, opened⟩ hs hp).of_ok hys
  refine ⟨ys, hys, rfl, hadv.sound hs, fun y hy => ?_⟩
  exact (hunder y hy).2 ((Graph.rooted_keeps hs hadv.grows.keeps hp).2 hroot)

/-- The expansion of such a playbook, with the way to each task. -/
theorem expandPlaybook_way {e : Expansion} {ids : List TaskId} (hs : s.graph.Sound)
    (hp : ∀ p ∈ pb.plays, s.graph.HasPlay p ∧ s.graph.Rooted p)
    (hrun : (expandPlaybook site t n pb).run.run ⟨s, opened⟩ = (.ok ids, e)) :
    ∃ ys, (tracePlaybook site t n pb).run.run ⟨s, opened⟩ = (.ok ys, e) ∧
      ys.map Reached.task = ids ∧
      e.store.graph.Sound ∧ ∀ y ∈ ys, e.store.graph.UnderPlay y := by
  rw [← tracePlaybook_erase n pb] at hrun
  obtain ⟨ys, hys, rfl⟩ := map_run_ok hrun
  obtain ⟨hadv, hunder⟩ := (tracePlaybook_leads n pb ⟨s, opened⟩ hs fun p h => (hp p h).1).of_ok hys
  refine ⟨ys, hys, rfl, hadv.sound hs, fun y hy => ?_⟩
  obtain ⟨p, hmem, -, hof⟩ := hunder y hy
  exact hof ((Graph.rooted_keeps hs hadv.grows.keeps (hp p hmem).1).2 (hp p hmem).2)

/-- **The two records of where a task comes from agree.** A playbook is loaded by itself in some
state that is reached, and it or one of its plays is expanded in any state that is reached later. Of
every task of the result, both records tell the way that expansion took to it. -/
theorem ancestors_eq_way (h₀ : Reachable sites s₀)
    (hload : (loadPlaybook site₀ none path).run.run s₀ = (.ok pb, s₁)) (hr : Reaches sites s₁ s) :
    (∀ ids e, (expandPlaybook site t n pb).run.run ⟨s, opened⟩ = (.ok ids, e) →
      ∃ ys, (tracePlaybook site t n pb).run.run ⟨s, opened⟩ = (.ok ys, e) ∧
        ys.map Reached.task = ids ∧
        ∀ y ∈ ys, e.store.graph.Tells y) ∧
    ∀ p ∈ pb.plays, ∀ ids e, (expandPlay site t n p).run.run ⟨s, opened⟩ = (.ok ids, e) →
      ∃ ys, (tracePlay site t n p).run.run ⟨s, opened⟩ = (.ok ys, e) ∧ ys.map Reached.task = ids ∧
        ∀ y ∈ ys, e.store.graph.Tells y := by
  obtain ⟨hs, hplays⟩ := rooted_of_reaches h₀ hload hr
  refine ⟨fun ids e hrun => ?_, fun p hp ids e hrun => ?_⟩
  · obtain ⟨ys, hys, hids, hsound, hunder⟩ := expandPlaybook_way hs hplays hrun
    exact ⟨ys, hys, hids, fun y hy => (hunder y hy).tells hsound⟩
  · obtain ⟨ys, hys, hids, hsound, hunder⟩ := expandPlay_way hs (hplays p hp).1 (hplays p hp).2 hrun
    exact ⟨ys, hys, hids, fun y hy => (hunder y hy).tells hsound⟩

/-- The block in the file that the small playbook includes is expanded to a task that has both
around it. -/
theorem small_ancestors : ∃ ys : List Reached, ys.map Reached.task = [⟨3⟩, ⟨1⟩] ∧
    ∀ y ∈ ys, smallExpansion.2.store.graph.Tells y := by
  obtain ⟨ys, -, hids, htells⟩ := (ancestors_eq_way .refl smallLoad_ok
    (.refl : Reaches (· = smallSite) _ _)).1 _ _ smallExpansion_ok
  exact ⟨ys, hids, htells⟩

/-! ## Plays and roles -/

/-- **A task runs in the play and the role that are innermost in its provenance**, in no role if
there is none. -/
structure Graph.RunsWithin (g : Graph) (x : TaskId) : Prop where
  provenance : g.provenance (g.task x).origin = (g.lineage (g.task x).origin).reverse.map g.origin
  hasPlay : ∃ p, g.taskPlay x = some p
  play : ∀ p, g.taskPlay x = some p ↔
    g.HasPlay p ∧ g.nearest .play (g.task x).origin = some (g.play p).origin
  role : ∀ r, (g.task x).role = some r ↔
    g.HasRole r ∧ g.nearest .role (g.task x).origin = some (g.role r).origin
  noRole : (g.task x).role = none ↔ ∀ o ∈ g.provenance (g.task x).origin, o.kind ≠ .role

theorem Graph.Coherent.runsWithin {g : Graph} (hs : g.Sound) {x : TaskId} (hx : g.HasTask x)
    (h : g.Coherent x) : g.RunsWithin x := by
  obtain ⟨⟨p, hp, hplay⟩, hrole⟩ := h
  have htask := hs.tasks x hx
  have hpp := hasPlay_taskPlay hs hx hp
  refine ⟨provenance_eq hs.origins htask.origin, ⟨p, hp⟩, fun q => ?_, fun r => ?_, ?_⟩
  · rw [hp, hplay]
    constructor
    · rintro ⟨⟩; exact ⟨hpp, rfl⟩
    · rintro ⟨hq, heq⟩
      rw [hs.playInj hpp hq (Option.some.inj heq)]
  · rw [hrole]
    constructor
    · intro hr
      rw [hr]; exact ⟨htask.role r hr, rfl⟩
    · rintro ⟨hr, heq⟩
      obtain ⟨q, hq, horigin⟩ := Option.map_eq_some_iff.1 heq
      rw [hq, hs.roleInj (htask.role q hq) hr horigin]
  · have hnone : (g.task x).role = none ↔ g.nearest .role (g.task x).origin = none := by
      rw [hrole, Option.map_eq_none_iff]
    rw [hnone, provenance_eq hs.origins htask.origin, nearest, first, List.find?_eq_none]
    simp

/-- **Scopes are coherent.** A playbook is loaded by itself in some state that is reached, and
expanded in any state that is reached later. Every task of the result runs in the play and the role
that are innermost in its provenance. -/
theorem scope_eq_nearest (h₀ : Reachable sites s₀)
    (hload : (loadPlaybook site₀ none path).run.run s₀ = (.ok pb, s₁)) (hr : Reaches sites s₁ s)
    {ids : List TaskId} {e : Expansion}
    (hrun : (expandPlaybook site t n pb).run.run ⟨s, opened⟩ = (.ok ids, e)) :
    ∀ x ∈ ids, e.store.graph.RunsWithin x := by
  obtain ⟨hs, hplays⟩ := rooted_of_reaches h₀ hload hr
  obtain ⟨ys, -, rfl, hsound, hunder⟩ := expandPlaybook_way hs hplays hrun
  intro x hx
  obtain ⟨y, hy, rfl⟩ := List.mem_map.1 hx
  exact (hunder y hy).coherent.runsWithin hsound (hunder y hy).has

theorem small_scopes : smallExpansion.2.store.graph.RunsWithin ⟨3⟩ ∧
    smallExpansion.2.store.graph.RunsWithin ⟨1⟩ := by
  have h :=
    scope_eq_nearest .refl smallLoad_ok (.refl : Reaches (· = smallSite) _ _) smallExpansion_ok
  exact ⟨h ⟨3⟩ (by simp), h ⟨1⟩ (by simp)⟩

end Runlist
