import Runlist.Proofs.Watch.Operation

/-!
# What is in a graph stays

Roles and plays are added half-filled and completed later, and an operation that fails stops in the
middle. But whatever it completes it has added itself. To what was there before it adds what it
remembers: the variables of tasks, and the dependencies of roles.

* `taskVars_remembers`: the variables of a task are remembered if they are found, and only then.
* `taskVars_of_cached`: what is remembered is what is answered.
* `graph_only_grows`: **nothing is taken away, moved or replaced**, by any operation and at any
  moment of it.
-/

namespace Runlist

variable {site : Site} {s s' : Store} {x : TaskId} {vars : Variables}

/-- **The variables of a task are remembered** if they are found, and only then. -/
theorem taskVars_remembers (hs : s.graph.Sound) (hx : s.graph.HasTask x) :
    Ends (taskVars site x) s (fun vars s' => (s'.graph.task x).cachedVars = some vars)
      fun _ s' => (s'.graph.task x).cachedVars = none := by
  unfold taskVars
  rw [ends_bind, ends_graph]
  cases hc : (s.graph.task x).cachedVars with
  | some vars => exact hc
  | none =>
    simp only [ends_bind]
    refine (resolveVars_ends hs (fun p hp => Graph.hasPlay_taskPlay hs hx hp) ?_).mono ?_ ?_
    · rintro _ ⟨⟩; exact hx
    · intro vars s₁ h₁
      rw [ends_update, ends_pure, Graph.task_modifyTask_self (h₁.1.grows.keeps.hasTask hx)]
    · intro _ s₁ h₁
      rw [h₁.1.tasks x hx]; exact hc

/-- **What is remembered is what is answered**, and nothing changes. -/
theorem taskVars_of_cached (h : (s.graph.task x).cachedVars = some vars) :
    (taskVars site x).run.run s = (.ok vars, s) := by
  refine run_eq_ok ?_
  unfold taskVars
  rw [ends_bind, ends_graph, h]
  exact ⟨rfl, rfl⟩

/-- **A graph only grows.** For every operation whose handles are those of the graph, however it
ends, and at every moment of it: every entity that was there is there under its handle, and stays as
it is but for what is remembered with it; what is remembered, also with entities that are new, is
never forgotten or replaced. So it is over any requests. Once the variables of a task have been
answered, they are always answered so, whatever is asked in between and whatever the files become;
as long as they have not, none are remembered. -/
theorem graph_only_grows {sites : Site → Prop} {s : Store} (h : Reachable sites s) :
    (∀ (site : Site) (op : Operation), op.Valid s.graph →
      s.graph.Grows (op.run site s).graph ∧ Recorded s (op.watch site s) (op.run site s) ∧
      (∀ m ∈ (op.watch site s).moments, s.graph.Grows m.graph ∧ s.graph.Remembers m.graph ∧
        m.graph.Remembers (op.run site s).graph) ∧
      (op.watch site s).moments.Pairwise fun m m' => m.graph.Remembers m'.graph) ∧
    (∀ (sites' : Site → Prop) (s' : Store), Reaches sites' s s' → s.graph.Grows s'.graph) ∧
    ∀ (site : Site) (x : TaskId), s.graph.HasTask x → ∀ s' : Store,
      (∀ vars, (taskVars site x).run.run s = (.ok vars, s') →
        ∀ (sites' : Site → Prop) (s'' : Store), Reaches sites' s' s'' → ∀ site' : Site,
          (taskVars site' x).run.run s'' = (.ok vars, s'')) ∧
      ∀ e, (taskVars site x).run.run s = (.error e, s') → (s'.graph.task x).cachedVars = none := by
  have hg := h.wellFormed
  have hs := h.sound
  refine ⟨fun site op hop => ?_, fun sites' s' hr => hr.grows hs, fun site x hx s' => ⟨?_, ?_⟩⟩
  · have hrecorded : Recorded s (op.watch site s) (op.run site s) := Operation.recorded hg hop
    refine ⟨hrecorded.course.writes.grows (.refl _), hrecorded, fun m hm => ?_, ?_⟩
    · obtain ⟨hbefore, hafter, -⟩ := hrecorded.course.moment hm
      exact ⟨hbefore.grows (.refl _), hbefore.remembers, hafter.remembers⟩
    · exact hrecorded.course.pairwise.imp fun hwrites => hwrites.remembers
  · intro vars hrun sites' s'' hr site'
    have hcached := (taskVars_remembers hs hx).of_ok hrun
    have hadvances := (taskVars_ends hs hx).of_ok hrun
    have hx' := hadvances.1.grows.keeps.hasTask hx
    exact taskVars_of_cached (((hr.grows (hadvances.1.sound hs)).task x hx').cached vars hcached)
  · exact fun e hrun => (taskVars_remembers hs hx).of_error hrun

/-- The variables of the directive of the small site are resolved, in the state in which it was
loaded. -/
def answeredVars : Except LoadError Variables × Store :=
  (taskVars smallSite ⟨0⟩).run.run smallLoad.2

/-- The playbook is expanded afterwards. -/
def smallLater : Store :=
  (Request.expandPlaybook (.ofMode false) 10 [] smallPlaybook).run smallSite answeredVars.2

/-- The directive has the same variables after the playbook was expanded, and over a tree of files
in which neither the playbook nor its roles are. -/
theorem graph_only_grows_small :
    ∃ vars, (taskVars smallSite ⟨0⟩).run.run smallLoad.2 = (.ok vars, answeredVars.2) ∧
    (Fields.get? vars "port").map Json.text = some "2" ∧ smallLoad.2.graph.Grows smallLater.graph ∧
    (taskVars loopSite ⟨0⟩).run.run smallLater = (.ok vars, smallLater) := by
  have hanswer : answeredVars.1.toOption.map (fun vars => (Fields.get? vars "port").map Json.text) =
      some (some "2") := by decide +kernel
  obtain ⟨vars, hvars, hport⟩ := Option.map_eq_some_iff.1 hanswer
  have hok : (taskVars smallSite ⟨0⟩).run.run smallLoad.2 = (.ok vars, answeredVars.2) :=
    run_ok hvars
  obtain ⟨-, hreaches, htask⟩ := graph_only_grows reachable_small
  have hanswered : Reaches (· = smallSite) smallLoad.2 answeredVars.2 := by
    have hrun : (Request.taskVars ⟨0⟩).run smallSite smallLoad.2 = answeredVars.2 := by
      rw [Request.run, answeredVars]
    rw [← hrun]
    exact .request has_small.2
  have hplays :
      (Request.expandPlaybook (.ofMode false) 10 [] smallPlaybook).Valid answeredVars.2.graph := by
    intro p hp
    rw [List.mem_singleton.1 hp]
    exact (hreaches _ _ hanswered).keeps.hasPlay has_small.1
  have hlater : Reaches (· = smallSite) answeredVars.2 smallLater := .request hplays
  refine ⟨vars, hok, hport, hreaches _ _ (hanswered.trans hlater), ?_⟩
  exact (htask smallSite ⟨0⟩ has_small.2 answeredVars.2).1 vars hok _ _ hlater loopSite

end Runlist
