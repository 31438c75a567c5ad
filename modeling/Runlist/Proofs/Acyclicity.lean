import Runlist.Proofs.Watch.Operation

/-!
# Every handle is one of an entity, and every chain ends

Nothing checks a handle before the entity is read, and the loops over chains of parents have no
bound. Both are safe because of an order: what an entity points up to is older, what it points down
to is younger. The order holds not only between two operations but at every moment of each, and so
at every moment the loops end.

* `Graph.WalksEnd`: the loops over a graph end, and meet nothing twice.
* `WellFormed.walksEnd`: so it is in a graph that is well formed.
* `arena_wellFormed`: **so is every graph that is reached, at every moment**, and what is looked up
  is there.
-/

namespace Runlist

/-- **The loops end**: those over the origins around one, over the parents of a task, and over the
chain on which a directive looks for the task to adopt. Each meets entities only, none of them
twice, and gives what the bounded walks give. -/
structure Graph.WalksEnd (g : Graph) : Prop where
  provenance : ∀ o, g.HasOrigin o → ∃ l, Visits g.outer o l ∧ l.Nodup ∧ (∀ m ∈ l, g.HasOrigin m) ∧
    g.provenance o = (l.map g.origin).reverse ∧
    g.describe o = " -> ".intercalate ((l.map g.origin).reverse.map Origin.text)
  ancestors : ∀ x, g.HasTask x → ∃ l, Visits g.parentOf x l ∧ l.Nodup ∧ (∀ y ∈ l, g.HasTask y) ∧
    g.ancestors x = l.tail
  adoption : ∀ top x, g.HasTask x →
      ∃ l, Visits (g.below top) x l ∧ l.Nodup ∧ (∀ y ∈ l, g.HasTask y) ∧
        l.getLast? = some (g.chainRoot top g.tasks.size x)

/-- **In a well-formed graph every loop ends.** -/
theorem Graph.WellFormed.walksEnd {g : Graph} (h : g.WellFormed) : g.WalksEnd where
  provenance o ho := by
    obtain ⟨l, hl, hnodup, hmem, heq⟩ := h.visits_origins ho
    exact ⟨l, hl, hnodup, hmem, heq, by rw [Graph.describe, heq]⟩
  ancestors x hx := h.visits_parents hx
  adoption top x hx := h.visits_below top hx

/-- **Every graph that is reached is well formed, and every loop over it ends.** For every operation
whose handles are those of the graph, however it ends: the watched operation ends in the state of
the operation and goes on by single writes; the graph is well formed at every moment and afterwards,
every loop over it ends there, and every entity that is looked up is there. -/
theorem arena_wellFormed {sites : Site → Prop} {s : Store} (h : Reachable sites s) :
    s.graph.WellFormed ∧ s.graph.WalksEnd ∧ ∀ (site : Site) (op : Operation), op.Valid s.graph →
      Recorded s (op.watch site s) (op.run site s) ∧
      ((op.run site s).graph.WellFormed ∧ (op.run site s).graph.WalksEnd) ∧
      ∀ m ∈ (op.watch site s).moments, m.graph.WellFormed ∧ m.graph.WalksEnd ∧
        ∀ handle ∈ m.handles, m.graph.Has handle := by
  have hg := h.wellFormed
  refine ⟨hg, hg.walksEnd, fun site op hop => ?_⟩
  have hrecorded : Recorded s (op.watch site s) (op.run site s) := Operation.recorded hg hop
  have hafter := hrecorded.course.writes.wellFormed hg
  refine ⟨hrecorded, ⟨hafter, hafter.walksEnd⟩, fun m hm => ?_⟩
  obtain ⟨hwrites, -, hhas⟩ := hrecorded.course.moment hm
  have hmoment := hwrites.wellFormed hg
  exact ⟨hmoment, hmoment.walksEnd, hhas⟩

/-- The expansion of the playbook of the small site, in which a directive adopts a block. -/
def smallWatch : Tape Store Look :=
  (Operation.request (.expandPlaybook (.ofMode false) 10 [] smallPlaybook)).watch
    smallSite smallLoad.2

/-- The task of the included block is below the block, and the block below the directive. -/
theorem arena_wellFormed_small : smallLoad.2.graph.WalksEnd ∧
    (∀ m ∈ smallWatch.moments, m.graph.WellFormed ∧ m.graph.WalksEnd ∧
      ∀ handle ∈ m.handles, m.graph.Has handle) ∧
    Handle.task ⟨3⟩ ∈ smallWatch.moments.flatMap Look.handles ∧
    smallWatch.state.graph.ancestors ⟨3⟩ = [⟨2⟩, ⟨0⟩] := by
  have hvalid : (Operation.request (.expandPlaybook (.ofMode false) 10 [] smallPlaybook)).Valid
      smallLoad.2.graph := by
    intro p hp
    rw [List.mem_singleton.1 hp]; exact has_small.1
  obtain ⟨-, hwalks, hops⟩ := arena_wellFormed reachable_small
  obtain ⟨-, -, hmoments⟩ := hops smallSite _ hvalid
  have hrun : Handle.task ⟨3⟩ ∈ smallWatch.moments.flatMap Look.handles ∧
      smallWatch.state.graph.ancestors ⟨3⟩ = [⟨2⟩, ⟨0⟩] := by decide +kernel
  exact ⟨hwalks, hmoments, hrun⟩

end Runlist
