import Runlist.Proofs.Expand.Endings
import Runlist.Proofs.Lookup
import Runlist.Proofs.Ownership
import Runlist.Proofs.Wrapped

/-!
# What is left after expansion

The tasks that an expansion gives are single operations: none of them is a directive, and none wraps
tasks. This holds in every state that is reached, whatever has become of the files in the meantime.

* `Fields.Primitive`: a mapping without directives, whose block is missing or empty.
* `Graph.IsLeaf.primitive`: **a task that is expanded to itself is primitive.**
* `Steady.expand`: the expansion of an entity goes along what every step goes along.
* `expansion_primitive`: **every task that an expansion gives is primitive.**
-/

namespace Runlist

variable {site : Site} {sites : Site → Prop} {t : Templater} {s : Store}

/-- **A single operation**: the mapping has no key of a directive. It may have that of a block, if
there is nothing in the block. -/
structure Fields.Primitive (raw : Fields) : Prop where
  tasks : ∀ action ∈ Action.taskIncludes, raw.has action = false
  roles : ∀ action ∈ Action.roleIncludes, raw.has action = false
  block : ∀ value, raw.get? "block" = some value → value = .null ∨ value = .array []

/-- A task that declares none of some actions has none of their keys. -/
theorem Task.firstAction?_eq_none {task : Task} {actions : List String}
    (h : task.firstAction? actions = none) : ∀ action ∈ actions, task.raw.has action = false := by
  intro action ha
  have hnone := List.find?_eq_none.1 h action ha
  exact Bool.eq_false_iff.2 hnone

/-- **A task that is expanded to itself is primitive**, if it has the block that its mapping
declares. -/
theorem Graph.IsLeaf.primitive {g : Graph} {x : TaskId} (h : g.IsLeaf x) (hg : g.Wrapped) :
    (g.task x).raw.Primitive := by
  obtain ⟨hblock, htasks, hroles⟩ := Task.kind_leaf h.kind
  have hnil : (g.task x).block = [] := by
    unfold Task.isBlock at hblock
    simpa using hblock
  exact ⟨Task.firstAction?_eq_none htasks, Task.firstAction?_eq_none hroles, fun _ hvalue =>
    (hg x h.has).of_nil hnil hvalue⟩

/-- **The expansion of an entity** goes along what every step goes along. -/
theorem Steady.expand {R : Store → Store → Prop} [IsPreorder Store R] (h : Steady site R) (n : Nat)
    (a : Entity) : Along (Expansion.On R) (a.expand site t n) := by
  cases a with
  | task x => exact h.expandTask n x
  | role r => exact h.expandRoleOn n r []
  | play p => exact h.expandPlay n p
  | playbook pb => exact h.expandPlaybook n pb

/-- Entities of a state in which blocks are as they are declared are expanded to primitive tasks,
one after the other. -/
theorem concatEach_primitive (hs : s.graph.Sound) (hw : s.graph.Wrapped) {as : List Entity}
    (has : ∀ a ∈ as, a.Valid s.graph) {n : Nat} {opened : List String} {ids : List TaskId}
    {e : Expansion}
    (hrun : (concatEach (Entity.expand site t n) as).run.run ⟨s, opened⟩ = (.ok ids, e)) :
    ∀ x ∈ ids, (e.store.graph.task x).raw.Primitive := by
  have hwraps : Along (Expansion.On Store.WrapsOn) (concatEach (Entity.expand site t n) as) :=
    .concatEach (fun a => (steady_wraps site).expand n a) as
  obtain ⟨hkeeps, -⟩ := (hwraps ⟨s, opened⟩).of_ok hrun
  obtain ⟨-, hleaves⟩ := (expand_leaves (e := ⟨s, opened⟩) n hs has).of_ok hrun
  exact fun x hx => (hleaves x hx).primitive (hkeeps hw)

/-- Playbooks are entities like any other. -/
theorem concatEach_playbooks (site : Site) (t : Templater) (n : Nat) (pbs : List Playbook) :
    concatEach (Entity.expand site t n) (pbs.map Entity.playbook) =
      concatEach (expandPlaybook site t n) pbs :=
  concatEach_of_map _ _ _

/-- **Every task that an expansion gives is primitive.** In every state that is reached, this is so
of any of its entities, expanded one after the other, and of the list of all tasks of a project,
whatever was asked since it was parsed. -/
theorem expansion_primitive (sites : Site → Prop) (t : Templater) :
    (∀ {s : Store} {site : Site} {as : List Entity} {n : Nat} {opened : List String}
        {ids : List TaskId} {e : Expansion},
      Reachable sites s → (∀ a ∈ as, a.Valid s.graph) →
      (concatEach (Entity.expand site t n) as).run.run ⟨s, opened⟩ = (.ok ids, e) →
      ∀ x ∈ ids, (e.store.graph.task x).raw.Primitive) ∧
    ∀ {config : ProjectConfig} {base : LoaderConfig} {disk disk' : Disk} {root : FilePath}
        {playbooks : List FilePath} {p q q' : Project} {ids : List TaskId},
      p = (Project.parse config base t disk root playbooks).2 → q.mainPlaybook = p.mainPlaybook →
      q.otherPlaybooks = p.otherPlaybooks → Reaches sites p.store q.store →
      q.listTasks disk' = (.ok ids, q') → ∀ x ∈ ids, (q'.store.graph.task x).raw.Primitive := by
  refine ⟨fun hreach has hrun => concatEach_primitive hreach.sound hreach.wrapped has hrun, ?_⟩
  intro config base disk disk' root playbooks p q q' ids hp hmain hothers hreaches hrun
  obtain ⟨-, hparsed⟩ := Project.parse_reaches hp
  have hsound := hparsed.sound
  have hw : q.store.graph.Wrapped :=
    reaches_along (fun site _ => steady_wraps site) hreaches hparsed.wrapped
  have hplaybooks : q.playbooks = p.playbooks := by
    unfold Project.playbooks
    rw [hmain, hothers]
  -- the plays of the playbooks are there since the project was parsed
  have hvalid : ∀ a ∈ q.playbooks.map Entity.playbook, a.Valid q.store.graph := by
    have hseparate : p.Separate := by
      rw [hp]; exact Project.separate_parse config base t disk root playbooks
    intro a ha
    obtain ⟨pb, hpb, rfl⟩ := List.mem_map.1 ha
    rw [hplaybooks] at hpb
    intro play hplay
    exact (hreaches.grows hsound).keeps.hasPlay
      (hseparate.playbooks.inside play (List.mem_flatMap.2 ⟨pb, hpb, hplay⟩)).1
  obtain ⟨e, hexpansion, hstore⟩ := Project.expand_ok hrun
  have heach :
      (concatEach (Entity.expand (q.site disk') q.templater (expansionBound (q.site disk') q.store))
      (q.playbooks.map Entity.playbook)).run.run ⟨q.store, []⟩ = (.ok ids, e) := by
    rw [concatEach_playbooks]; exact hexpansion
  rw [hstore]
  exact concatEach_primitive (hreaches.sound hsound) hw hvalid heach

/-! ## A block without tasks -/

/-- A file of two tasks, the first one a block of none. -/
def emptyBlockSite : Site where
  disk := ⟨.dir [("tasks.yml", .file (.text "- block: []\n- debug:\n"))], []⟩
  root := ⟨"."⟩
  config := ⟨[]⟩

/-- Its tasks are loaded, -/
def emptyBlockLoad : Except LoadError (List TaskId) × Store :=
  (loadTasks emptyBlockSite none none ⟨"tasks.yml"⟩).run.run .empty

/-- and then expanded, one after the other. -/
def emptyBlockExpansion : Except ExpandError (List TaskId) × Expansion :=
  (concatEach (expandTask emptyBlockSite (.ofMode false) 10) [⟨0⟩, ⟨1⟩]).run.run
    ⟨emptyBlockLoad.2, []⟩

/-- **A block without tasks is expanded to itself**, not to the expansions of its tasks, which are
none. -/
theorem empty_block_stays : emptyBlockLoad = (.ok [⟨0⟩, ⟨1⟩], emptyBlockLoad.2) ∧
    emptyBlockExpansion = (.ok [⟨0⟩, ⟨1⟩], emptyBlockExpansion.2) ∧
    (emptyBlockExpansion.2.store.graph.task ⟨0⟩).raw.has "block" = true := by
  have hload : emptyBlockLoad.1.toOption = some [⟨0⟩, ⟨1⟩] := by decide +kernel
  have hexpansion : emptyBlockExpansion.1.toOption = some [⟨0⟩, ⟨1⟩] := by decide +kernel
  have hraw : (emptyBlockExpansion.2.store.graph.task ⟨0⟩).raw.has "block" = true := by
    decide +kernel
  exact ⟨run_ok hload, run_ok hexpansion, hraw⟩

/-- The small site as a project. -/
def smallProject : Project :=
  (Project.parse .empty ⟨[]⟩ (.ofMode false) smallSite.disk ⟨"."⟩ [⟨"site.yml"⟩]).2

theorem smallProject_eq : smallProject =
    (Project.parse .empty ⟨[]⟩ (.ofMode false) smallSite.disk ⟨"."⟩ [⟨"site.yml"⟩]).2 := by
  rw [smallProject]

/-- All tasks of the small project. -/
def smallTasks : Except ProjectError (List TaskId) × Project :=
  smallProject.listTasks smallSite.disk

/-- The two tasks of the small playbook, and those of the small project, are single operations. -/
theorem small_primitive :
    (∀ x ∈ [(⟨3⟩ : TaskId), ⟨1⟩], (smallExpansion.2.store.graph.task x).raw.Primitive) ∧
    ∀ x ∈ [(⟨3⟩ : TaskId), ⟨1⟩], (smallTasks.2.store.graph.task x).raw.Primitive := by
  have hone : concatEach (Entity.expand smallSite (.ofMode false) 10) [.playbook smallPlaybook] =
      expandPlaybook smallSite (.ofMode false) 10 smallPlaybook := by
    simp [concatEach, Entity.expand]
  have hrun :
      (concatEach (Entity.expand smallSite (.ofMode false) 10) [.playbook smallPlaybook]).run.run
      ⟨smallLoad.2, []⟩ = (.ok [⟨3⟩, ⟨1⟩], smallExpansion.2) := by
    rw [hone]; exact smallExpansion_ok
  have hvalid : ∀ a ∈ [Entity.playbook smallPlaybook], a.Valid smallLoad.2.graph := by
    intro a ha
    rw [List.mem_singleton.1 ha]
    intro p hp
    rw [List.mem_singleton.1 hp]
    exact has_small.1
  have hfound : (smallProject.listTasks smallSite.disk).1.toOption = some [⟨3⟩, ⟨1⟩] := by
    decide +kernel
  have htasks : smallProject.listTasks smallSite.disk = (.ok [⟨3⟩, ⟨1⟩], smallTasks.2) :=
    run_ok hfound
  obtain ⟨hentities, hprojects⟩ := expansion_primitive (· = smallSite) (.ofMode false)
  exact ⟨hentities reachable_small hvalid hrun,
    hprojects (q := smallProject) smallProject_eq rfl rfl .refl htasks⟩

end Runlist
