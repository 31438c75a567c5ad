import Runlist.Project
import Runlist.Proofs.Expand.Leaves
import Runlist.Proofs.Expand.Owned
import Runlist.Proofs.Graph.Places

/-!
# No task is given twice

Every load makes new tasks, and every list of a graph has its tasks to itself. So an expansion gives
each task once, however often its role is listed or its file is included.

* `Entity.Given`: what may be expanded in a state: what it has, and the playbooks that loads have
  given.
* `Given.nodup`: its expansion gives no task twice.
* `Project.Separate`: no two playbooks of a project have a play in common.
* `expansion_nodup`: **in every state that is reached, every task is listed in one place at most,
  and no expansion gives a task twice.**
-/

namespace Runlist

variable {site : Site} {t : Templater} {e : Expansion} {sites : Site → Prop} {s : Store}

theorem Reachable.tidy (h : Reachable sites s) : s.graph.Tidy := ⟨h.sound, h.ranked⟩

/-- **What may be expanded in a state**: an entity of its graph, or a playbook that a load has given
before. -/
inductive Entity.Given (sites : Site → Prop) (s : Store) : Entity → Prop
  | task {x : TaskId} : s.graph.HasTask x → Entity.Given sites s (.task x)
  | role {r : RoleId} : s.graph.HasRole r → Entity.Given sites s (.role r)
  | play {p : PlayId} : s.graph.HasPlay p → Entity.Given sites s (.play p)
  | playbook {site : Site} {s₀ s₁ : Store} {around : Option OriginId} {path : FilePath}
      {pb : Playbook} :
      Reachable sites s₀ → (∀ o, around = some o → s₀.graph.HasOrigin o) →
      (loadPlaybook site around path).run.run s₀ = (.ok pb, s₁) → Reaches sites s₁ s →
      Entity.Given sites s (.playbook pb)

/-- The plays of a playbook that a load has given are told apart. -/
theorem Entity.Given.siblings {pb : Playbook} (h : Entity.Given sites s (.playbook pb)) :
    ∃ around, s.graph.Siblings around pb.plays := by
  cases h with
  | playbook hreach ho hload hlater =>
    obtain ⟨h₁, hsiblings, -⟩ := (loadPlaybook_siblings hreach.sound ho _).of_ok hload
    have hs₁ := h₁.sound hreach.sound
    exact ⟨_, hsiblings.keeps hs₁ (hlater.grows hs₁).keeps⟩

/-- **The expansion of what may be expanded** gives no task twice. -/
theorem Entity.Given.nodup {a : Entity} (h : Entity.Given sites e.store a) (he : e.store.graph.Tidy)
    (n : Nat) {ids : List TaskId} {e' : Expansion}
    (hrun : (a.expand site t n).run.run e = (.ok ids, e')) : ids.Nodup := by
  cases a with
  | task x =>
    cases h with
    | task hx => exact ((expandTask_owns n x e he hx).of_ok hrun).2.1
  | role r =>
    cases h with
    | role hr => exact ((expandRoleOn_owns n r [] e he hr).of_ok hrun).2.1
  | play p =>
    cases h with
    | play hp => exact ((expandPlay_owns n p e he hp).of_ok hrun).2.1
  | playbook pb =>
    obtain ⟨around, hsiblings⟩ := h.siblings
    exact ((expandPlaybook_owns n pb e he hsiblings).of_ok hrun).2.1

/-! ## Several playbooks -/

namespace Graph.Siblings

variable {g : Graph} {around : Option OriginId}

/-- The plays of some of the playbooks. -/
theorem of_mem {pbs : List Playbook} (h : g.Siblings around (pbs.flatMap (·.plays))) {pb : Playbook}
    (hpb : pb ∈ pbs) : g.Siblings around pb.plays where
  nodup := (List.nodup_flatMap.1 h.nodup).1 pb hpb
  inside p hp := h.inside p (List.mem_flatMap.2 ⟨pb, hpb, hp⟩)

/-- No task is below two of the plays. -/
theorem eq_of_below {plays : List PlayId} (hs : g.Sound) (h : g.Siblings around plays)
    {p q : PlayId} (hp : p ∈ plays) (hq : q ∈ plays) {x : TaskId}
    (hxp : g.Below (g.play p).origin x) (hxq : g.Below (g.play q).origin x) : p = q := by
  obtain ⟨depth, hdepth⟩ := h.depth hs
  refine hs.playInj (h.inside p hp).1 (h.inside q hq).1 (eq_of_depth hxp.around hxq.around ?_)
  rw [(hdepth p hp).2, (hdepth q hq).2]

end Graph.Siblings

/-- **Playbooks without a play in common**, one after the other. -/
theorem playbooks_own {pbs : List Playbook} {around : Option OriginId} (he : e.store.graph.Tidy)
    (hpbs : e.store.graph.Siblings around (pbs.flatMap (·.plays))) (n : Nat) :
    Owns site (concatEach (expandPlaybook site t n) pbs) e
      fun g x => ∃ pb ∈ pbs, ∃ p ∈ pb.plays, g.Below (e.store.graph.play p).origin x := by
  have hs := he.sound
  refine concatEach_owns (fun (pb : Playbook) g x =>
    ∃ p ∈ pb.plays, g.Below (e.store.graph.play p).origin x)
    hs ?_ ?_ fun pb hpb e₁ h₁ => ?_
  · rintro pb x g g' hg k ⟨p, hp, hbelow⟩
    exact ⟨p, hp, hbelow.keeps hg k⟩
  · refine (List.nodup_flatMap.1 hpbs.nodup).2.imp_of_mem ?_
    rintro pb pb' hpb hpb' hdisjoint g x hg k ⟨p, hp, hbelow⟩ ⟨q, hq, hbelow'⟩
    have hmem := List.mem_flatMap.2 ⟨pb, hpb, hp⟩
    have hmem' := List.mem_flatMap.2 ⟨pb', hpb', hq⟩
    rw [← k.play p (hpbs.inside p hmem).1] at hbelow
    rw [← k.play q (hpbs.inside q hmem').1] at hbelow'
    -- a task below plays of both playbooks is below one play, which both have
    have heq := (hpbs.keeps hs k).eq_of_below hg hmem hmem' hbelow hbelow'
    subst heq
    exact hdisjoint hp hq
  · have k₁ := h₁.grows.keeps
    have hpb₁ := hpbs.of_mem hpb
    refine (expandPlaybook_owns n pb e₁ (he.proceeds h₁) (hpb₁.keeps hs k₁)).imp (h₁.sound hs) ?_
    rintro g x - - ⟨p, hp, hbelow⟩
    rw [k₁.play p (hpb₁.inside p hp).1] at hbelow
    exact ⟨p, hp, hbelow⟩

/-! ## Projects -/

namespace Project

variable {disk : Disk} {p : Project}

/-- **No two playbooks of the project have a play in common**; the plays of all of them are
outermost. -/
structure Separate (p : Project) : Prop where
  tidy : p.store.graph.Tidy
  main : p.store.graph.Siblings none (p.mainPlaybook.toList.flatMap (·.plays))
  others : p.store.graph.Siblings none (p.otherPlaybooks.flatMap (·.plays))

theorem Separate.later (h : p.Separate) {s : Store} (tidy : s.graph.Tidy)
    (k : p.store.graph.Keeps s.graph) : ({ p with store := s } : Project).Separate :=
  ⟨tidy, h.main.keeps h.tidy.sound k, h.others.keeps h.tidy.sound k⟩

/-- A playbook whose plays are new. -/
theorem Separate.addPlaybook (h : p.Separate) {pb : Playbook}
    (hpb : p.store.graph.Siblings none pb.plays)
    (hnew : ∀ q ∈ pb.plays, q ∉ p.otherPlaybooks.flatMap (·.plays)) :
    (p.addPlaybook pb).Separate := by
  unfold Project.addPlaybook
  split
  · refine ⟨h.tidy, ?_, h.others⟩
    simpa using hpb
  · refine ⟨h.tidy, h.main, ?_⟩
    simp only [List.flatMap_append, List.flatMap_singleton]
    refine ⟨List.nodup_append.2 ⟨h.others.nodup, hpb.nodup, fun q hq q' hq' heq => ?_⟩,
      fun q hq => ?_⟩
    · subst heq
      exact hnew q hq' hq
    · rcases List.mem_append.1 hq with hq | hq
      · exact h.others.inside q hq
      · exact hpb.inside q hq

theorem Separate.addDocuments (h : p.Separate) (paths : List FilePath) :
    (p.addDocuments disk paths).2.Separate := by
  induction paths generalizing p with
  | nil => exact h
  | cons path rest ih =>
    have ho : ∀ o, (none : Option OriginId) = some o → p.store.graph.HasOrigin o := by rintro _ ⟨⟩
    have hends := @loadPlaybook_siblings (p.site disk) p.store h.tidy.sound none ho path
    unfold Project.addDocuments
    cases hrun : (loadPlaybook (p.site disk) none path).run.run p.store with
    | mk r store =>
      cases r with
      | error err =>
        have h₁ := hends.of_error hrun
        exact h.later (h.tidy.proceeds h₁) h₁.grows.keeps
      | ok pb =>
        obtain ⟨h₁, hsiblings, hnew⟩ := hends.of_ok hrun
        have hlater := h.later (h.tidy.proceeds h₁) h₁.grows.keeps
        simp only
        split
        · exact ih hlater
        -- its plays were loaded just now, those of the other playbooks before
        · exact ih (hlater.addPlaybook hsiblings fun q hq hmem =>
            hnew q hq (h.others.inside q hmem).1)

/-- **So it is in a project that was parsed.** -/
theorem separate_parse (config : ProjectConfig) (base : LoaderConfig) (t : Templater) (disk : Disk)
    (root : FilePath) (playbooks : List FilePath) :
    (Project.parse config base t disk root playbooks).2.Separate := by
  have hempty : ∀ p : Project, p.store = .empty → p.mainPlaybook = none → p.otherPlaybooks = [] →
      p.Separate := by
    intro p hstore hmain hothers
    refine ⟨?_, ?_, ?_⟩
    · rw [hstore]; exact ⟨Graph.sound_empty, Graph.ranked_empty⟩
    · rw [hmain]; exact ⟨List.nodup_nil, fun _ h => (List.not_mem_nil h).elim⟩
    · rw [hothers]; exact ⟨List.nodup_nil, fun _ h => (List.not_mem_nil h).elim⟩
  unfold Project.parse
  simp only
  split
  · split
    · exact hempty _ rfl rfl rfl
    · exact Separate.addDocuments (hempty _ rfl rfl rfl) _
  · exact Separate.addDocuments (hempty _ rfl rfl rfl) _

theorem Separate.playbooks (h : p.Separate) :
    p.store.graph.Siblings none (p.playbooks.flatMap (·.plays)) := by
  have hmain := h.main
  unfold Project.playbooks
  cases hm : p.mainPlaybook with
  | none => exact h.others
  | some pb => rw [hm] at hmain; exact hmain

/-- An expansion for a project is one with nothing open yet. -/
theorem expand_ok {α : Type} {step : Expand α} {a : α} {p' : Project}
    (h : p.expand step = (.ok a, p')) :
    ∃ e, step.run.run ⟨p.store, []⟩ = (.ok a, e) ∧ p'.store = e.store := by
  unfold Project.expand at h
  cases hrun : step.run.run ⟨p.store, []⟩ with
  | mk r e =>
    rw [hrun] at h
    cases r with
    | error err => cases h
    | ok b => cases h; exact ⟨e, rfl, rfl⟩

/-- The list of all tasks has none of them twice. -/
theorem Separate.listTasks (h : p.Separate) {ids : List TaskId} {p' : Project}
    (hrun : p.listTasks disk = (.ok ids, p')) : ids.Nodup := by
  obtain ⟨e, hexpansion, -⟩ := Project.expand_ok hrun
  exact ((playbooks_own (e := ⟨p.store, []⟩) h.tidy h.playbooks _).of_ok hexpansion).2.1

end Project

/-! ## All states -/

/-- **No task is given twice.** In every state that is reached, every task and every role is listed
in one place at most, and the expansion of an entity, or of a playbook that a load has given, has no
task twice. Neither has the list of all tasks of a project, whatever was asked since it was
parsed. -/
theorem expansion_nodup (sites : Site → Prop) (t : Templater) :
    (∀ {s : Store}, Reachable sites s → s.graph.ListedOnce ∧
      ∀ {site : Site} {n : Nat} {opened : List String} {a : Entity} {ids : List TaskId}
          {e : Expansion},
        Entity.Given sites s a →
        (a.expand site t n).run.run ⟨s, opened⟩ = (.ok ids, e) → ids.Nodup) ∧
    ∀ {config : ProjectConfig} {base : LoaderConfig} {disk disk' : Disk} {root : FilePath}
        {playbooks : List FilePath} {p q q' : Project} {ids : List TaskId},
      p = (Project.parse config base t disk root playbooks).2 → q.mainPlaybook = p.mainPlaybook →
      q.otherPlaybooks = p.otherPlaybooks → Reaches sites p.store q.store →
      q.listTasks disk' = (.ok ids, q') → ids.Nodup := by
  refine ⟨fun hs => ⟨hs.sound.listedOnce hs.ranked, fun ha hrun => ?_⟩, ?_⟩
  · exact Entity.Given.nodup (e := ⟨_, _⟩) ha hs.tidy _ hrun
  · intro config base disk disk' root playbooks p q q' ids hp hmain hothers hreaches hrun
    have hseparate : p.Separate := by
      rw [hp]; exact Project.separate_parse config base t disk root playbooks
    have hsound := hseparate.tidy.sound
    have hlater :=
      hseparate.later (s := q.store) ⟨hreaches.sound hsound, hreaches.ranked hseparate.tidy.ranked⟩
      (hreaches.grows hsound).keeps
    have hq : q.Separate :=
      ⟨hlater.tidy, by rw [hmain]; exact hlater.main, by rw [hothers]; exact hlater.others⟩
    exact hq.listTasks hrun

/-! ## A role and a file, both twice -/

/-- A play that lists a role twice, whose dependency has a task, and includes a file twice. -/
def twiceSite : Site where
  disk := ⟨.dir [
    ("more.yml", .file (.text "- debug:\n")),
    ("roles", .dir [
      ("base", .dir [("tasks", .dir [("main.yml", .file (.text "- ping:\n"))])]),
      ("web", .dir [("meta", .dir [("main.yml", .file (.text "dependencies:\n  - base\n"))])])]),
    ("site.yml", .file (.text
      "- roles: [web, web]\n  tasks:\n    - include_tasks: more.yml\n    - include_tasks: more.yml\n"))], []⟩
  root := ⟨"."⟩
  config := ⟨[]⟩

/-- Its playbook, loaded first. -/
def twicePlaybook : Playbook := ⟨⟨"site.yml"⟩, [⟨0⟩]⟩

/-- The playbook is loaded into an empty state. -/
def twiceLoad : Except LoadError Playbook × Store :=
  (loadPlaybook twiceSite none ⟨"site.yml"⟩).run.run .empty

/-- The playbook is expanded in the state in which it was loaded. -/
def twiceExpansion : Except ExpandError (List TaskId) × Expansion :=
  ((Entity.playbook twicePlaybook).expand twiceSite (.ofMode false) 10).run.run ⟨twiceLoad.2, []⟩

/-- The site as a project. -/
def twiceProject : Project :=
  (Project.parse .empty ⟨[]⟩ (.ofMode false) twiceSite.disk ⟨"."⟩ [⟨"site.yml"⟩]).2

/-- All tasks of the project. -/
def twiceTasks : Except ProjectError (List TaskId) × Project :=
  twiceProject.listTasks twiceSite.disk

/-- **What is listed or included twice is loaded twice**: the file gives two tasks, and so does the
role. -/
theorem twice_nodup : Reachable (· = twiceSite) twiceLoad.2 ∧ twiceLoad.2.graph.ListedOnce ∧
    twiceExpansion.1.toOption = some [⟨4⟩, ⟨5⟩, ⟨2⟩, ⟨3⟩] ∧ [(⟨4⟩ : TaskId), ⟨5⟩, ⟨2⟩, ⟨3⟩].Nodup ∧
    ∃ ids, twiceTasks = (.ok ids, twiceTasks.2) ∧ ids.Nodup := by
  have hfound : twiceLoad.1.toOption = some twicePlaybook ∧
      twiceExpansion.1.toOption = some [⟨4⟩, ⟨5⟩, ⟨2⟩, ⟨3⟩] ∧ twiceTasks.1.toOption.isSome := by
    decide +kernel
  obtain ⟨hload, hexpansion, hsome⟩ := hfound
  obtain ⟨ids, htasks⟩ := Option.isSome_iff_exists.1 hsome
  have ho : ∀ o, (none : Option OriginId) = some o → Store.empty.graph.HasOrigin o := by rintro _ ⟨⟩
  have hreach : Reachable (· = twiceSite) twiceLoad.2 :=
    reachable_loadPlaybook twiceSite ⟨"site.yml"⟩
  have hloaded : (loadPlaybook twiceSite none ⟨"site.yml"⟩).run.run .empty =
      (.ok twicePlaybook, twiceLoad.2) :=
    run_ok hload
  have hexpanded : ((Entity.playbook twicePlaybook).expand twiceSite (.ofMode false) 10).run.run
      ⟨twiceLoad.2, []⟩ = (.ok [⟨4⟩, ⟨5⟩, ⟨2⟩, ⟨3⟩], twiceExpansion.2) := run_ok hexpansion
  have hlisted : twiceProject.listTasks twiceSite.disk = (.ok ids, twiceTasks.2) := run_ok htasks
  have hproject : twiceProject =
      (Project.parse .empty ⟨[]⟩ (.ofMode false) twiceSite.disk ⟨"."⟩ [⟨"site.yml"⟩]).2 := by
    rw [twiceProject]
  have hgiven : Entity.Given (· = twiceSite) twiceLoad.2 (.playbook twicePlaybook) :=
    .playbook .refl ho hloaded .refl
  obtain ⟨hstates, hprojects⟩ := expansion_nodup (· = twiceSite) (.ofMode false)
  obtain ⟨honce, hnodup⟩ := hstates hreach
  exact ⟨hreach, honce, hexpansion, hnodup hgiven hexpanded, ids, run_ok htasks,
    hprojects (q := twiceProject) hproject rfl rfl .refl hlisted⟩

end Runlist
