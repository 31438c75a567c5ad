import Runlist.Proofs.Discovery
import Runlist.Proofs.Transparency

/-!
# Directives and their targets

A directive is expanded only if its target exists, and otherwise its failure names the directive.
This is not so of the file of tasks that is selected from a role: a role without it has no tasks.

* `Finds`, `Misses`: the target of a directive exists, or why there is none.
* `directive_target`: **a directive whose target does not exist fails**, with a chain that ends with
  it.
* `missing_selection`: a directive that selects a missing file of a role is expanded to nothing.
-/

namespace Runlist

variable {site : Site} {s : Store} {x : TaskId} {t : Templater} {n : Nat} {action : String}
  {kind : TaskKind}

/-- The chain of a task ends with the task. -/
theorem chain_last (hs : s.graph.Sound) (hx : s.graph.HasTask x) :
    (s.graph.taskNode x).chain.getLast? = some (s.graph.origin (s.graph.task x).origin).bare := by
  obtain ⟨-, -, -, -, htrail⟩ := s.graph.taskNode_fields x
  rw [TaskNode.chain, htrail, hs.trail_task hx, List.reverse_cons, List.getLast?_concat]

/-! ## Targets -/

/-- **The target of a directive exists**: the file declares tasks, beside the file of the directive;
the role is found in the directory that is remembered or by a search, and the selected files of it
can be read. -/
inductive Finds (site : Site) (t : Templater) (s : Store) (x : TaskId) : TaskKind → String → Prop
  | file {action : String} {params : TaskInclude} {e : Expansion} {ds : List TaskDeclaration} :
      (includeParams site t TaskInclude.ofJson "file" x action).run.run ⟨s, []⟩ = (.ok params, e) →
      site.readTasks ((s.graph.taskPath x).directory.join params.file) = .ok ds →
      Finds site t s x .taskInclude action
  | role {action : String} {params : RoleInclude} {e : Expansion} {dir : FilePath}
      {text : RoleText} :
      (includeParams site t RoleInclude.ofJson "name" x action).run.run ⟨s, []⟩ = (.ok params, e) →
      s.locate site params.name = .ok dir → site.readRoleAt params.selection dir = .ok text →
      Finds site t s x .roleInclude action

/-- **Why a directive has no target**, and how the target is called then. -/
inductive Misses (site : Site) (t : Templater) (s : Store) (x : TaskId) :
    TaskKind → String → String → ExpandError → Prop
  | fileParams {action : String} {err : ExpandError} {e : Expansion} :
      (includeParams site t TaskInclude.ofJson "file" x action).run.run ⟨s, []⟩ = (.error err, e) →
      Misses site t s x .taskInclude action action err
  | roleParams {action : String} {err : ExpandError} {e : Expansion} :
      (includeParams site t RoleInclude.ofJson "name" x action).run.run ⟨s, []⟩ = (.error err, e) →
      Misses site t s x .roleInclude action action err
  | file {action : String} {params : TaskInclude} {e : Expansion} {path : FilePath}
      {err : LoadError} :
      (includeParams site t TaskInclude.ofJson "file" x action).run.run ⟨s, []⟩ = (.ok params, e) →
      path = (s.graph.taskPath x).directory.join params.file → site.readTasks path = .error err →
      Misses site t s x .taskInclude action path.text (.load err)
  | role {action : String} {params : RoleInclude} {e : Expansion} {err : LoadError} :
      (includeParams site t RoleInclude.ofJson "name" x action).run.run ⟨s, []⟩ = (.ok params, e) →
      s.readRole site params.name params.selection = .error err →
      Misses site t s x .roleInclude action ("role " ++ params.name) (.load err)

/-- A directive has a target or none. -/
theorem finds_or_misses (site : Site) (hd : (s.graph.task x).Directive kind action)
    (t : Templater) :
    Finds site t s x kind action ∨ ∃ target err, Misses site t s x kind action target err := by
  cases hd with
  | file hb ha =>
    rcases hparams : (includeParams site t TaskInclude.ofJson "file" x action).run.run ⟨s, []⟩
      with ⟨err | params, e⟩
    · exact Or.inr ⟨_, _, .fileParams hparams⟩
    · cases hread : site.readTasks ((s.graph.taskPath x).directory.join params.file) with
      | error err => exact Or.inr ⟨_, _, .file hparams rfl hread⟩
      | ok ds => exact Or.inl (.file hparams hread)
  | role hb hn ha =>
    rcases hparams : (includeParams site t RoleInclude.ofJson "name" x action).run.run ⟨s, []⟩
      with ⟨err | params, e⟩
    · exact Or.inr ⟨_, _, .roleParams hparams⟩
    · cases hread : s.readRole site params.name params.selection with
      | error err => exact Or.inr ⟨_, _, .role hparams hread⟩
      | ok text =>
        obtain ⟨dir, hdir, htext⟩ := except_bind_ok.1 hread
        exact Or.inl (.role hparams hdir htext)

/-- Parameters that are read leave the state as it was but for variables that are remembered, and no
target is open. -/
theorem includeParams_leaves {α : Type} {read : Json → Except ShapeError α} {textKey : String}
    (hs : s.graph.Sound) (hx : s.graph.HasTask x) {result : Except ExpandError α} {e : Expansion}
    (hrun : (includeParams site t read textKey x action).run.run ⟨s, []⟩ = (result, e)) :
    ∃ s₁, e = ⟨s₁, []⟩ ∧ Advances site s s₁ ∧ Discovers site s s₁ := by
  have hends : Ends (includeParams site t read textKey x action) ⟨s, []⟩
      (fun _ e => Advances site s e.store ∧ Expansion.On (Discovers site) ⟨s, []⟩ e)
      fun _ e => Advances site s e.store ∧ Expansion.On (Discovers site) ⟨s, []⟩ e :=
    ((includeParams_ends hs hx).and ((steady_discovers site).includeParams x action ⟨s, []⟩)).mono
      (fun _ _ h => ⟨h.1.1, h.2⟩) fun _ _ h => h
  obtain ⟨hadvances, hdiscovers, hopened⟩ := hends.state (fun _ _ h => h) fun _ _ h => h
  rw [hrun] at hadvances hdiscovers hopened
  exact ⟨e.store, congrArg (Expansion.mk e.store) hopened, hadvances, hdiscovers⟩

/-- What is seen of the failure of a directive from a state that the reading of its parameters has
left. -/
theorem ends_missed {origin : OriginId} {target : String} {err : ExpandError} {e : Expansion}
    (hchain : (e.store.graph.provenance origin).map Origin.bare = (s.graph.taskNode x).chain)
    (herr : (∃ reason, err = .load reason) ∨ ∃ action reason, err = .invalidParams action reason) :
    Ends (Expand.failed origin target err : Expand (List TaskId)) e (fun _ _ => False)
      fun err' _ => err'.bare = .includeFailed (s.graph.taskNode x).chain target err := by
  refine ends_failed_within hchain fun err' h => ?_
  obtain ⟨reason, rfl⟩ | ⟨_, reason, rfl⟩ := herr
  · exact h
  · exact h

/-- **A directive without a target fails**, and its failure says why. -/
theorem Misses.fails (hs : s.graph.Sound) (hx : s.graph.HasTask x)
    (hd : (s.graph.task x).Directive kind action) {target : String} {err : ExpandError}
    (hmiss : Misses site t s x kind action target err) (n : Nat) :
    Ends (expandTask site t (n + 1) x) ⟨s, []⟩ (fun _ _ => False)
      fun err' _ => err'.bare = .includeFailed (s.graph.taskNode x).chain target err := by
  have hchain : ∀ {s₁ : Store}, Advances site s s₁ →
      (s₁.graph.provenance (s.graph.task x).origin).map Origin.bare = (s.graph.taskNode x).chain :=
    fun h => chain_taskNode hs (h.sound hs) h.grows.keeps hx
  -- the parameters cannot be read, or the target that they name cannot be loaded
  have hparams :
      ∀ {α : Type} {read : Json → Except ShapeError α} {textKey : String} {err : ExpandError}
      {e : Expansion}, (includeParams site t read textKey x action).run.run ⟨s, []⟩ =
        (.error err, e) →
      Ends (Expand.failed (s.graph.task x).origin action err : Expand (List TaskId)) e
        (fun _ _ => False)
        fun err' _ => err'.bare = .includeFailed (s.graph.taskNode x).chain action err := by
    intro α read textKey err e hrun
    obtain ⟨s₁, rfl, hadvances, -⟩ := includeParams_leaves hs hx hrun
    refine ends_missed (hchain hadvances) ?_
    exact ((includeParams_fails site t read textKey action x ⟨s, []⟩).of_error hrun).imp_right
      fun h => ⟨action, h⟩
  cases hmiss with
  | fileParams hrun =>
    rw [ends_congr (run_expandTask_file site t n (e := ⟨s, []⟩) hd),
      ends_congr (run_expandTaskInclude ..)]
    exact ends_expandDirective (ends_of_error hrun (hparams hrun))
  | roleParams hrun =>
    rw [ends_congr (run_expandTask_role site t n (e := ⟨s, []⟩) hd),
      ends_congr (run_expandRoleInclude ..)]
    exact ends_expandDirective (ends_of_error hrun (hparams hrun))
  | file hrun hpath hread =>
    obtain ⟨s₁, rfl, hadvances, -⟩ := includeParams_leaves hs hx hrun
    rw [ends_congr (run_expandTask_file site t n (e := ⟨s, []⟩) hd),
      ends_congr (run_expandTaskInclude ..)]
    refine ends_expandDirective
      (ends_of_ok hrun ⟨fun hopen => (List.not_mem_nil hopen).elim, fun _ => ?_⟩)
    dsimp only
    rw [← hpath, ends_bind, ends_load]
    refine (loadTasks_included hs hx hadvances _).mono ?_ ?_
    · rintro _ _ ⟨-, -, ds, hok, -⟩
      rw [hread] at hok; cases hok
    · rintro err s₂ ⟨hextends, herr⟩
      rw [hread] at herr
      cases herr
      exact ends_missed (hchain (hadvances.trans hextends.advances)) (.inl ⟨_, rfl⟩)
  | role hrun hread =>
    obtain ⟨s₁, rfl, hadvances, hdiscovers⟩ := includeParams_leaves hs hx hrun
    rw [ends_congr (run_expandTask_role site t n (e := ⟨s, []⟩) hd),
      ends_congr (run_expandRoleInclude ..)]
    refine ends_expandDirective
      (ends_of_ok hrun ⟨fun hopen => (List.not_mem_nil hopen).elim, fun _ => ?_⟩)
    rw [ends_bind, ends_load]
    refine ((loadRoleWith_discovers site _ _ _ _ s₁).and
      (loadRole_included hs hx hadvances _ _)).mono ?_ ?_
    · rintro _ _ ⟨⟨-, text, hok, -⟩, -⟩
      rw [hdiscovers.readRole, hread] at hok; cases hok
    · rintro err s₂ ⟨⟨-, herr⟩, hextends, -⟩
      rw [hdiscovers.readRole, hread] at herr
      cases herr
      exact ends_missed (hchain (hadvances.trans hextends.advances)) (.inl ⟨_, rfl⟩)

/-- What is seen of a task that fails. -/
theorem reply_of_fails {err : ExpandError}
    (h : Ends (expandTask site t n x) ⟨s, []⟩ (fun _ _ => False)
    fun err' _ => err'.bare = err) : ∃ text, (Question.task x).reply site t n [] s =
      .error (err, text) := by
  have hends :
      Ends ((Question.task x).ask site t n) ⟨s, []⟩ (fun _ _ => False) fun err' _ => err'.bare =
        err := by
    rw [Question.ask, Expand.leaves, ends_bind]
    exact h.mono (fun _ _ h => h.elim) fun _ _ h => h
  unfold Question.reply
  rcases hrun : ((Question.task x).ask site t n).run.run ⟨s, []⟩ with ⟨err' | answer, e⟩
  · have hbare := hends.of_error hrun
    exact ⟨err'.message, by rw [← hbare]; rfl⟩
  · exact (hends.of_ok hrun).elim

/-- **A directive whose target does not exist fails**, and one that is expanded has a target. The
chain of the failure ends with the directive. -/
theorem directive_target {sites : Site → Prop} (h : Reachable sites s) (site : Site)
    (hx : s.graph.HasTask x) (hd : (s.graph.task x).Directive kind action) (t : Templater) :
    (∀ n answer, (Question.task x).reply site t n [] s = .ok answer →
      Finds site t s x kind action) ∧
    (¬ Finds site t s x kind action → ∃ target err, Misses site t s x kind action target err ∧
      ∀ n, ∃ text, (Question.task x).reply site t (n + 1) [] s =
        .error (.includeFailed (s.graph.taskNode x).chain target err, text)) ∧
    (s.graph.taskNode x).chain.getLast? = some (s.graph.origin (s.graph.task x).origin).bare := by
  have hs := h.sound
  have hfails : ∀ {target err}, Misses site t s x kind action target err → ∀ n, ∃ text,
      (Question.task x).reply site t (n + 1) [] s =
        .error (.includeFailed (s.graph.taskNode x).chain target err, text) :=
    fun hmiss n => reply_of_fails (hmiss.fails hs hx hd n)
  refine ⟨fun n answer hok => ?_, fun hnot => ?_, chain_last hs hx⟩
  · rcases finds_or_misses site hd t with hfinds | ⟨target, err, hmiss⟩
    · exact hfinds
    · cases n with
      | zero => cases hok
      | succ n =>
        obtain ⟨text, hfail⟩ := hfails hmiss n
        rw [hfail] at hok
        cases hok
  · obtain ⟨target, err, hmiss⟩ := (finds_or_misses site hd t).resolve_left hnot
    exact ⟨target, err, hmiss, hfails hmiss⟩

/-- The directive of the small site has a target, as it is expanded. -/
theorem small_target : Reachable (· = smallSite) smallLoad.2 ∧
    smallLoad.2.graph.HasTask ⟨0⟩ ∧
    (smallLoad.2.graph.task ⟨0⟩).Directive .taskInclude "include_tasks" ∧
    (∃ answer, (Question.task ⟨0⟩).reply smallSite (.ofMode false) 10 [] smallLoad.2 = .ok answer) ∧
    Finds smallSite (.ofMode false) smallLoad.2 ⟨0⟩ .taskInclude "include_tasks" := by
  obtain ⟨hblock, haction, hok⟩ : (smallLoad.2.graph.task ⟨0⟩).block = [] ∧
      (smallLoad.2.graph.task ⟨0⟩).taskInclude? = some "include_tasks" ∧
      ((Question.task ⟨0⟩).reply smallSite (.ofMode false) 10 [] smallLoad.2).toOption.isSome := by
    decide +kernel
  have hd : (smallLoad.2.graph.task ⟨0⟩).Directive .taskInclude "include_tasks" :=
    .file hblock haction
  cases hreply : (Question.task ⟨0⟩).reply smallSite (.ofMode false) 10 [] smallLoad.2 with
  | error err => rw [hreply] at hok; cases hok
  | ok answer =>
    exact ⟨reachable_small, has_small.2, hd, ⟨answer, rfl⟩,
      (directive_target reachable_small smallSite has_small.2 hd (.ofMode false)).1 10
        answer hreply⟩

/-! ## Files that are selected from a role -/

/-- The names of the tasks that are seen. -/
def named? : Except (ExpandError × String) Answer → Option (List (Option String))
  | .ok (.leaves leaves) => some (leaves.map (·.name))
  | _ => none

theorem of_named {reply : Except (ExpandError × String) Answer} {names : List (Option String)}
    (h : named? reply = some names) : ∃ leaves, reply = .ok (.leaves leaves) ∧
    leaves.map (·.name) = names := by
  unfold named? at h
  split at h
  · cases h; exact ⟨_, rfl, rfl⟩
  · cases h

/-- A role with its main tasks only, and directives that select a file that it does not have, that
name no role, and that select a file whose name cannot be rendered. -/
def selectSite : Site where
  disk := ⟨.dir [
    ("roles", .dir [("web", .dir [("tasks", .dir [
      ("main.yml", .file (.text "- name: main\n  debug:\n"))])])]),
    ("tasks.yml", .file (.text ("- include_role:\n    name: web\n    tasks_from: missing\n" ++
      "- include_role:\n    name: \"\"\n" ++
      "- include_role:\n    name: web\n    tasks_from: \"\x7b\x7b bad\"\n")))], []⟩
  root := ⟨"."⟩
  config := ⟨[]⟩

/-- The directives are loaded into an empty state. -/
def selectLoad : Except LoadError (List TaskId) × Store :=
  (loadTasks selectSite none none ⟨"tasks.yml"⟩).run.run .empty

theorem reachable_select : Reachable (· = selectSite) selectLoad.2 :=
  reachable_loadTasks selectSite ⟨"tasks.yml"⟩

theorem select_tasks :
    ∀ i < 3, selectLoad.2.graph.HasTask ⟨i⟩ ∧ (selectLoad.2.graph.task ⟨i⟩).block = [] ∧
    (selectLoad.2.graph.task ⟨i⟩).taskInclude? = none ∧
    (selectLoad.2.graph.task ⟨i⟩).roleInclude? = some "include_role" := by decide +kernel

theorem select_directive {i : Nat} (hi : i < 3) : selectLoad.2.graph.HasTask ⟨i⟩ ∧
    (selectLoad.2.graph.task ⟨i⟩).Directive .roleInclude "include_role" := by
  obtain ⟨hhas, hblock, hnot, hrole⟩ := select_tasks i hi
  exact ⟨hhas, .role hblock hnot hrole⟩

/-- What directives of the site read as their parameters. -/
def selectParams (i : Nat) : Except ExpandError RoleInclude × Expansion :=
  (includeParams selectSite (.ofMode false) RoleInclude.ofJson "name" ⟨i⟩ "include_role").run.run
    ⟨selectLoad.2, []⟩

/-- **A missing file of a role gives no tasks**, where it is selected, and so does a role without a
name: the directory in which roles are searched is there. -/
theorem missing_selection : Reachable (· = selectSite) selectLoad.2 ∧
    (∀ i < 2, selectLoad.2.graph.HasTask ⟨i⟩ ∧
      (selectLoad.2.graph.task ⟨i⟩).Directive .roleInclude "include_role" ∧
      (Question.task ⟨i⟩).reply selectSite (.ofMode false) 10 [] selectLoad.2 = .ok (.leaves [])) ∧
    (selectParams 0).1.toOption = some ⟨"web", some "missing", none, none, none⟩ ∧
    (selectSite.findRole "web").toOption = some ⟨"./roles/web"⟩ ∧
    (selectSite.disk.filesBelow ⟨"./roles/web"⟩).toOption = some [["tasks", "main.yml"]] ∧
    RoleSelection.selects "missing" ["main.yml"] = false ∧
    (selectParams 1).1.toOption = some ⟨"", none, none, none, none⟩ := by
  obtain ⟨hnamed, hmissing, hempty⟩ :
      (∀ i < 2, named? ((Question.task ⟨i⟩).reply selectSite (.ofMode false) 10 [] selectLoad.2) =
        some []) ∧
      (selectParams 0).1.toOption = some ⟨"web", some "missing", none, none, none⟩ ∧
      (selectParams 1).1.toOption = some ⟨"", none, none, none, none⟩ := by decide +kernel
  refine ⟨reachable_select,
    fun i hi => ?_, hmissing, by decide +kernel, by decide +kernel, by decide +kernel,
    hempty⟩
  obtain ⟨hhas, hd⟩ := select_directive (hi.trans (by decide))
  obtain ⟨leaves, hreply, hleaves⟩ := of_named (hnamed i hi)
  exact ⟨hhas, hd, by rw [hreply, List.map_eq_nil_iff.1 hleaves]⟩

end Runlist
