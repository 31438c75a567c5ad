import Runlist.Proofs.Step

/-!
# Expansion that tells how it came to each task

The same steps as those of expansion, which in addition carry the blocks and directives that were
entered.

* `Reached`: a task of the result, and the tasks through which expansion came to it.
* `traceTask`, `traceRole`, `tracePlay`, `tracePlaybook`: the expansions.
* `traceTask_erase` and the like: **without the ways, they are the expansions themselves.**
-/

namespace Runlist

/-- A task of the result of an expansion. -/
structure Reached where
  task : TaskId
  /-- The blocks and directives through which expansion came to the task, nearest first. -/
  through : List TaskId

/-- The result of a directive. -/
def finishTrace (id : TaskId) (origin : OriginId) (target : String)
    (result : Except ExpandError (List Reached)) : Expand (List Reached) := do
  match result with
  | .error e => Expand.failed origin target e
  | .ok reached =>
    Expand.load (Load.update fun g => g.adopt (reached.map Reached.task) id)
    return reached

/-- A directive that includes a file of tasks; `trace` expands each of them. -/
def traceTaskInclude (site : Site) (t : Templater) (trace : TaskId → Expand (List Reached))
    (id : TaskId) (action : String) : Expand (List Reached) := do
  let g ← Expand.graph
  let task := g.task id
  match ← Expand.attempt (includeParams site t TaskInclude.ofJson "file" id action) with
  | .error e => Expand.failed task.origin action e
  | .ok params =>
    let path := (g.taskPath id).directory.join params.file
    let result ← Expand.inside site (.file path) do
      let tasks ← Expand.load (loadTasksIn site (some task.origin) task.role task.play path)
      concatEach trace tasks
    finishTrace id task.origin path.text result

/-- A directive that includes a role; `trace` expands it. -/
def traceRoleInclude (site : Site) (t : Templater) (trace : RoleId → Expand (List Reached))
    (id : TaskId) (action : String) : Expand (List Reached) := do
  let origin := ((← Expand.graph).task id).origin
  match ← Expand.attempt (includeParams site t RoleInclude.ofJson "name" id action) with
  | .error e => Expand.failed origin action e
  | .ok params =>
    let play := (← Expand.graph).taskPlay id
    let result ← Expand.inside site (.role params.name params.selection.tasksFile) do
      let role ← Expand.load (loadRoleWith site (some origin) play params.name params.selection)
      trace role
    finishTrace id origin ("role " ++ params.name) result

mutual
/-- The expansion of a task that was reached through some others. -/
def traceTask (site : Site) (t : Templater) : Nat → List TaskId → TaskId → Expand (List Reached)
  | 0, _, _ => throw .tooDeep
  | n + 1, through, id => do
    let task := (← Expand.graph).task id
    if task.isBlock then concatEach (traceTask site t n (id :: through)) task.block
    else match task.taskInclude? with
      | some action => traceTaskInclude site t (traceTask site t n (id :: through)) id action
      | none =>
        match task.roleInclude? with
        | some action =>
          traceRoleInclude site t
            (fun role => traceRoleOn site t n (id :: through) role []) id action
        | none => return [⟨id, through⟩]

/-- The expansion of a role that was reached through some tasks, along a path of dependencies. -/
def traceRoleOn (site : Site) (t : Templater) :
    Nat → List TaskId → RoleId → List String → Expand (List Reached)
  | 0, _, _, _ => throw .tooDeep
  | n + 1, through, role, path => do
    let path ← Expand.load (Load.ofExcept (enterDependency (← Expand.graph) role path))
    let direct ← Expand.load (directDependencies site role)
    let below ← concatEach (fun dep => traceRoleOn site t n through dep path) direct
    let tasks := ((← Expand.graph).role role).tasks
    let own ← concatEach (traceTask site t n through) tasks
    return below ++ own
end

mutual
/-- The expansion of a play. -/
def tracePlay (site : Site) (t : Templater) : Nat → PlayId → Expand (List Reached)
  | 0, _ => throw .tooDeep
  | n + 1, id => do
    let play := (← Expand.graph).play id
    match play.importTarget? with
    | some target => do
      let path := site.root.join target
      let result ← Expand.attempt do
        let playbook ← Expand.load (loadPlaybook site (some play.origin) path)
        tracePlaybook site t n playbook
      match result with
      | .ok reached => return reached
      | .error e => Expand.failed play.origin path.text e
    | none => do
      let tasks ← concatEach (traceTask site t n []) play.tasks
      let roles ← concatEach (fun role => traceRoleOn site t n [] role []) play.roles
      return tasks ++ roles

/-- The expansion of a playbook. -/
def tracePlaybook (site : Site) (t : Templater) : Nat → Playbook → Expand (List Reached)
  | 0, _ => throw .tooDeep
  | n + 1, playbook => do
    let result ← Expand.inside site (.file playbook.path)
      (concatEach (tracePlay site t n) playbook.plays)
    match result with
    | .ok reached => return reached
    | .error e => throw e
end

/-! ## Without the ways -/

section Map

variable {α β : Type} (f : α → β)

theorem attempt_map (x : Expand α) :
    Expand.attempt (f <$> x) = Except.map f <$> Expand.attempt x := by
  refine ExceptT.ext (StateT.ext fun e => ?_)
  simp only [Expand.attempt, ExceptT.run_map, ExceptT.run_lift]
  rfl

theorem inside_map (site : Site) (target : Target) (x : Expand α) :
    Expand.inside site target (f <$> x) = Except.map f <$> Expand.inside site target x := by
  simp only [Expand.inside, attempt_map, map_bind, bind_map_left, map_pure]

theorem failed_map (origin : OriginId) (target : String) (e : ExpandError) :
    f <$> (Expand.failed origin target e : Expand α) = Expand.failed origin target e := by
  cases e <;> rfl

theorem concatEach_map {γ : Type} (g : γ → Expand (List α)) (l : List γ) :
    List.map f <$> concatEach g l = concatEach (fun c => List.map f <$> g c) l := by
  induction l with
  | nil => simp [concatEach]
  | cons c l ih => simp [concatEach, map_bind, ← ih]

end Map

section Erase

variable {site : Site} {t : Templater}

theorem finishTrace_erase (id : TaskId) (origin : OriginId) (target : String)
    (result : Except ExpandError (List Reached)) :
    List.map Reached.task <$> finishTrace id origin target result =
      finishInclude id origin target (Except.map (List.map Reached.task) result) := by
  cases result with
  | error e => exact failed_map _ origin target e
  | ok reached => simp [finishTrace, finishInclude, Except.map]

theorem traceTaskInclude_erase {trace : TaskId → Expand (List Reached)}
    {expand : TaskId → Expand (List TaskId)} (h : ∀ x, List.map Reached.task <$> trace x = expand x)
    (id : TaskId) (action : String) :
    List.map Reached.task <$> traceTaskInclude site t trace id action =
      expandTaskInclude site t expand id action := by
  obtain rfl := funext h
  unfold traceTaskInclude expandTaskInclude
  simp only [map_bind]
  refine bind_congr fun g => bind_congr fun params => ?_
  cases params with
  | error e => exact failed_map _ _ _ e
  | ok params =>
    simp only [map_bind, finishTrace_erase, ← concatEach_map]
    rw [← map_bind, inside_map, bind_map_left]

theorem traceRoleInclude_erase {trace : RoleId → Expand (List Reached)}
    {expand : RoleId → Expand (List TaskId)} (h : ∀ r, List.map Reached.task <$> trace r = expand r)
    (id : TaskId) (action : String) :
    List.map Reached.task <$> traceRoleInclude site t trace id action =
      expandRoleInclude site t expand id action := by
  unfold traceRoleInclude expandRoleInclude
  simp only [map_bind]
  refine bind_congr fun g => bind_congr fun params => ?_
  cases params with
  | error e => exact failed_map _ _ _ e
  | ok params =>
    simp only [map_bind, finishTrace_erase, ← h]
    refine bind_congr fun g => ?_
    rw [← map_bind, inside_map, bind_map_left]

mutual
/-- **Without the ways, it is the expansion of the task.** -/
theorem traceTask_erase : ∀ (n : Nat) (through : List TaskId) (id : TaskId),
    List.map Reached.task <$> traceTask site t n through id = expandTask site t n id
  | 0, _, _ => rfl
  | n + 1, through, id => by
    have ih := traceTask_erase n (id :: through)
    unfold traceTask expandTask
    simp only [map_bind]
    refine bind_congr fun g => ?_
    by_cases hb : (g.task id).isBlock
    · rw [if_pos hb, if_pos hb, concatEach_map]
      exact congrArg (concatEach · _) (funext ih)
    · rw [if_neg hb, if_neg hb]
      cases (g.task id).taskInclude? with
      | some action => exact traceTaskInclude_erase ih id action
      | none =>
        cases (g.task id).roleInclude? with
        | some action =>
          exact traceRoleInclude_erase (fun r => traceRoleOn_erase n (id :: through) r []) id action
        | none => exact map_pure ..

/-- **Without the ways, it is the expansion of the role.** -/
theorem traceRoleOn_erase : ∀ (n : Nat) (through : List TaskId) (r : RoleId) (path : List String),
    List.map Reached.task <$> traceRoleOn site t n through r path = expandRoleOn site t n r path
  | 0, _, _, _ => rfl
  | n + 1, through, r, path => by
    unfold traceRoleOn expandRoleOn
    simp only [map_bind, map_pure, List.map_append]
    refine bind_congr fun g => bind_congr fun path => bind_congr fun direct => ?_
    rw [← funext fun d => traceRoleOn_erase n through d path, ← funext (traceTask_erase n through),
      ← concatEach_map, bind_map_left]
    refine bind_congr fun below => bind_congr fun g => ?_
    rw [← concatEach_map, bind_map_left]
end

mutual
/-- **Without the ways, it is the expansion of the play.** -/
theorem tracePlay_erase : ∀ (n : Nat) (p : PlayId),
    List.map Reached.task <$> tracePlay site t n p = expandPlay site t n p
  | 0, _ => rfl
  | n + 1, p => by
    unfold tracePlay expandPlay expandRole
    simp only [map_bind]
    refine bind_congr fun g => ?_
    cases (g.play p).importTarget? with
    | some target =>
      simp only [← tracePlaybook_erase n]
      rw [← map_bind, attempt_map, bind_map_left, map_bind]
      refine bind_congr fun result => ?_
      cases result with
      | error e => exact failed_map _ _ _ e
      | ok reached => exact map_pure ..
    | none =>
      simp only [map_bind, map_pure, List.map_append]
      rw [← funext (traceTask_erase n []), ← funext fun r => traceRoleOn_erase n [] r [],
        ← concatEach_map, bind_map_left]
      refine bind_congr fun tasks => ?_
      rw [← concatEach_map, bind_map_left]

/-- **Without the ways, it is the expansion of the playbook.** -/
theorem tracePlaybook_erase : ∀ (n : Nat) (playbook : Playbook),
    List.map Reached.task <$> tracePlaybook site t n playbook = expandPlaybook site t n playbook
  | 0, _ => rfl
  | n + 1, playbook => by
    unfold tracePlaybook expandPlaybook
    rw [← funext (tracePlay_erase n), ← concatEach_map, inside_map, map_bind, bind_map_left]
    refine bind_congr fun result => ?_
    cases result with
    | error e => rfl
    | ok reached => exact map_pure ..
end

end Erase

end Runlist
