import Runlist.Proofs.Watch.Load

/-!
# Expansion, watched

The steps of expansion with every write and every lookup noted, together with the keys that are open
and what is being expanded. What is being expanded is handed from each function to those that it
calls, so that it does not come from the keys.

* `watchAdopt`: a directive becomes the parent of tasks.
* `watchExpandTask`, `watchExpandRoleOn`, `watchExpandPlay`, `watchExpandPlaybook`: the expansions.
* `mirrors_expandTask` and the like: **each of them does what is done without being watched.**
-/

namespace Runlist

/-- The directive becomes the parent of the topmost task of a chain. -/
def watchAdoptOne (parent id : TaskId) : Watch Unit := do
  let g ← Watch.look fun g => (visited (g.below parent) g.tasks.size id).map .task
  let root := g.chainRoot parent g.tasks.size id
  if root ≠ parent ∧ (g.task root).parent = none then
    Watch.update (.task root) fun g => g.modifyTask root fun t => { t with parent := some parent }

/-- The directive becomes the parent of the topmost tasks. -/
def watchAdopt (ids : List TaskId) (parent : TaskId) : Watch Unit := ids.forM (watchAdoptOne parent)

/-- The result of a directive. -/
def watchFinish (inside : List Frame) (id : TaskId) (origin : OriginId) (target : String)
    (result : Except ExpandError (List TaskId)) : WatchExpand (List TaskId) := do
  match result with
  | .error e => WatchExpand.failed inside origin target e
  | .ok tasks =>
    WatchExpand.load inside (watchAdopt tasks id)
    return tasks

/-- The rendered value of a directive. -/
def watchDirective (site : Site) (t : Templater) (inside : List Frame) (textKey : String)
    (id : TaskId) (action : String) : WatchExpand Json := do
  match ((← WatchExpand.look inside fun _ => [.task id]).task id).raw.get? action with
  | some (.string text) =>
    let vars ← WatchExpand.load inside (watchTaskVars site id)
    match t.evaluate text vars with
    | .ok rendered => return .object [(textKey, .string rendered)]
    | .error e => throw (.invalidParams action (.unrendered text e))
  | some (.object _) =>
    match ← WatchExpand.load inside (watchModule site t id action) with
    | some m => return m.toJson
    | none => return .object []
  | _ => throw (.invalidParams action .notParams)

/-- The parameters of an include. -/
def watchParams {α : Type} (site : Site) (t : Templater) (inside : List Frame)
    (read : Json → Except ShapeError α) (textKey : String) (id : TaskId) (action : String) :
    WatchExpand α := do
  match read (← watchDirective site t inside textKey id action) with
  | .ok params => return params
  | .error e => throw (.invalidParams action (.shape e))

/-- A directive that includes a file of tasks; `expand` expands each of them. -/
def watchTaskInclude (site : Site) (t : Templater)
    (expand : List Frame → TaskId → WatchExpand (List TaskId)) (inside : List Frame) (id : TaskId)
    (action : String) : WatchExpand (List TaskId) := do
  let g ← WatchExpand.look inside fun g => [.task id, .origin (g.task id).origin]
  let task := g.task id
  match ← WatchExpand.attempt (watchParams site t inside TaskInclude.ofJson "file" id action) with
  | .error e => WatchExpand.failed inside task.origin action e
  | .ok params =>
    let path := (g.taskPath id).directory.join params.file
    let result ← WatchExpand.entered site inside (.directive id (.file path)) fun inside => do
      let tasks ← WatchExpand.load inside
        (watchTasksIn site (some task.origin) task.role task.play path)
      concatEach (expand inside) tasks
    watchFinish inside id task.origin path.text result

/-- A directive that includes a role; `expand` expands it. -/
def watchRoleInclude (site : Site) (t : Templater)
    (expand : List Frame → RoleId → WatchExpand (List TaskId)) (inside : List Frame) (id : TaskId)
    (action : String) : WatchExpand (List TaskId) := do
  let origin := ((← WatchExpand.look inside fun _ => [.task id]).task id).origin
  match ← WatchExpand.attempt (watchParams site t inside RoleInclude.ofJson "name" id action) with
  | .error e => WatchExpand.failed inside origin action e
  | .ok params =>
    let play := (← WatchExpand.look inside fun g => g.taskHandles id).taskPlay id
    let target := Target.role params.name params.selection.tasksFile
    let result ← WatchExpand.entered site inside (.directive id target) fun inside => do
      let role ← WatchExpand.load inside
        (watchRoleWith site (some origin) play params.name params.selection)
      expand inside role
    watchFinish inside id origin ("role " ++ params.name) result

mutual
/-- The expansion of a task, inside some targets. -/
def watchExpandTask (site : Site) (t : Templater) :
    Nat → List Frame → TaskId → WatchExpand (List TaskId)
  | 0, _, _ => throw .tooDeep
  | n + 1, inside, id => do
    let task := (← WatchExpand.look inside fun _ => [.task id]).task id
    if task.isBlock then concatEach (watchExpandTask site t n inside) task.block
    else match task.taskInclude? with
      | some action => watchTaskInclude site t (watchExpandTask site t n) inside id action
      | none =>
        match task.roleInclude? with
        | some action =>
          watchRoleInclude site t
            (fun inside role => watchExpandRoleOn site t n inside role []) inside id
            action
        | none => return [id]

/-- The expansion of a role that is reached along a path of dependencies, inside some targets. -/
def watchExpandRoleOn (site : Site) (t : Templater) :
    Nat → List Frame → RoleId → List String → WatchExpand (List TaskId)
  | 0, _, _, _ => throw .tooDeep
  | n + 1, inside, role, path => do
    let g ← WatchExpand.look inside fun _ => [.role role]
    let path ← WatchExpand.load inside (aside (Load.ofExcept (enterDependency g role path)))
    let direct ← WatchExpand.load inside (watchDirect site role)
    let below ← concatEach (fun dep => watchExpandRoleOn site t n inside dep path) direct
    let tasks := ((← WatchExpand.look inside fun _ => [.role role]).role role).tasks
    let own ← concatEach (watchExpandTask site t n inside) tasks
    return below ++ own
end

mutual
/-- The expansion of a play, inside some targets. -/
def watchExpandPlay (site : Site) (t : Templater) :
    Nat → List Frame → PlayId → WatchExpand (List TaskId)
  | 0, _, _ => throw .tooDeep
  | n + 1, inside, id => do
    let play := (← WatchExpand.look inside fun _ => [.play id]).play id
    match play.importTarget? with
    | some target => do
      let path := site.root.join target
      let result ← WatchExpand.attempt do
        let playbook ← WatchExpand.load inside (watchPlaybook site (some play.origin) path)
        watchExpandPlaybook site t n inside playbook
      match result with
      | .ok tasks => return tasks
      | .error e => WatchExpand.failed inside play.origin path.text e
    | none => do
      let tasks ← concatEach (watchExpandTask site t n inside) play.tasks
      let roles ← concatEach (fun role => watchExpandRoleOn site t n inside role []) play.roles
      return tasks ++ roles

/-- The expansion of a playbook, inside some targets. -/
def watchExpandPlaybook (site : Site) (t : Templater) :
    Nat → List Frame → Playbook → WatchExpand (List TaskId)
  | 0, _, _ => throw .tooDeep
  | n + 1, inside, playbook => do
    let result ← WatchExpand.entered site inside (.playbook playbook.path) fun inside =>
      concatEach (watchExpandPlay site t n inside) playbook.plays
    match result with
    | .ok tasks => return tasks
    | .error e => throw e
end

/-! ## Each does what is done without being watched -/

variable {site : Site} {t : Templater} {inside : List Frame}

theorem mirrors_adoptOne (parent id : TaskId) :
    Mirrors (watchAdoptOne parent id) (Load.update fun g => g.adoptOne parent id) := by
  refine mirrors_of_ends fun tape => ?_
  have hrun : (Load.update fun g => g.adoptOne parent id).run.run tape.state =
      (.ok (), { tape.state with graph := tape.state.graph.adoptOne parent id }) := rfl
  rw [hrun, watchAdoptOne, ends_bind, ends_look]
  unfold Graph.adoptOne
  simp only
  split
  · rw [ends_watch_update]
  · rw [ends_pure]

theorem mirrors_adopt (ids : List TaskId) (parent : TaskId) :
    Mirrors (watchAdopt ids parent) (Load.update fun g => g.adopt ids parent) := by
  induction ids with
  | nil => exact mirrors_pure _
  | cons id ids ih =>
    have hparts : (Load.update fun g => g.adopt (id :: ids) parent) =
        (Load.update (fun g => g.adoptOne parent id) >>= fun _ => Load.update fun g =>
          g.adopt ids parent) := rfl
    rw [hparts]
    exact mirrors_bind (mirrors_adoptOne parent id) fun _ => ih

theorem mirrors_finish (id : TaskId) (origin : OriginId) (target : String)
    (result : Except ExpandError (List TaskId)) :
    Mirrors (watchFinish inside id origin target result)
      (finishInclude id origin target result) := by
  cases result with
  | error e => exact mirrors_failed _ _ _
  | ok tasks => exact mirrors_bind (mirrors_load (mirrors_adopt tasks id)) fun _ => mirrors_pure _

theorem mirrors_directive (textKey : String) (id : TaskId) (action : String) :
    Mirrors (watchDirective site t inside textKey id action)
      (directiveValue site t textKey id action) := by
  refine mirrors_bind (mirrors_expand_look _) fun g => ?_
  generalize (g.task id).raw.get? action = value
  match value with
  | some (.string text) =>
    refine mirrors_bind (mirrors_load (mirrors_taskVars id)) fun vars => ?_
    cases t.evaluate text vars with
    | ok rendered => exact mirrors_pure _
    | error e => exact mirrors_throw _
  | some (.object _) =>
    refine mirrors_bind (mirrors_load (mirrors_module t id action)) fun m => ?_
    cases m with
    | some m => exact mirrors_pure _
    | none => exact mirrors_pure _
  | none | some .null | some (.bool _) | some (.number _) | some (.array _) => exact mirrors_throw _

theorem mirrors_params {α : Type} (read : Json → Except ShapeError α) (textKey : String)
    (id : TaskId) (action : String) : Mirrors (watchParams site t inside read textKey id action)
      (includeParams site t read textKey id action) := by
  refine mirrors_bind (mirrors_directive textKey id action) fun value => ?_
  cases read value with
  | ok params => exact mirrors_pure _
  | error e => exact mirrors_throw _

theorem mirrors_taskInclude {watch : List Frame → TaskId → WatchExpand (List TaskId)}
    {expand : TaskId → Expand (List TaskId)}
    (h : ∀ inside id, Mirrors (watch inside id) (expand id)) (id : TaskId) (action : String) :
    Mirrors (watchTaskInclude site t watch inside id action)
    (expandTaskInclude site t expand id action) := by
  refine mirrors_bind (mirrors_expand_look _) fun g => ?_
  refine mirrors_bind (mirrors_attempt (mirrors_params _ _ _ _)) fun params => ?_
  cases params with
  | error e => exact mirrors_failed _ _ _
  | ok params =>
    refine mirrors_bind (mirrors_entered rfl ?_) fun result => mirrors_finish _ _ _ _
    exact mirrors_bind (mirrors_load (mirrors_tasksIn _ _ _ _)) fun tasks =>
      mirrors_concatEach (h _) tasks

theorem mirrors_roleInclude {watch : List Frame → RoleId → WatchExpand (List TaskId)}
    {expand : RoleId → Expand (List TaskId)} (h : ∀ inside r, Mirrors (watch inside r) (expand r))
    (id : TaskId) (action : String) : Mirrors (watchRoleInclude site t watch inside id action)
      (expandRoleInclude site t expand id action) := by
  refine mirrors_bind (mirrors_expand_look _) fun g => ?_
  refine mirrors_bind (mirrors_attempt (mirrors_params _ _ _ _)) fun params => ?_
  cases params with
  | error e => exact mirrors_failed _ _ _
  | ok params =>
    refine mirrors_bind (mirrors_expand_look _) fun g => ?_
    refine mirrors_bind (mirrors_entered rfl ?_) fun result => mirrors_finish _ _ _ _
    exact mirrors_bind (mirrors_load (mirrors_roleWith _ _ _ _)) fun r => h _ r

mutual
theorem mirrors_expandTask : ∀ (n : Nat) (inside : List Frame) (id : TaskId),
    Mirrors (watchExpandTask site t n inside id) (expandTask site t n id)
  | 0, _, _ => mirrors_throw _
  | n + 1, inside, id => by
    rw [watchExpandTask, expandTask]
    refine mirrors_bind (mirrors_expand_look _) fun g => ?_
    by_cases hb : (g.task id).isBlock
    · rw [if_pos hb, if_pos hb]
      exact mirrors_concatEach (mirrors_expandTask n inside) _
    · rw [if_neg hb, if_neg hb]
      cases (g.task id).taskInclude? with
      | some action => exact mirrors_taskInclude (mirrors_expandTask n) id action
      | none =>
        cases (g.task id).roleInclude? with
        | some action =>
          exact mirrors_roleInclude (fun inside r => mirrors_expandRoleOn n inside r []) id action
        | none => exact mirrors_pure _

theorem mirrors_expandRoleOn : ∀ (n : Nat) (inside : List Frame) (r : RoleId) (path : List String),
    Mirrors (watchExpandRoleOn site t n inside r path) (expandRoleOn site t n r path)
  | 0, _, _, _ => mirrors_throw _
  | n + 1, inside, r, path => by
    rw [watchExpandRoleOn, expandRoleOn]
    refine mirrors_bind (mirrors_expand_look _) fun g => ?_
    refine mirrors_bind (mirrors_load (mirrors_aside _)) fun path => ?_
    refine mirrors_bind (mirrors_load (mirrors_direct r)) fun direct => ?_
    refine mirrors_bind (mirrors_concatEach (fun d => mirrors_expandRoleOn n inside d path) _)
      fun below => ?_
    refine mirrors_bind (mirrors_expand_look _) fun g => ?_
    exact mirrors_bind (mirrors_concatEach (mirrors_expandTask n inside) _)
      fun own => mirrors_pure _
end

mutual
theorem mirrors_expandPlay : ∀ (n : Nat) (inside : List Frame) (p : PlayId),
    Mirrors (watchExpandPlay site t n inside p) (expandPlay site t n p)
  | 0, _, _ => mirrors_throw _
  | n + 1, inside, p => by
    rw [watchExpandPlay, expandPlay]
    refine mirrors_bind (mirrors_expand_look _) fun g => ?_
    simp only
    cases (g.play p).importTarget? with
    | some target =>
      refine mirrors_bind
        (mirrors_attempt (mirrors_bind (mirrors_load (mirrors_playbook _ _)) fun pb =>
        mirrors_expandPlaybook n inside pb)) fun result => ?_
      cases result with
      | ok tasks => exact mirrors_pure _
      | error e => exact mirrors_failed _ _ _
    | none =>
      refine mirrors_bind (mirrors_concatEach (mirrors_expandTask n inside) _) fun tasks => ?_
      exact mirrors_bind
        (mirrors_concatEach (fun r => mirrors_expandRoleOn n inside r []) _) fun roles =>
        mirrors_pure _

theorem mirrors_expandPlaybook : ∀ (n : Nat) (inside : List Frame) (pb : Playbook),
    Mirrors (watchExpandPlaybook site t n inside pb) (expandPlaybook site t n pb)
  | 0, _, _ => mirrors_throw _
  | n + 1, inside, pb => by
    rw [watchExpandPlaybook, expandPlaybook]
    refine mirrors_bind (mirrors_entered rfl (mirrors_concatEach (mirrors_expandPlay n _) _))
      fun result => ?_
    cases result with
    | ok tasks => exact mirrors_pure _
    | error e => exact mirrors_throw _
end

end Runlist
