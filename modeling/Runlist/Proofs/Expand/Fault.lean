import Runlist.Proofs.Outcome.Documents

/-!
# Where an expansion fails

The same steps as those of expansion, which report nothing: a failure carries its cause as it came
up, and the directives that were open then.

* `Opening`: a directive while its parameters are read, its target is loaded or what it gives is
  expanded.
* `Fault`: the directives that are open at a failure, and its cause. `Fault.report`: the failure
  that is reported for it.
* `faultTask`, `faultRoleOn`, `faultPlay`, `faultPlaybook`: the expansions.
* `faultTask_report` and the like: **with every fault reported, they are the expansions
  themselves.**
-/

namespace Runlist

/-- A directive that is open: where it is declared, and what it is expanding. -/
structure Opening where
  origin : OriginId
  /-- The action, while the parameters are read, and then the target. -/
  target : String

/-- Where and why an expansion fails. -/
structure Fault where
  /-- The directives that are open, innermost first. -/
  within : List Opening
  cause : ExpandError

/-- **The failure that is reported**: the cause by itself if no directive is open, and otherwise the
failure of the innermost one, unless the cause is a cycle. -/
def Fault.report (g : Graph) (f : Fault) : ExpandError :=
  match f.within with
  | [] => f.cause
  | opening :: _ => f.cause.within (g.provenance opening.origin) opening.target

/-- A step of expansion that fails with a fault. -/
abbrev Blame := ExceptT Fault (StateM Expansion)

namespace Blame

variable {α : Type}

/-- A step in which no directive is opened. -/
def lift (step : Expand α) : Blame α := ExceptT.adapt (Fault.mk []) step

/-- A step while a directive is open. -/
def within (opening : Opening) (step : Blame α) : Blame α :=
  ExceptT.adapt (fun f => { f with within := f.within ++ [opening] }) step

/-- A step inside a target. -/
def inside (site : Site) (target : Target) (step : Blame α) : Blame α := do
  lift (Expand.enter (target.key site.disk))
  let result ← ExceptT.lift step.run
  lift Expand.leave
  match result with
  | .ok a => return a
  | .error f => throw f

/-- A step whose fault is reported. -/
def report (step : Blame α) : Expand α := do
  match ← ExceptT.lift step.run with
  | .ok a => return a
  | .error f => throw (f.report (← Expand.graph))

end Blame

/-- A directive that includes a file of tasks; `expand` expands each of them. -/
def faultTaskInclude (site : Site) (t : Templater) (expand : TaskId → Blame (List TaskId))
    (id : TaskId) (action : String) : Blame (List TaskId) := do
  let g ← Blame.lift Expand.graph
  let task := g.task id
  let params ← Blame.within ⟨task.origin, action⟩
    (Blame.lift (includeParams site t TaskInclude.ofJson "file" id action))
  let path := (g.taskPath id).directory.join params.file
  let tasks ← Blame.within ⟨task.origin, path.text⟩ do
    Blame.inside site (.file path) do
      let tasks ← Blame.lift
        (Expand.load (loadTasksIn site (some task.origin) task.role task.play path))
      concatEach expand tasks
  Blame.lift (Expand.load (Load.update fun g => g.adopt tasks id))
  return tasks

/-- A directive that includes a role; `expand` expands it. -/
def faultRoleInclude (site : Site) (t : Templater) (expand : RoleId → Blame (List TaskId))
    (id : TaskId) (action : String) : Blame (List TaskId) := do
  let origin := ((← Blame.lift Expand.graph).task id).origin
  let params ← Blame.within ⟨origin, action⟩
    (Blame.lift (includeParams site t RoleInclude.ofJson "name" id action))
  let play := (← Blame.lift Expand.graph).taskPlay id
  let tasks ← Blame.within ⟨origin, "role " ++ params.name⟩ do
    Blame.inside site (.role params.name params.selection.tasksFile) do
      let role ← Blame.lift
        (Expand.load (loadRoleWith site (some origin) play params.name params.selection))
      expand role
  Blame.lift (Expand.load (Load.update fun g => g.adopt tasks id))
  return tasks

mutual
/-- The expansion of a task. -/
def faultTask (site : Site) (t : Templater) : Nat → TaskId → Blame (List TaskId)
  | 0, _ => throw ⟨[], .tooDeep⟩
  | n + 1, id => do
    let task := (← Blame.lift Expand.graph).task id
    if task.isBlock then concatEach (faultTask site t n) task.block
    else match task.taskInclude? with
      | some action => faultTaskInclude site t (faultTask site t n) id action
      | none =>
        match task.roleInclude? with
        | some action =>
          faultRoleInclude site t (fun role => faultRoleOn site t n role []) id action
        | none => return [id]

/-- The expansion of a role that is reached along a path of dependencies. -/
def faultRoleOn (site : Site) (t : Templater) : Nat → RoleId → List String → Blame (List TaskId)
  | 0, _, _ => throw ⟨[], .tooDeep⟩
  | n + 1, role, path => do
    let g ← Blame.lift Expand.graph
    let path ← Blame.lift (Expand.load (Load.ofExcept (enterDependency g role path)))
    let direct ← Blame.lift (Expand.load (directDependencies site role))
    let below ← concatEach (fun dep => faultRoleOn site t n dep path) direct
    let tasks := ((← Blame.lift Expand.graph).role role).tasks
    let own ← concatEach (faultTask site t n) tasks
    return below ++ own
end

mutual
/-- The expansion of a play. -/
def faultPlay (site : Site) (t : Templater) : Nat → PlayId → Blame (List TaskId)
  | 0, _ => throw ⟨[], .tooDeep⟩
  | n + 1, id => do
    let play := (← Blame.lift Expand.graph).play id
    match play.importTarget? with
    | some target =>
      let path := site.root.join target
      Blame.within ⟨play.origin, path.text⟩ do
        let playbook ← Blame.lift (Expand.load (loadPlaybook site (some play.origin) path))
        faultPlaybook site t n playbook
    | none => do
      let tasks ← concatEach (faultTask site t n) play.tasks
      let roles ← concatEach (fun role => faultRoleOn site t n role []) play.roles
      return tasks ++ roles

/-- The expansion of a playbook. -/
def faultPlaybook (site : Site) (t : Templater) : Nat → Playbook → Blame (List TaskId)
  | 0, _ => throw ⟨[], .tooDeep⟩
  | n + 1, playbook =>
    Blame.inside site (.file playbook.path) (concatEach (faultPlay site t n) playbook.plays)
end

/-! ## With every fault reported -/

namespace Blame

variable {α β : Type}

theorem report_run (x : Blame α) (e : Expansion) : (report x).run.run e = (match x.run.run e with
    | (.ok a, e') => (.ok a, e')
    | (.error f, e') => (.error (f.report e'.store.graph), e')) := by
  have hlift : (ExceptT.lift x.run : Expand (Except Fault α)).run.run e =
      (.ok (x.run.run e).1, (x.run.run e).2) := rfl
  unfold report
  rw [run_bind, hlift]
  rcases x.run.run e with ⟨_ | _, _⟩ <;> rfl

theorem within_run (opening : Opening) (x : Blame α) (e : Expansion) :
    (within opening x).run.run e = (match x.run.run e with
      | (.ok a, e') => (.ok a, e')
      | (.error f, e') => (.error { f with within := f.within ++ [opening] }, e')) := by
  rcases hx : x.run.run e with ⟨_ | _, _⟩
  all_goals
    show (match x.run.run e with | (r, e') => (r.mapError _, e')) = _
    rw [hx]; rfl

theorem report_lift (x : Expand α) : report (lift x) = x := by
  refine ExceptT.ext (StateT.ext fun e => ?_)
  have hlift : (lift x).run.run e = ((x.run.run e).1.mapError (Fault.mk []), (x.run.run e).2) := rfl
  rw [report_run, hlift]
  rcases x.run.run e with ⟨_ | _, _⟩ <;> rfl

theorem report_pure (a : α) : report (pure a) = pure a := rfl

theorem report_bind (x : Blame α) (f : α → Blame β) :
    report (x >>= f) = report x >>= fun a => report (f a) := by
  refine ExceptT.ext (StateT.ext fun e => ?_)
  rw [report_run, run_bind, run_bind, report_run]
  rcases x.run.run e with ⟨_ | _, _⟩
  · rfl
  · exact (report_run _ _).symm

theorem report_concatEach (f : α → Blame (List β)) (l : List α) :
    report (concatEach f l) = concatEach (fun a => report (f a)) l := by
  induction l with
  | nil => rfl
  | cons a l ih => simp only [concatEach, report_bind, report_pure, ih]

/-- **A fault while a directive is open** is reported as the failure of the directive. -/
theorem report_within (opening : Opening) (x : Blame α) : report (within opening x) = (do
    match ← Expand.attempt (report x) with
    | .ok a => return a
    | .error err => Expand.failed opening.origin opening.target err) := by
  refine ExceptT.ext (StateT.ext fun e => ?_)
  have hattempt : (Expand.attempt (report x)).run.run e =
      (.ok ((report x).run.run e).1, ((report x).run.run e).2) := rfl
  rw [report_run, within_run, run_bind, hattempt, report_run]
  rcases x.run.run e with ⟨f | a, e'⟩
  · obtain ⟨opened, cause⟩ := f
    -- if a directive is open inside, the fault is named after that one already
    cases opened with
    | nil => cases cause <;> rfl
    | cons inner outer => cases cause <;> rfl
  · rfl

/-- A step inside a target that reports its faults. -/
theorem report_inside (site : Site) (target : Target) (x : Blame α) :
    report (inside site target x) = (do
      match ← Expand.inside site target (report x) with
      | .ok a => return a
      | .error err => throw err) := by
  unfold inside Expand.inside
  simp only [report_bind, report_lift, bind_assoc]
  refine bind_congr fun _ => ExceptT.ext (StateT.ext fun e => ?_)
  -- to close the target leaves the graph that names the directives as it is
  have hleft : (report (ExceptT.lift x.run)).run.run e = (.ok (x.run.run e).1, (x.run.run e).2) :=
    rfl
  have hright : (Expand.attempt (report x)).run.run e =
      (.ok ((report x).run.run e).1, ((report x).run.run e).2) := rfl
  rw [run_bind, run_bind, hleft, hright, report_run]
  rcases x.run.run e with ⟨_ | _, _⟩ <;> rfl

/-- A target that cannot be entered closes a cycle. -/
theorem inside_error {site : Site} {target : Target} {x : Expand α} {e e' : Expansion}
    {err : ExpandError} (h : (Expand.inside site target x).run.run e = (.error err, e')) :
    ∃ chain, err = .cyclicInclude chain := by
  have hends : Ends (Expand.inside site target x) e (fun _ _ => True)
      fun err _ => ∃ chain, err = .cyclicInclude chain :=
    ends_entered (fun _ => ⟨_, rfl⟩) fun _ =>
      ends_iff.2 ⟨fun _ _ _ => trivial, fun _ _ _ => trivial⟩
  exact hends.of_error h

/-- A fault inside the target of a directive. -/
theorem report_target (opening : Opening) (site : Site) (target : Target) (x : Blame α) :
    report (within opening (inside site target x)) = (do
      match ← Expand.inside site target (report x) with
      | .ok a => return a
      | .error err => Expand.failed opening.origin opening.target err) := by
  rw [report_within, report_inside]
  refine ExceptT.ext (StateT.ext fun e => ?_)
  have hattempt : ∀ y : Expand α, (Expand.attempt y).run.run e =
      (.ok (y.run.run e).1, (y.run.run e).2) := fun _ => rfl
  rw [run_bind, hattempt, run_bind, run_bind]
  rcases hrun : (Expand.inside site target (report x)).run.run e with ⟨err | _ | _, e'⟩
  · obtain ⟨chain, rfl⟩ := inside_error hrun
    rfl
  · rfl
  · rfl

theorem failed_bind (origin : OriginId) (target : String) (err : ExpandError) (f : α → Expand β) :
    (Expand.failed origin target err >>= f) = Expand.failed origin target err := by
  cases err <;> rfl

end Blame

section Report

variable {site : Site} {t : Templater}

open Blame

theorem faultTaskInclude_report {fault : TaskId → Blame (List TaskId)}
    {expand : TaskId → Expand (List TaskId)} (h : ∀ x, report (fault x) = expand x) (id : TaskId)
    (action : String) :
    report (faultTaskInclude site t fault id action) =
      expandTaskInclude site t expand id action := by
  obtain rfl := funext h
  unfold faultTaskInclude expandTaskInclude
  simp only [report_bind, report_target, report_lift, report_concatEach, report_pure, bind_assoc]
  refine bind_congr fun g => ?_
  rw [report_within, report_lift, bind_assoc]
  refine bind_congr fun params => ?_
  cases params with
  | error e => exact failed_bind ..
  | ok params =>
    rw [pure_bind]
    refine bind_congr fun result => ?_
    cases result with
    | error e => exact failed_bind ..
    | ok tasks => rfl

theorem faultRoleInclude_report {fault : RoleId → Blame (List TaskId)}
    {expand : RoleId → Expand (List TaskId)} (h : ∀ r, report (fault r) = expand r) (id : TaskId)
    (action : String) :
    report (faultRoleInclude site t fault id action) =
      expandRoleInclude site t expand id action := by
  obtain rfl := funext h
  unfold faultRoleInclude expandRoleInclude
  simp only [report_bind, report_target, report_lift, report_pure, bind_assoc]
  refine bind_congr fun g => ?_
  rw [report_within, report_lift, bind_assoc]
  refine bind_congr fun params => ?_
  cases params with
  | error e => exact failed_bind ..
  | ok params =>
    rw [pure_bind]
    refine bind_congr fun g => bind_congr fun result => ?_
    cases result with
    | error e => exact failed_bind ..
    | ok tasks => rfl

mutual
/-- **With its faults reported, it is the expansion of the task.** -/
theorem faultTask_report :
    ∀ (n : Nat) (id : TaskId), report (faultTask site t n id) = expandTask site t n id
  | 0, _ => rfl
  | n + 1, id => by
    have ih := faultTask_report n
    unfold faultTask expandTask
    simp only [report_bind, report_lift]
    refine bind_congr fun g => ?_
    by_cases hb : (g.task id).isBlock
    · rw [if_pos hb, if_pos hb, report_concatEach]
      exact congrArg (concatEach · _) (funext ih)
    · rw [if_neg hb, if_neg hb]
      cases (g.task id).taskInclude? with
      | some action => exact faultTaskInclude_report ih id action
      | none =>
        cases (g.task id).roleInclude? with
        | some action =>
          exact faultRoleInclude_report (fun r => faultRoleOn_report n r []) id action
        | none => rfl

/-- **With its faults reported, it is the expansion of the role.** -/
theorem faultRoleOn_report : ∀ (n : Nat) (r : RoleId) (path : List String),
    report (faultRoleOn site t n r path) = expandRoleOn site t n r path
  | 0, _, _ => rfl
  | n + 1, r, path => by
    unfold faultRoleOn expandRoleOn
    simp only [report_bind, report_lift, report_concatEach, report_pure, faultTask_report n,
      faultRoleOn_report n]
end

mutual
/-- **With its faults reported, it is the expansion of the play.** -/
theorem faultPlay_report :
    ∀ (n : Nat) (p : PlayId), report (faultPlay site t n p) = expandPlay site t n p
  | 0, _ => rfl
  | n + 1, p => by
    unfold faultPlay expandPlay expandRole
    simp only [report_bind, report_lift]
    refine bind_congr fun g => ?_
    cases (g.play p).importTarget? with
    | some target =>
      simp only [report_within, report_bind, report_lift, faultPlaybook_report n]
      refine bind_congr fun result => ?_
      cases result <;> rfl
    | none =>
      simp only [report_bind, report_concatEach, report_pure, faultTask_report, faultRoleOn_report]

/-- **With its faults reported, it is the expansion of the playbook.** -/
theorem faultPlaybook_report : ∀ (n : Nat) (playbook : Playbook),
    report (faultPlaybook site t n playbook) = expandPlaybook site t n playbook
  | 0, _ => rfl
  | n + 1, playbook => by
    unfold faultPlaybook expandPlaybook
    simp only [report_inside, report_concatEach, faultPlay_report n]
    refine bind_congr fun result => ?_
    cases result <;> rfl
end

end Report

end Runlist
