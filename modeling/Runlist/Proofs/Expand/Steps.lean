import Runlist.Proofs.Step

/-!
# One step of an expansion

What the functions of expansion do, said once for each of them. Proofs about expansions go by these
rules, and never by the definitions.

* `Task.Directive`: a task that includes something, by which action. `Task.cases`: how a task is
  expanded.
* `expandDirective`: what a directive does, whatever it includes.
* `run_expandTask_block`, `run_expandTaskInclude` and the like: **a step from a state**, as another
  step from it.
* `ends_expandTask`, `ends_expandRoleOn`, `ends_expandPlay`, `ends_expandPlaybook`: **where a step
  ends**, by the steps that it is made of.
-/

namespace Runlist

variable {site : Site} {t : Templater} {e : Expansion} {n : Nat} {x : TaskId}
  {r : RoleId} {p : PlayId}
  {action : String}

/-! ## Kinds of tasks -/

/-- **A directive**: the task includes a file of tasks, or a role, by an action. -/
inductive Task.Directive (x : Task) : TaskKind → String → Prop
  | file {action : String} : x.block = [] → x.taskInclude? = some action →
      x.Directive .taskInclude action
  | role {action : String} : x.block = [] → x.taskInclude? = none → x.roleInclude? = some action →
      x.Directive .roleInclude action

namespace Task

variable {task : Task} {kind : TaskKind}

theorem isBlock_eq_false : task.isBlock = false ↔ task.block = [] := by
  rw [isBlock, Bool.not_eq_false', List.isEmpty_iff]

theorem Directive.block (h : task.Directive kind action) : task.block = [] := by
  cases h <;> assumption

theorem Directive.kind_eq (h : task.Directive kind action) : task.kind = kind := by
  have hblock := isBlock_eq_false.2 h.block
  cases h with
  | file _ ha => rw [Task.kind, hblock, ha]; rfl
  | role _ hn ha => rw [Task.kind, hblock, hn, ha]; rfl

/-- It neither wraps tasks nor declares a directive. -/
theorem kind_leaf (h : task.kind = .leaf) :
    task.isBlock = false ∧ task.taskInclude? = none ∧ task.roleInclude? = none := by
  unfold Task.kind at h
  split at h
  · cases h
  · rename_i hblock
    split at h
    · cases h
    · rename_i htasks
      split at h
      · cases h
      · rename_i hrole
        exact ⟨Bool.eq_false_iff.2 hblock, Option.not_isSome_iff_eq_none.1 htasks,
          Option.not_isSome_iff_eq_none.1 hrole⟩

/-- Such a task is a leaf. -/
theorem leaf_of_none (hb : task.block = []) (ht : task.taskInclude? = none)
    (hr : task.roleInclude? = none) : task.kind = .leaf := by
  rw [Task.kind, isBlock_eq_false.2 hb, ht, hr]
  rfl

/-- **How a task is expanded**: it wraps tasks, it includes something, or it stands for itself. -/
theorem cases (task : Task) : task.isBlock = true ∨ (∃ action, task.Directive .taskInclude action) ∨
    (∃ action, task.Directive .roleInclude action) ∨ task.kind = .leaf := by
  cases hb : task.isBlock with
  | true => exact .inl rfl
  | false =>
    have hblock := isBlock_eq_false.1 hb
    cases ha : task.taskInclude? with
    | some action => exact .inr (.inl ⟨action, .file hblock ha⟩)
    | none =>
      cases hr : task.roleInclude? with
      | some action => exact .inr (.inr (.inl ⟨action, .role hblock ha hr⟩))
      | none => exact .inr (.inr (.inr (leaf_of_none hblock ha hr)))

end Task

/-! ## States -/

namespace Expansion

/-- A target is entered. -/
def enter (site : Site) (e : Expansion) (target : Target) : Expansion :=
  { e with opened := e.opened ++ [target.key site.disk] }

/-- The target that was entered last is closed. -/
def close (e : Expansion) : Expansion := { e with opened := e.opened.dropLast }

/-- A directive adopts tasks. -/
def adopt (e : Expansion) (ids : List TaskId) (x : TaskId) : Expansion :=
  { e with store := { e.store with graph := e.store.graph.adopt ids x } }

end Expansion

/-! ## Steps from a state -/

section Run

variable {ε σ α β : Type}

/-- Two steps that are the same from a state end there alike. -/
theorem ends_congr {y z : ExceptT ε (StateM σ) α} {s : σ} {Q : α → σ → Prop} {E : ε → σ → Prop}
    (h : y.run.run s = z.run.run s) : Ends y s Q E ↔ Ends z s Q E := by
  unfold Ends
  rw [h]

/-- To look at the graph leaves the state as it is. -/
theorem run_graph (f : Graph → Expand α) :
    (Expand.graph >>= f).run.run e = (f e.store.graph).run.run e := rfl

/-- What follows on a step is the same if it is the same from every state in which the step may
end. -/
theorem run_bind_congr {y : ExceptT ε (StateM σ) α} {f g : α → ExceptT ε (StateM σ) β} {s : σ}
    (h : ∀ a s', (f a).run.run s' = (g a).run.run s') :
    (y >>= f).run.run s = (y >>= g).run.run s := by
  rw [run_bind, run_bind]
  rcases y.run.run s with ⟨_ | a, s'⟩
  · rfl
  · exact h a s'

variable (site t n) in
/-- A block is expanded to what its tasks are expanded to. -/
theorem run_expandTask_block (hb : (e.store.graph.task x).isBlock = true) :
    (expandTask site t (n + 1) x).run.run e =
      (concatEach (expandTask site t n) (e.store.graph.task x).block).run.run e := by
  rw [expandTask, run_graph]
  dsimp only
  rw [if_pos hb]

variable (site t n) in
/-- A task that includes a file is expanded as such. -/
theorem run_expandTask_file (hd : (e.store.graph.task x).Directive .taskInclude action) :
    (expandTask site t (n + 1) x).run.run e =
      (expandTaskInclude site t (expandTask site t n) x action).run.run e := by
  have hblock := Task.isBlock_eq_false.2 hd.block
  cases hd with
  | file _ ha =>
    rw [expandTask, run_graph]
    dsimp only
    rw [hblock, ha]
    rfl

variable (site t n) in
/-- A task that includes a role is expanded as such. -/
theorem run_expandTask_role (hd : (e.store.graph.task x).Directive .roleInclude action) :
    (expandTask site t (n + 1) x).run.run e =
      (expandRoleInclude site t (fun role => expandRoleOn site t n role []) x action).run.run
        e := by
  have hblock := Task.isBlock_eq_false.2 hd.block
  cases hd with
  | role _ hn ha =>
    rw [expandTask, run_graph]
    dsimp only
    rw [hblock, hn, ha]
    rfl

variable (site t n) in
/-- Every other task is expanded to itself. -/
theorem run_expandTask_leaf (hk : (e.store.graph.task x).kind = .leaf) :
    (expandTask site t (n + 1) x).run.run e = (.ok [x], e) := by
  obtain ⟨hblock, hn, hr⟩ := Task.kind_leaf hk
  rw [expandTask, run_graph]
  dsimp only
  rw [hblock, hn, hr]
  rfl

/-- **What a directive does**, whatever it includes: its parameters are read, the target that they
name is entered for a step, and what that gives is adopted. The step sees the graph that the reading
has left. -/
def expandDirective (site : Site) (x : TaskId) (origin : OriginId) (action : String)
    (params : Expand α) (target : α → Target) (text : α → String)
    (step : α → Graph → Expand (List TaskId)) : Expand (List TaskId) := do
  match ← Expand.attempt params with
  | .error err => Expand.failed origin action err
  | .ok p =>
    let g ← Expand.graph
    let result ← Expand.inside site (target p) (step p g)
    finishInclude x origin (text p) result

/-- The file that a directive includes is beside its own; each of the tasks in it is expanded. -/
theorem run_expandTaskInclude (site : Site) (t : Templater) (expand : TaskId → Expand (List TaskId))
    (x : TaskId) (action : String) (e : Expansion) :
    let task := e.store.graph.task x
    let path := fun p : TaskInclude => (e.store.graph.taskPath x).directory.join p.file
    (expandTaskInclude site t expand x action).run.run e =
      (expandDirective site x task.origin action
        (includeParams site t TaskInclude.ofJson "file" x action)
        (fun p => .file (path p)) (fun p => (path p).text) fun p _ => do
          concatEach expand
            (← Expand.load
              (loadTasksIn site (some task.origin) task.role task.play (path p)))).run.run
        e := by
  dsimp only
  rw [expandTaskInclude, run_graph, expandDirective]
  refine run_bind_congr fun params e₁ => ?_
  cases params with
  | error err => rfl
  | ok p => rfl

/-- The role that a directive includes stands in the play of the directive. -/
theorem run_expandRoleInclude (site : Site) (t : Templater) (expand : RoleId → Expand (List TaskId))
    (x : TaskId) (action : String) (e : Expansion) :
    let origin := (e.store.graph.task x).origin
    (expandRoleInclude site t expand x action).run.run e =
      (expandDirective site x origin action
        (includeParams site t RoleInclude.ofJson "name" x action)
        (fun p => .role p.name p.selection.tasksFile) (fun p => "role " ++ p.name) fun p g => do
          expand (← Expand.load
            (loadRoleWith site (some origin) (g.taskPlay x) p.name p.selection))).run.run e := by
  dsimp only
  rw [expandRoleInclude, run_graph, expandDirective]
  refine run_bind_congr fun params e₁ => ?_
  cases params with
  | error err => rfl
  | ok p => rfl

end Run

/-! ## Where steps end -/

section Rules

variable {Q : List TaskId → Expansion → Prop} {E : ExpandError → Expansion → Prop}

@[simp]
theorem ends_expandTask_zero : Ends (expandTask site t 0 x) e Q E ↔ E .tooDeep e := by
  rw [expandTask, ends_throw]

@[simp]
theorem ends_expandRoleOn_zero {path : List String} :
    Ends (expandRoleOn site t 0 r path) e Q E ↔ E .tooDeep e := by
  rw [expandRoleOn, ends_throw]

@[simp]
theorem ends_expandPlay_zero : Ends (expandPlay site t 0 p) e Q E ↔ E .tooDeep e := by
  rw [expandPlay, ends_throw]

@[simp]
theorem ends_expandPlaybook_zero {pb : Playbook} :
    Ends (expandPlaybook site t 0 pb) e Q E ↔ E .tooDeep e := by
  rw [expandPlaybook, ends_throw]

/-- **The expansion of a task**, by how it is expanded. -/
theorem ends_expandTask
    (block : (e.store.graph.task x).isBlock = true →
      Ends (concatEach (expandTask site t n) (e.store.graph.task x).block) e Q E)
    (file : ∀ action, (e.store.graph.task x).Directive .taskInclude action →
      Ends (expandTaskInclude site t (expandTask site t n) x action) e Q E)
    (role : ∀ action, (e.store.graph.task x).Directive .roleInclude action →
      Ends (expandRoleInclude site t (fun role => expandRoleOn site t n role []) x action) e Q E)
    (leaf : (e.store.graph.task x).kind = .leaf → Q [x] e) :
    Ends (expandTask site t (n + 1) x) e Q E := by
  rcases (e.store.graph.task x).cases with hb | ⟨action, hd⟩ | ⟨action, hd⟩ | hk
  · exact (ends_congr (run_expandTask_block site t n hb)).2 (block hb)
  · exact (ends_congr (run_expandTask_file site t n hd)).2 (file action hd)
  · exact (ends_congr (run_expandTask_role site t n hd)).2 (role action hd)
  · exact ends_of_ok (run_expandTask_leaf site t n hk) (leaf hk)

section Directive

variable {α : Type} {origin : OriginId} {params : Expand α} {target : α → Target}
  {text : α → String}
  {step : α → Graph → Expand (List TaskId)}

/-- **A directive fails** for its parameters, for a target that is open already, or in its target;
otherwise what the target gives is adopted. -/
theorem ends_expandDirective
    (h : Ends params e
      (fun p e₁ =>
        ((target p).key site.disk ∈ e₁.opened →
          E (.cyclicInclude (cycleOf e₁.opened ((target p).key site.disk))) e₁) ∧
        ((target p).key site.disk ∉ e₁.opened →
          Ends (step p e₁.store.graph) (e₁.enter site (target p))
            (fun ids e₂ => Q ids (e₂.close.adopt ids x))
            fun err e₂ => Ends (Expand.failed origin (text p) err) e₂.close Q E))
      fun err e₁ => Ends (Expand.failed origin action err) e₁ Q E) :
    Ends (expandDirective site x origin action params target text step) e Q E := by
  unfold expandDirective
  rw [ends_bind, ends_attempt]
  refine h.mono (fun p e₁ h₁ => ?_) fun _ _ h => h
  dsimp only
  rw [ends_bind, ends_expand_graph, ends_bind]
  -- however the step ends, the target is closed before the directive answers
  refine ends_entered h₁.1 fun hclosed => (h₁.2 hclosed).mono (fun ids e₂ h₂ => ?_) fun _ _ h => h
  unfold finishInclude
  simp only [ends_bind, ends_load, ends_update, ends_pure]
  exact h₂

/-- The same where failures say nothing. -/
theorem ends_expandDirective_ok (hE : ∀ err e', E err e')
    (h : Ends params e
      (fun p e₁ => Ends (step p e₁.store.graph) (e₁.enter site (target p))
        (fun ids e₂ => Q ids (e₂.close.adopt ids x)) fun _ _ => True) fun _ _ => True) :
    Ends (expandDirective site x origin action params target text step) e Q E :=
  ends_expandDirective (h.mono (fun _ _ h₁ => ⟨fun _ => hE _ _, fun _ =>
    h₁.mono (fun _ _ h => h) fun _ _ _ => ends_failed fun _ => hE _ _⟩) fun _ _ _ =>
      ends_failed fun _ => hE _ _)

end Directive

/-- **The expansion of a role**: its name is entered; its dependencies are loaded and expanded, and
then its own tasks are, which are looked up last. -/
theorem ends_expandRoleOn {path : List String}
    (entered : ∀ path', enterDependency e.store.graph r path = .ok path' → Ends (do
        let direct ← Expand.load (directDependencies site r)
        let below ← concatEach (fun dep => expandRoleOn site t n dep path') direct
        let own ← concatEach (expandTask site t n) ((← Expand.graph).role r).tasks
        return below ++ own) e Q E)
    (met : ∀ err, enterDependency e.store.graph r path = .error err → E (.load err) e) :
    Ends (expandRoleOn site t (n + 1) r path) e Q E := by
  rw [expandRoleOn, ends_bind, ends_expand_graph, ends_bind, ends_load, ends_ofExcept]
  exact ⟨entered, met⟩

/-- **The expansion of a play**: the playbook that it imports, or else its tasks and then its
roles. -/
theorem ends_expandPlay
    (imported : ∀ target, (e.store.graph.play p).importTarget? = some target →
      Ends (do expandPlaybook site t n (← Expand.load
          (loadPlaybook site (some (e.store.graph.play p).origin) (site.root.join target)))) e Q
        fun err e₁ =>
          Ends (Expand.failed (e.store.graph.play p).origin (site.root.join target).text err) e₁ Q
            E)
    (own : (e.store.graph.play p).importTarget? = none →
      Ends (do return (← concatEach (expandTask site t n) (e.store.graph.play p).tasks) ++
        (← concatEach (expandRole site t n) (e.store.graph.play p).roles)) e Q E) :
    Ends (expandPlay site t (n + 1) p) e Q E := by
  rw [expandPlay, ends_bind, ends_expand_graph]
  dsimp only
  cases htarget : (e.store.graph.play p).importTarget? with
  | some target =>
    dsimp only
    rw [ends_bind, ends_attempt]
    exact (imported target htarget).mono (fun _ _ h => h) fun _ _ h => h
  | none => exact own htarget

/-- **The expansion of a playbook**: its plays, inside of its file. -/
theorem ends_expandPlaybook {pb : Playbook}
    (hopen : (Target.file pb.path).key site.disk ∈ e.opened →
      E (.cyclicInclude (cycleOf e.opened ((Target.file pb.path).key site.disk))) e)
    (hclosed : (Target.file pb.path).key site.disk ∉ e.opened →
      Ends (concatEach (expandPlay site t n) pb.plays) (e.enter site (.file pb.path))
        (fun ids e₁ => Q ids e₁.close)
        fun err e₁ => E err e₁.close) : Ends (expandPlaybook site t (n + 1) pb) e Q E := by
  rw [expandPlaybook, ends_bind]
  exact ends_entered hopen fun h => (hclosed h).mono (fun _ _ h => h) fun _ _ h => h

end Rules

end Runlist
