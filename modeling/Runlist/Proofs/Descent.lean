import Runlist.Proofs.Discovery
import Runlist.Proofs.Expand.Include
import Runlist.Proofs.Expand.Steps
import Runlist.Proofs.Loops

/-!
# Ways down an expansion

What is expanded is expanded inside of something else, in the state that everything before it has
left. A way down leads from one to the next; the targets that are entered on it are those that are
open at its end.

* `Stage`: what is expanded. `Turn`: the turn of one of several that are expanded one after the
  other.
* `Stage.Opens`: a stage asks for a target: a directive for its file or its role, a playbook for its
  own file.
* `Stage.Leads`: a stage is expanded inside another one, in a target that is entered for it or in
  none.
* `Descends`: a way down. `Descends.opened`: **what is open at its end is what was entered on it.**
* `Stage.reports`: **a cycle is reported at the end of a way down**, where a target that is open is
  asked for.
-/

namespace Runlist

variable {site : Site} {t : Templater} {e e₁ e₂ e₃ : Expansion} {chain : List String}

/-! ## Stages -/

/-- **What is expanded**, with a bound on what is nested in it; a role with the path of dependencies
that leads to it. -/
inductive Stage where
  | task (n : Nat) (x : TaskId)
  | role (n : Nat) (r : RoleId) (path : List String)
  | play (n : Nat) (p : PlayId)
  | playbook (n : Nat) (pb : Playbook)

/-- The expansion of a stage. -/
def Stage.expand (site : Site) (t : Templater) : Stage → Expand (List TaskId)
  | task n x => expandTask site t n x
  | role n r path => expandRoleOn site t n r path
  | play n p => expandPlay site t n p
  | playbook n pb => expandPlaybook site t n pb

/-- **The turn of a stage**, of several that are expanded one after the other: those in front of it
have succeeded. -/
def Turn (site : Site) (t : Templater) (stages : List Stage) (e : Expansion) (stage : Stage)
    (e₁ : Expansion) : Prop :=
  ∃ front back ids, stages = front ++ stage :: back ∧
    (concatEach (Stage.expand site t) front).run.run e = (.ok ids, e₁)

/-- What fails in a list of stages fails in the turn of one of them. -/
theorem ends_turns {stages : List Stage} {E : ExpandError → Expansion → Prop}
    (h : ∀ stage e₁, Turn site t stages e stage e₁ →
      Ends (stage.expand site t) e₁ (fun _ _ => True) E) :
    Ends (concatEach (Stage.expand site t) stages) e (fun _ _ => True) E := by
  induction stages generalizing e with
  | nil => exact trivial
  | cons stage stages ih =>
    rw [concatEach, ends_bind]
    refine ((h stage e ⟨[], stages, [], rfl, rfl⟩).and (Ends.run _ e)).mono ?_ fun _ _ h => h.1
    rintro first e₁ ⟨-, hfirst⟩
    rw [ends_bind]
    refine (ih fun later e₂ hturn => h later e₂ ?_).mono (fun _ _ _ => trivial) fun _ _ h => h
    obtain ⟨front, back, ids, rfl, hfront⟩ := hturn
    refine ⟨stage :: front, back, first ++ ids, rfl, ?_⟩
    rw [concatEach, run_bind, hfirst]
    dsimp only
    rw [run_bind, hfront]
    rfl

/-! ## Ways down -/

/-- A task includes a file of tasks, and its parameters can be read. -/
structure AsksFile (site : Site) (t : Templater) (e : Expansion) (x : TaskId) (path : FilePath)
    (e₁ : Expansion) : Prop where
  plain : (e.store.graph.task x).isBlock = false
  reads : ∃ action params, (e.store.graph.task x).taskInclude? = some action ∧
    (includeParams site t TaskInclude.ofJson "file" x action).run.run e = (.ok params, e₁) ∧
    path = (e.store.graph.taskPath x).directory.join params.file

/-- A task includes a role, and its parameters can be read. -/
structure AsksRole (site : Site) (t : Templater) (e : Expansion) (x : TaskId) (params : RoleInclude)
    (e₁ : Expansion) : Prop where
  plain : (e.store.graph.task x).isBlock = false
  noFile : (e.store.graph.task x).taskInclude? = none
  reads : ∃ action, (e.store.graph.task x).roleInclude? = some action ∧
    (includeParams site t RoleInclude.ofJson "name" x action).run.run e = (.ok params, e₁)

/-- **A stage asks for a target**: a directive for its file or its role, and a playbook for its own
file. -/
inductive Stage.Opens (site : Site) (t : Templater) : Stage → Expansion → Target → Expansion → Prop
  | file {n : Nat} {x : TaskId} {path : FilePath} {e e₁ : Expansion} : AsksFile site t e x path e₁ →
      Stage.Opens site t (.task (n + 1) x) e (.file path) e₁
  | role {n : Nat} {x : TaskId} {params : RoleInclude} {e e₁ : Expansion} :
      AsksRole site t e x params e₁ →
      Stage.Opens site t (.task (n + 1) x) e (.role params.name params.selection.tasksFile) e₁
  | playbook {n : Nat} {pb : Playbook} {e : Expansion} :
      Stage.Opens site t (.playbook (n + 1) pb) e (.file pb.path) e

/-- **A stage is expanded inside another one**, in a target that is entered for it or in none. -/
inductive Stage.Leads (site : Site) (t : Templater) :
    Stage → Expansion → Option Target → Stage → Expansion → Prop
  | block {n : Nat} {x : TaskId} {inner : Stage} {e e₁ : Expansion} :
      (e.store.graph.task x).isBlock = true →
      Turn site t ((e.store.graph.task x).block.map (.task n)) e inner e₁ →
      Stage.Leads site t (.task (n + 1) x) e none inner e₁
  | file {n : Nat} {x : TaskId} {path : FilePath} {xs : List TaskId} {inner : Stage}
      {e e₁ e₂ e₃ : Expansion} :
      AsksFile site t e x path e₁ → (Target.file path).key site.disk ∉ e₁.opened →
      (Expand.load (loadTasksIn site (some (e.store.graph.task x).origin)
        (e.store.graph.task x).role
        (e.store.graph.task x).play path)).run.run (e₁.enter site (.file path)) = (.ok xs, e₂) →
      Turn site t (xs.map (.task n)) e₂ inner e₃ →
      Stage.Leads site t (.task (n + 1) x) e (some (.file path)) inner e₃
  | role {n : Nat} {x : TaskId} {params : RoleInclude} {r : RoleId} {e e₁ e₂ : Expansion} :
      AsksRole site t e x params e₁ →
      (Target.role params.name params.selection.tasksFile).key site.disk ∉ e₁.opened →
      (Expand.load (loadRoleWith site (some (e.store.graph.task x).origin)
        (e₁.store.graph.taskPlay x) params.name
        params.selection)).run.run (e₁.enter site (.role params.name params.selection.tasksFile)) =
          (.ok r, e₂) →
      Stage.Leads site t (.task (n + 1) x) e (some (.role params.name params.selection.tasksFile))
        (.role n r []) e₂
  | dependency {n : Nat} {r : RoleId} {path path' : List String} {direct : List RoleId}
      {inner : Stage}
      {e e₁ e₂ : Expansion} : enterDependency e.store.graph r path = .ok path' →
      (Expand.load (directDependencies site r)).run.run e = (.ok direct, e₁) →
      Turn site t (direct.map fun d => .role n d path') e₁ inner e₂ →
      Stage.Leads site t (.role (n + 1) r path) e none inner e₂
  | ofRole {n : Nat} {r : RoleId} {path path' : List String} {direct : List RoleId}
      {below : List TaskId}
      {inner : Stage} {e e₁ e₂ e₃ : Expansion} : enterDependency e.store.graph r path = .ok path' →
      (Expand.load (directDependencies site r)).run.run e = (.ok direct, e₁) →
      (concatEach (fun d => expandRoleOn site t n d path') direct).run.run e₁ = (.ok below, e₂) →
      Turn site t ((e₂.store.graph.role r).tasks.map (.task n)) e₂ inner e₃ →
      Stage.Leads site t (.role (n + 1) r path) e none inner e₃
  | ofPlay {n : Nat} {p : PlayId} {inner : Stage} {e e₁ : Expansion} :
      (e.store.graph.play p).importTarget? = none →
      Turn site t ((e.store.graph.play p).tasks.map (.task n)) e inner e₁ →
      Stage.Leads site t (.play (n + 1) p) e none inner e₁
  | listed {n : Nat} {p : PlayId} {tasks : List TaskId} {inner : Stage} {e e₁ e₂ : Expansion} :
      (e.store.graph.play p).importTarget? = none →
      (concatEach (expandTask site t n) (e.store.graph.play p).tasks).run.run e = (.ok tasks, e₁) →
      Turn site t ((e.store.graph.play p).roles.map fun r => .role n r []) e₁ inner e₂ →
      Stage.Leads site t (.play (n + 1) p) e none inner e₂
  | imported {n : Nat} {p : PlayId} {target : String} {pb : Playbook} {e e₁ : Expansion} :
      (e.store.graph.play p).importTarget? = some target →
      (Expand.load (loadPlaybook site (some (e.store.graph.play p).origin)
        (site.root.join target))).run.run e =
        (.ok pb, e₁) →
      Stage.Leads site t (.play (n + 1) p) e none (.playbook n pb) e₁
  | play {n : Nat} {pb : Playbook} {inner : Stage} {e e₁ : Expansion} :
      (Target.file pb.path).key site.disk ∉ e.opened →
      Turn site t (pb.plays.map (.play n)) (e.enter site (.file pb.path)) inner e₁ →
      Stage.Leads site t (.playbook (n + 1) pb) e (some (.file pb.path)) inner e₁

/-- **A way down** from a stage, with the targets that are entered on it, outermost first. -/
inductive Descends (site : Site) (t : Templater) :
    Stage → Expansion → List Target → Stage → Expansion → Prop
  | here {stage : Stage} {e : Expansion} : Descends site t stage e [] stage e
  | pass {stage inner last : Stage} {targets : List Target} {e e₁ e₂ : Expansion} :
      Stage.Leads site t stage e none inner e₁ → Descends site t inner e₁ targets last e₂ →
      Descends site t stage e targets last e₂
  | enter {stage inner last : Stage} {target : Target} {targets : List Target}
      {e e₁ e₂ : Expansion} :
      Stage.Leads site t stage e (some target) inner e₁ → Descends site t inner e₁ targets last e₂ →
      Descends site t stage e (target :: targets) last e₂

/-! ## What is open -/

section Opened

variable {stage inner last : Stage} {target : Target} {targets : List Target}

/-- What is open stays so. -/
theorem opened_of_run {α : Type} {x : Expand α} (h : Along (Expansion.On (Discovers site)) x)
    {r : Except ExpandError α} (hrun : x.run.run e = (r, e₁)) : e₁.opened = e.opened := by
  have hstate := (h e).state (fun _ _ h => h) fun _ _ h => h
  rw [hrun] at hstate
  exact hstate.2

theorem opened_load {α : Type} {x : Load α} {r : Except ExpandError α}
    (hrun : (Expand.load x).run.run e = (r, e₁)) : e₁.opened = e.opened := by
  have hends : Ends (Expand.load x) e (fun _ e' => e'.opened = e.opened) fun _ e' =>
    e'.opened = e.opened :=
    ends_load.2 (ends_iff.2 ⟨fun _ _ _ => rfl, fun _ _ _ => rfl⟩)
  have hstate := hends.state (fun _ _ h => h) fun _ _ h => h
  rw [hrun] at hstate
  exact hstate

theorem along_stage (site : Site) (t : Templater) (stage : Stage) :
    Along (Expansion.On (Discovers site)) (stage.expand site t) := by
  cases stage with
  | task n x => exact (steady_discovers site).expandTask n x
  | role n r path => exact (steady_discovers site).expandRoleOn n r path
  | play n p => exact (steady_discovers site).expandPlay n p
  | playbook n pb => exact (steady_discovers site).expandPlaybook n pb

theorem Turn.opened {stages : List Stage} (h : Turn site t stages e stage e₁) :
    e₁.opened = e.opened := by
  obtain ⟨front, back, ids, -, hrun⟩ := h
  exact opened_of_run (.concatEach (along_stage site t) front) hrun

theorem AsksFile.opened {x : TaskId} {path : FilePath} (h : AsksFile site t e x path e₁) :
    e₁.opened = e.opened := by
  obtain ⟨action, params, -, hrun, -⟩ := h.reads
  exact opened_of_run ((steady_discovers site).includeParams x action) hrun

theorem AsksRole.opened {x : TaskId} {params : RoleInclude} (h : AsksRole site t e x params e₁) :
    e₁.opened = e.opened := by
  obtain ⟨action, -, hrun⟩ := h.reads
  exact opened_of_run ((steady_discovers site).includeParams x action) hrun

theorem Stage.Opens.opened (h : stage.Opens site t e target e₁) : e₁.opened = e.opened := by
  cases h with
  | file hasks => exact hasks.opened
  | role hasks => exact hasks.opened
  | playbook => rfl

/-- **One more target is open**, if one is entered. -/
theorem Stage.Leads.opened {entered : Option Target} (h : stage.Leads site t e entered inner e₁) :
    e₁.opened = e.opened ++ entered.toList.map (Target.key site.disk) ∧
      ∀ target, entered = some target → target.key site.disk ∉ e.opened := by
  cases h with
  | block _ hturn => exact ⟨by rw [hturn.opened]; simp, by rintro _ ⟨⟩⟩
  | file hasks hclosed hload hturn =>
    rw [hasks.opened] at hclosed
    refine ⟨?_, by rintro _ ⟨⟩; exact hclosed⟩
    rw [hturn.opened, opened_load hload]
    exact congrArg (· ++ _) hasks.opened
  | role hasks hclosed hload =>
    rw [hasks.opened] at hclosed
    refine ⟨?_, by rintro _ ⟨⟩; exact hclosed⟩
    rw [opened_load hload]
    exact congrArg (· ++ _) hasks.opened
  | dependency _ hload hturn =>
    exact ⟨by rw [hturn.opened, opened_load hload]; simp, by rintro _ ⟨⟩⟩
  | ofRole _ hload hbelow hturn =>
    refine ⟨?_, by rintro _ ⟨⟩⟩
    rw [hturn.opened,
      opened_of_run (.concatEach (fun d => (steady_discovers site).expandRoleOn _ d _) _) hbelow,
      opened_load hload]
    simp
  | ofPlay _ hturn => exact ⟨by rw [hturn.opened]; simp, by rintro _ ⟨⟩⟩
  | listed _ htasks hturn =>
    refine ⟨?_, by rintro _ ⟨⟩⟩
    rw [hturn.opened, opened_of_run (.concatEach ((steady_discovers site).expandTask _) _) htasks]
    simp
  | imported _ hload => exact ⟨by rw [opened_load hload]; simp, by rintro _ ⟨⟩⟩
  | play hclosed hturn => exact ⟨by rw [hturn.opened]; rfl, by rintro _ ⟨⟩; exact hclosed⟩

/-- **What is open at the end of a way down** is what was open before, and what was entered on the
way. -/
theorem Descends.opened (h : Descends site t stage e targets last e₁) :
    e₁.opened = e.opened ++ targets.map (Target.key site.disk) := by
  induction h with
  | here => simp
  | pass hleads _ ih => rw [ih, hleads.opened.1]; simp
  | enter hleads _ ih => rw [ih, hleads.opened.1]; simp

/-- No target is entered while it is open. -/
theorem Descends.nodup (h : Descends site t stage e targets last e₁) (hopened : e.opened.Nodup) :
    e₁.opened.Nodup := by
  induction h with
  | here => exact hopened
  | pass hleads _ ih => exact ih (by rw [hleads.opened.1]; simpa using hopened)
  | enter hleads _ ih =>
    refine ih ?_
    obtain ⟨heq, hnot⟩ := hleads.opened
    rw [heq]
    exact List.concat_eq_append ▸ hopened.concat (hnot _ rfl)

/-- **A target that was entered on a way down** was entered for a stage, by another one. -/
theorem Descends.split {before between : List Target} {first : Target}
    (h : Descends site t stage e (before ++ first :: between) last e₁) :
    ∃ outer e₂ inner e₃, Descends site t stage e before outer e₂ ∧
      outer.Leads site t e₂ (some first) inner e₃ ∧
      Descends site t inner e₃ between last e₁ := by
  generalize htargets : before ++ first :: between = targets at h
  induction h generalizing before with
  | here => simp at htargets
  | pass hleads _ ih =>
    obtain ⟨outer, e₂, inner, e₃, hdown, hrest⟩ := ih htargets
    exact ⟨outer, e₂, inner, e₃, .pass hleads hdown, hrest⟩
  | enter hleads hbelow ih =>
    cases before with
    | nil =>
      cases htargets
      exact ⟨_, _, _, _, .here, hleads, hbelow⟩
    | cons target before =>
      cases htargets
      obtain ⟨outer, e₂, inner, e₃, hdown, hrest⟩ := ih rfl
      exact ⟨outer, e₂, inner, e₃, .enter hleads hdown, hrest⟩

end Opened

/-! ## Cycles that are reported -/

/-- **A target is entered again** below a stage: at the end of a way down, a target is asked for
whose key is open. -/
def Reenters (site : Site) (t : Templater) (stage : Stage) (e : Expansion)
    (chain : List String) : Prop :=
  ∃ targets last e₁ target e₂, Descends site t stage e targets last e₁ ∧
    last.Opens site t e₁ target e₂ ∧
    target.key site.disk ∈ e₁.opened ∧ chain = cycleOf e₁.opened (target.key site.disk)

namespace Reenters

variable {stage inner : Stage} {target : Target}

theorem here (hopens : stage.Opens site t e target e₁) (hopen : target.key site.disk ∈ e₁.opened) :
    Reenters site t stage e (cycleOf e₁.opened (target.key site.disk)) := by
  rw [hopens.opened] at hopen ⊢
  exact ⟨[], stage, e, target, e₁, .here, hopens, hopen, rfl⟩

theorem below {entered : Option Target} (hleads : stage.Leads site t e entered inner e₁)
    (h : Reenters site t inner e₁ chain) : Reenters site t stage e chain := by
  obtain ⟨targets, last, e₂, target, e₃, hdown, hrest⟩ := h
  cases entered with
  | none => exact ⟨targets, last, e₂, target, e₃, .pass hleads hdown, hrest⟩
  | some first => exact ⟨first :: targets, last, e₂, target, e₃, .enter hleads hdown, hrest⟩

end Reenters

/-- **A cycle that is reported is at the end of a way down** from a stage. -/
def Stage.Reports (site : Site) (t : Templater) (stage : Stage) (e : Expansion) : Prop :=
  Ends (stage.expand site t) e (fun _ _ => True)
    fun err _ => ∀ chain, err = .cyclicInclude chain → Reenters site t stage e chain

section Reports

variable {stage : Stage} {x : TaskId} {α : Type}

/-- What stages report in their turns is reported by the stage around them. -/
theorem ends_inner {β : Type} {f : β → Stage} {l : List β} {entered : Option Target}
    (hleads : ∀ inner e₂, Turn site t (l.map f) e₁ inner e₂ → stage.Leads site t e entered inner e₂)
    (h : ∀ b e₂, (f b).Reports site t e₂) :
    Ends (concatEach (fun b => (f b).expand site t) l) e₁ (fun _ _ => True)
      fun err _ => ∀ chain, err = .cyclicInclude chain → Reenters site t stage e chain := by
  rw [← concatEach_of_map (Stage.expand site t) f]
  refine ends_turns fun inner e₂ hturn => ?_
  obtain ⟨b, rfl⟩ : ∃ b, f b = inner := by
    obtain ⟨front, back, -, hsplit, -⟩ := hturn
    obtain ⟨b, -, hb⟩ :=
      List.mem_map.1 (hsplit ▸ List.mem_append_right front List.mem_cons_self : inner ∈ l.map f)
    exact ⟨b, hb⟩
  exact (h b e₂).mono (fun _ _ h => h) fun err _ h chain herr =>
    (h chain herr).below (hleads _ e₂ hturn)

/-- A directive reports the cycles that are reported inside of it. -/
theorem ends_failed_cyclic {origin : OriginId} {target : String} {err : ExpandError}
    {P : List String → Prop} (h : ∀ chain, err = .cyclicInclude chain → P chain) :
    Ends (Expand.failed origin target err : Expand α) e (fun _ _ => True)
      fun err' _ => ∀ chain, err' = .cyclicInclude chain → P chain := by
  rw [ends_failed_iff]
  cases err with
  | cyclicInclude => exact h
  | _ => rintro chain ⟨⟩

/-- To load something closes no cycle. -/
theorem ends_load_cyclic {x : Load α} {Q : α → Expansion → Prop}
    {E : ExpandError → Expansion → Prop}
    (hok : ∀ a e₁, (Expand.load x).run.run e = (.ok a, e₁) → Q a e₁)
    (herror : ∀ err e₁, (∀ chain, err ≠ .cyclicInclude chain) → E err e₁) :
    Ends (Expand.load x) e Q E := by
  have hload : Ends (Expand.load x) e (fun _ _ => True) fun err _ => ∃ reason, err = .load reason :=
    ends_load.2 (ends_iff.2 ⟨fun _ _ _ => trivial, fun reason _ _ => ⟨reason, rfl⟩⟩)
  refine (hload.and (Ends.run _ e)).mono (fun a e₁ h => hok a e₁ h.2) ?_
  rintro _ e₁ ⟨⟨reason, rfl⟩, -⟩
  exact herror _ e₁ fun _ => ExpandError.noConfusion

/-- Nor does reading parameters. -/
theorem ends_params_cyclic {read : Json → Except ShapeError α} {textKey action : String}
    {Q : α → Expansion → Prop} {E : ExpandError → Expansion → Prop}
    (hok : ∀ params e₁, (includeParams site t read textKey x action).run.run e = (.ok params, e₁) →
      Q params e₁)
    (herror : ∀ err e₁, (∀ chain, err ≠ .cyclicInclude chain) → E err e₁) :
    Ends (includeParams site t read textKey x action) e Q E := by
  refine ((includeParams_fails site t read textKey action x e).and (Ends.run _ e)).mono
    (fun params e₁ h => hok params e₁ h.2) ?_
  rintro _ e₁ ⟨⟨reason, rfl⟩ | ⟨reason, rfl⟩, -⟩
  · exact herror _ e₁ fun _ => ExpandError.noConfusion
  · exact herror _ e₁ fun _ => ExpandError.noConfusion

/-- **A directive** reports that its target is open, or what is reported in its target. -/
theorem expandDirective_reports {read : Json → Except ShapeError α} {textKey action : String}
    {origin : OriginId} {target : α → Target} {text : α → String}
    {step : α → Graph → Expand (List TaskId)}
    (hopens : ∀ params e₁, (includeParams site t read textKey x action).run.run e =
      (.ok params, e₁) →
      stage.Opens site t e (target params) e₁)
    (hstep : ∀ params e₁, (includeParams site t read textKey x action).run.run e =
      (.ok params, e₁) →
      (target params).key site.disk ∉ e₁.opened →
      Ends (step params e₁.store.graph) (e₁.enter site (target params)) (fun _ _ => True)
        fun err _ => ∀ chain, err = .cyclicInclude chain → Reenters site t stage e chain) :
    Ends (expandDirective site x origin action (includeParams site t read textKey x action)
      target text step) e
      (fun _ _ => True) fun err _ => ∀ chain, err = .cyclicInclude chain →
      Reenters site t stage e chain := by
  refine ends_expandDirective (ends_params_cyclic (fun params e₁ hrun => ⟨?_, fun hclosed => ?_⟩)
    fun err e₁ hnot => ends_failed_cyclic fun chain herr => absurd herr (hnot chain))
  · rintro hopen chain ⟨⟩
    exact .here (hopens params e₁ hrun) hopen
  · exact (hstep params e₁ hrun hclosed).mono (fun _ _ _ => trivial)
      fun _ _ h => ends_failed_cyclic h

/-- **A directive that includes a file of tasks.** -/
theorem expandTaskInclude_reports {n : Nat} {action : String}
    (hd : (e.store.graph.task x).Directive .taskInclude action)
    (h : ∀ c e₂, (Stage.task n c).Reports site t e₂) :
    Ends (expandTaskInclude site t (expandTask site t n) x action) e (fun _ _ => True)
      fun err _ => ∀ chain, err = .cyclicInclude chain →
      Reenters site t (.task (n + 1) x) e chain := by
  obtain ⟨hb, ha⟩ := hd
  have hasks : ∀ params e₁, (includeParams site t TaskInclude.ofJson "file" x action).run.run e =
      (.ok params, e₁) →
      AsksFile site t e x ((e.store.graph.taskPath x).directory.join params.file) e₁ :=
    fun params e₁ hrun => ⟨Task.isBlock_eq_false.2 hb, action, params, ha, hrun, rfl⟩
  refine (ends_congr (run_expandTaskInclude ..)).2
    (expandDirective_reports (fun params e₁ hrun => .file (hasks params e₁ hrun))
      fun params e₁ hrun hclosed => ?_)
  dsimp only
  rw [ends_bind]
  refine ends_load_cyclic (fun xs e₂ hload => ?_) fun err e₂ hnot chain herr =>
    absurd herr (hnot chain)
  exact ends_inner (f := Stage.task n)
    (fun inner e₃ hturn => .file (hasks params e₁ hrun) hclosed hload hturn) h

/-- **A directive that includes a role.** -/
theorem expandRoleInclude_reports {n : Nat} {action : String}
    (hd : (e.store.graph.task x).Directive .roleInclude action)
    (h : ∀ r e₂, (Stage.role n r []).Reports site t e₂) :
    Ends (expandRoleInclude site t (fun role => expandRoleOn site t n role []) x action) e
      (fun _ _ => True)
      fun err _ => ∀ chain, err = .cyclicInclude chain →
      Reenters site t (.task (n + 1) x) e chain := by
  obtain - | ⟨hb, hn, ha⟩ := hd
  have hasks : ∀ params e₁, (includeParams site t RoleInclude.ofJson "name" x action).run.run e =
      (.ok params, e₁) →
      AsksRole site t e x params e₁ :=
    fun params e₁ hrun => ⟨Task.isBlock_eq_false.2 hb, hn, action, ha, hrun⟩
  refine (ends_congr (run_expandRoleInclude ..)).2
    (expandDirective_reports (fun params e₁ hrun => .role (hasks params e₁ hrun))
      fun params e₁ hrun hclosed => ?_)
  rw [ends_bind]
  refine ends_load_cyclic (fun r e₂ hload => ?_) fun err e₂ hnot chain herr =>
    absurd herr (hnot chain)
  exact (h r e₂).mono (fun _ _ h => h) fun err e₃ herr chain hchain =>
    (herr chain hchain).below (.role (hasks params e₁ hrun) hclosed hload)

end Reports

mutual
/-- **A cycle that a task reports** is at the end of a way down. -/
theorem task_reports : ∀ (n : Nat) (x : TaskId) (e : Expansion), (Stage.task n x).Reports site t e
  | 0, x, e => by
    show Ends (expandTask site t 0 x) e _ _
    rw [ends_expandTask_zero]
    rintro chain ⟨⟩
  | n + 1, x, e => by
    refine ends_expandTask (fun hb => ?_) (fun action hd => ?_) (fun action hd => ?_)
      fun _ => trivial
    · exact ends_inner (f := Stage.task n) (fun inner e₁ hturn => .block hb hturn) (task_reports n)
    · exact expandTaskInclude_reports hd (task_reports n)
    · exact expandRoleInclude_reports hd fun r e₂ => role_reports n r [] e₂

/-- **A cycle that a role reports** is at the end of a way down. -/
theorem role_reports : ∀ (n : Nat) (r : RoleId) (path : List String) (e : Expansion),
    (Stage.role n r path).Reports site t e
  | 0, r, path, e => by
    show Ends (expandRoleOn site t 0 r path) e _ _
    rw [ends_expandRoleOn_zero]
    rintro chain ⟨⟩
  | n + 1, r, path, e => by
    refine ends_expandRoleOn (fun path' hpath => ?_) fun _ _ => by rintro chain ⟨⟩
    rw [ends_bind]
    refine ends_load_cyclic (fun direct e₁ hdirect => ?_) fun err e₁ hnot chain herr =>
      absurd herr (hnot chain)
    -- a dependency reports, or else a task of the role itself
    rw [ends_bind]
    have hdependencies := ends_inner (t := t) (f := fun d => Stage.role n d path')
      (fun inner e₂ hturn => .dependency (n := n) hpath hdirect hturn) fun d e₂ =>
      role_reports n d path' e₂
    refine (hdependencies.and (Ends.run _ e₁)).mono ?_ fun _ _ h => h.1
    rintro below e₂ ⟨-, hbelow⟩
    rw [ends_bind, ends_expand_graph, ends_bind]
    exact ends_inner (f := Stage.task n) (fun inner e₃ hturn => .ofRole hpath hdirect hbelow hturn)
      (task_reports n)
end

mutual
/-- **A cycle that a play reports** is at the end of a way down. -/
theorem play_reports : ∀ (n : Nat) (p : PlayId) (e : Expansion), (Stage.play n p).Reports site t e
  | 0, p, e => by
    show Ends (expandPlay site t 0 p) e _ _
    rw [ends_expandPlay_zero]
    rintro chain ⟨⟩
  | n + 1, p, e => by
    refine ends_expandPlay (fun target htarget => ?_) fun htarget => ?_
    · rw [ends_bind]
      refine ends_load_cyclic (fun pb e₁ hload => ?_) fun err e₁ hnot =>
        ends_failed_cyclic fun chain herr => absurd herr (hnot chain)
      refine (playbook_reports n pb e₁).mono (fun _ _ _ => trivial) fun err e₂ h => ?_
      exact ends_failed_cyclic fun chain herr => (h chain herr).below (.imported htarget hload)
    · rw [ends_bind]
      have htasks :
          Ends (concatEach (fun x => (Stage.task n x).expand site t) (e.store.graph.play p).tasks) e
            _ _ :=
        ends_inner (fun inner e₁ hturn => .ofPlay htarget hturn) (task_reports n)
      refine (htasks.and (Ends.run _ e)).mono ?_ fun _ _ h => h.1
      rintro tasks e₁ ⟨-, hrun⟩
      rw [ends_bind]
      exact ends_inner (f := fun r => Stage.role n r [])
        (fun inner e₂ hturn => .listed htarget hrun hturn)
        fun r e₂ => role_reports n r [] e₂

/-- **A cycle that a playbook reports** is at the end of a way down. -/
theorem playbook_reports :
    ∀ (n : Nat) (pb : Playbook) (e : Expansion), (Stage.playbook n pb).Reports site t e
  | 0, pb, e => by
    show Ends (expandPlaybook site t 0 pb) e _ _
    rw [ends_expandPlaybook_zero]
    rintro chain ⟨⟩
  | n + 1, pb, e => by
    refine ends_expandPlaybook (fun hopen => ?_) fun hclosed => ?_
    · rintro chain ⟨⟩
      exact .here .playbook hopen
    · exact ends_inner (f := Stage.play n) (fun inner e₁ hturn => .play (n := n) hclosed hturn)
        (play_reports n)
end

/-- **A cycle that is reported is at the end of a way down** from the stage that is expanded. -/
theorem Stage.reports (stage : Stage) (e : Expansion) : stage.Reports site t e := by
  cases stage with
  | task n x => exact task_reports n x e
  | role n r path => exact role_reports n r path e
  | play n p => exact play_reports n p e
  | playbook n pb => exact playbook_reports n pb e

end Runlist
