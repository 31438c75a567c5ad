import Runlist.Proofs.Expand.Steps
import Runlist.Proofs.Spelling.Twin

/-!
# Expansions side by side

Two expansions that go on side by side, from states that look alike to an expansion, end alike. What
it takes is that the things that expansion does to a state are done alike, and that a task is
expanded in one way in both states.

* `Graph.LooksLike`: two graphs in which expansion finds the same things, except what tasks declare.
* `Abreast`: each thing that expansion does to a state is done alike.
* `Abreast.SameParams`: a directive has the same parameters. `Abreast.Matches`: a task is expanded in
  one way in both states.
* `Abreast.tasks_roles`, `Abreast.plays_playbooks`: **then all expansions end alike.**
-/

namespace Runlist

section Rules

variable {α β : Type} {R : Expansion → Expansion → Prop} {E : ExpandError → ExpandError → Prop}
  {Q : α → β → Prop}
  {e e' : Expansion}

/-- A step of loading, run. -/
theorem run_load (x : Load α) (e : Expansion) : (Expand.load x).run.run e =
    ((x.run.run e.store).1.mapError .load, { e with store := (x.run.run e.store).2 }) := by
  have hends :
      Ends (Expand.load x) e (fun a e' =>
        (.ok a, e') = ((x.run.run e.store).1.mapError ExpandError.load,
        ({ e with store := (x.run.run e.store).2 } : Expansion)))
      fun err e' => (.error err, e') = ((x.run.run e.store).1.mapError ExpandError.load,
        ({ e with store := (x.run.run e.store).2 } : Expansion)) := by
    rw [ends_load]
    exact (Ends.run x e.store).mono (fun _ _ h => by rw [h]; rfl) fun _ _ h => by rw [h]; rfl
  unfold Ends at hends
  split at hends
  · rename_i hrun; rw [hrun]; exact hends
  · rename_i hrun; rw [hrun]; exact hends

namespace TwinAt

variable {x x₁ : Expand α} {y y₁ : Expand β}

/-- Steps that are the same as others from the two states end alike if these do. -/
theorem congr (hx : x.run.run e = x₁.run.run e) (hy : y.run.run e' = y₁.run.run e')
    (h : TwinAt R E Q x₁ y₁ e e') : TwinAt R E Q x y e e' := by
  unfold TwinAt
  rw [hx, hy]
  exact h

/-- What follows on a look at the graph is a step from the same states. -/
theorem look {f : Graph → Expand α} {f' : Graph → Expand β}
    (h : TwinAt R E Q (f e.store.graph) (f' e'.store.graph) e e') :
    TwinAt R E Q (Expand.graph >>= f) (Expand.graph >>= f') e e' := h

theorem attempt (h : TwinAt R E Q x y e e') :
    TwinAt R E (Both E Q) (Expand.attempt x) (Expand.attempt y) e e' :=
  ⟨.ok h.1, h.2⟩

end TwinAt

theorem Twin.attempt {x : Expand α} {y : Expand β} (h : Twin R E Q x y) :
    Twin R E (Both E Q) (Expand.attempt x) (Expand.attempt y) :=
  fun e e' he => (h e e' he).attempt

end Rules

/-! ## States that look alike -/

/-- **Two graphs look alike to an expansion**: all is where it was, whatever the tasks declare. -/
structure Graph.LooksLike (g g' : Graph) : Prop where
  block : ∀ x, (g'.task x).block = (g.task x).block
  origin : ∀ x, (g'.task x).origin = (g.task x).origin
  taskRole : ∀ x, (g'.task x).role = (g.task x).role
  play : ∀ x, (g'.task x).play = (g.task x).play
  path : ∀ x, g'.taskPath x = g.taskPath x
  taskPlay : ∀ x, g'.taskPlay x = g.taskPlay x
  role : ∀ r, g'.role r = g.role r
  playOrigin : ∀ p, (g'.play p).origin = (g.play p).origin
  playTasks : ∀ p, (g'.play p).tasks = (g.play p).tasks
  playRoles : ∀ p, (g'.play p).roles = (g.play p).roles
  imports : ∀ p, (g'.play p).importTarget? = (g.play p).importTarget?

theorem Graph.LooksLike.isBlock {g g' : Graph} (h : g.LooksLike g') (x : TaskId) :
    (g'.task x).isBlock = (g.task x).isBlock := by
  rw [Task.isBlock, Task.isBlock, h.block]

/-- **Each thing that an expansion does to a state is done alike**: to open and close targets, to
fail, to adopt tasks and to load. -/
structure Abreast (site site' : Site) (R : Expansion → Expansion → Prop)
    (E : ExpandError → ExpandError → Prop) : Prop where
  looks : ∀ {e e'}, R e e' → e.store.graph.LooksLike e'.store.graph
  opened : ∀ {e e'}, R e e' → e'.opened = e.opened
  reopen : ∀ {e e'}, R e e' → ∀ opened, R { e with opened } { e' with opened }
  adopt : ∀ {e e'}, R e e' → ∀ ids x, R (e.adopt ids x) (e'.adopt ids x)
  key : ∀ target : Target, target.key site'.disk = target.key site.disk
  tooDeep : E .tooDeep .tooDeep
  cyclic : ∀ chain, E (.cyclicInclude chain) (.cyclicInclude chain)
  failed : ∀ {err err'}, E err err' → ∀ origin target,
    Twin R E Eq (Expand.failed origin target err : Expand (List TaskId))
      (Expand.failed origin target err')
  path : ∀ r : Except LoadError (List String),
    Twin R E Eq (Expand.load (Load.ofExcept r)) (Expand.load (Load.ofExcept r))
  tasks : ∀ origin role play path,
    Twin R E Eq (Expand.load (loadTasksIn site origin role play path))
      (Expand.load (loadTasksIn site' origin role play path))
  role : ∀ origin play name selection,
    Twin R E Eq (Expand.load (loadRoleWith site origin play name selection))
      (Expand.load (loadRoleWith site' origin play name selection))
  direct : ∀ r,
    Twin R E Eq (Expand.load (directDependencies site r))
      (Expand.load (directDependencies site' r))

namespace Abreast

variable {site site' : Site} {R : Expansion → Expansion → Prop}
  {E : ExpandError → ExpandError → Prop} {t : Templater}
  {e e' : Expansion} {x : TaskId} {action action' : String} {n : Nat}

section Directives

/-- **A directive has the same parameters in both states**, and fails alike. It may be called by
another name. -/
structure SameParams (site site' : Site) (R : Expansion → Expansion → Prop)
    (E : ExpandError → ExpandError → Prop) (t : Templater) {α : Type}
    (read : Json → Except ShapeError α) (textKey : String) (x : TaskId) (e e' : Expansion)
    (action action' : String) : Prop where
  params : TwinAt R E Eq (includeParams site t read textKey x action)
    (includeParams site' t read textKey x action') e e'
  failed : ∀ err err', E err err' →
    Twin R E Eq
      (Expand.failed (e.store.graph.task x).origin action err : Expand (List TaskId))
      (Expand.failed (e.store.graph.task x).origin action' err')

variable (h : Abreast site site' R E)
include h

/-- The same target is entered, for steps that end alike. -/
theorem inside {α β : Type} {Q : α → β → Prop} (target : Target) {y : Expand α} {z : Expand β}
    (hstep : Twin R E Q y z) :
    Twin R E (Both E Q) (Expand.inside site target y) (Expand.inside site' target z) := by
  unfold Expand.inside
  rw [h.key]
  refine Twin.next (fun e e' he => ?_) fun _ => hstep.attempt.bind fun r r' hr => ?_
  · unfold Expand.enter
    refine TwinAt.get ?_
    rw [h.opened he]
    split
    · exact Twin.throw (h.cyclic _) e e' he
    · exact ⟨.ok rfl, h.reopen he _⟩
  · refine Twin.next (Twin.modify fun e e' he => ?_) fun _ => .pure hr
    rw [h.opened he]
    exact h.reopen he _

theorem finishInclude (x : TaskId) (origin : OriginId) (target : String)
    {r r' : Except ExpandError (List TaskId)} (hr : Both E Eq r r') :
    Twin R E Eq (finishInclude x origin target r) (finishInclude x origin target r') := by
  cases hr with
  | error herr => exact h.failed herr origin target
  | @ok ids ids' hids =>
    subst hids
    exact fun e e' he => ⟨.ok rfl, h.adopt he ids x⟩

/-- **A directive**, once its parameters are the same. -/
theorem directive {α : Type} {read : Json → Except ShapeError α} {textKey : String}
    {target : α → Target} {text : α → String} {step step' : α → Graph → Expand (List TaskId)}
    (hsame : SameParams site site' R E t read textKey x e e' action action')
    (hstep : ∀ p g g', g.LooksLike g' → Twin R E Eq (step p g) (step' p g')) :
    TwinAt R E Eq
      (expandDirective site x (e.store.graph.task x).origin action
        (includeParams site t read textKey x action) target text step)
      (expandDirective site' x (e.store.graph.task x).origin action'
        (includeParams site' t read textKey x action') target text step') e e' := by
  unfold expandDirective
  refine hsame.params.attempt.bind fun r r' hr => ?_
  cases hr with
  | error herr => exact hsame.failed _ _ herr
  | @ok p p' hp =>
    subst hp
    intro e₁ e₁' h₁
    have hinside := h.inside (target p) (hstep p _ _ (h.looks h₁))
    exact TwinAt.look ((hinside.bind fun r r' hr => h.finishInclude x _ (text p) hr) e₁ e₁' h₁)

theorem expandTaskInclude {expand expand' : TaskId → Expand (List TaskId)}
    (hlooks : e.store.graph.LooksLike e'.store.graph)
    (hsame : SameParams site site' R E t TaskInclude.ofJson "file" x e e' action action')
    (hexpand : ∀ c, Twin R E Eq (expand c) (expand' c)) :
    TwinAt R E Eq (expandTaskInclude site t expand x action)
      (expandTaskInclude site' t expand' x action') e e' := by
  refine .congr (run_expandTaskInclude ..) (run_expandTaskInclude ..) ?_
  dsimp only
  rw [hlooks.origin, hlooks.taskRole, hlooks.play, hlooks.path]
  exact h.directive hsame fun p _ _ _ =>
    (h.tasks _ _ _ _).next fun xs => .concatEach hexpand xs

theorem expandRoleInclude {expand expand' : RoleId → Expand (List TaskId)}
    (hlooks : e.store.graph.LooksLike e'.store.graph)
    (hsame : SameParams site site' R E t RoleInclude.ofJson "name" x e e' action action')
    (hexpand : ∀ r, Twin R E Eq (expand r) (expand' r)) :
    TwinAt R E Eq (expandRoleInclude site t expand x action)
      (expandRoleInclude site' t expand' x action') e e' := by
  refine .congr (run_expandRoleInclude ..) (run_expandRoleInclude ..) ?_
  rw [hlooks.origin]
  refine h.directive hsame fun p g g' hg => ?_
  -- the play is looked up after the parameters have been read
  rw [hg.taskPlay]
  exact (h.role _ _ _ _).next hexpand

end Directives

/-! ## Tasks and roles -/

/-- **A task is expanded in one way in both states**: it wraps the same tasks; it is a directive of
one kind, with the same parameters; or it stands for itself. -/
inductive Matches (site site' : Site) (R : Expansion → Expansion → Prop)
    (E : ExpandError → ExpandError → Prop) (t : Templater) (x : TaskId) (e e' : Expansion) : Prop
  | block : (e.store.graph.task x).isBlock = true → R e e' → Matches site site' R E t x e e'
  | file {action action' : String} : (e.store.graph.task x).Directive .taskInclude action →
      (e'.store.graph.task x).Directive .taskInclude action' →
      SameParams site site' R E t TaskInclude.ofJson "file" x e e' action action' →
      Matches site site' R E t x e e'
  | role {action action' : String} : (e.store.graph.task x).Directive .roleInclude action →
      (e'.store.graph.task x).Directive .roleInclude action' →
      SameParams site site' R E t RoleInclude.ofJson "name" x e e' action action' →
      Matches site site' R E t x e e'
  | leaf : (e.store.graph.task x).kind = .leaf → (e'.store.graph.task x).kind = .leaf → R e e' →
      Matches site site' R E t x e e'

variable (h : Abreast site site' R E)
include h

/-- **A task that is expanded in one way ends alike**, if what it stands for does. -/
theorem expandTask (hlooks : e.store.graph.LooksLike e'.store.graph)
    (hx : Matches site site' R E t x e e')
    (htask : ∀ c, Twin R E Eq (expandTask site t n c) (expandTask site' t n c))
    (hrole : ∀ r, Twin R E Eq (expandRoleOn site t n r []) (expandRoleOn site' t n r [])) :
    TwinAt R E Eq (expandTask site t (n + 1) x) (expandTask site' t (n + 1) x) e e' := by
  cases hx with
  | block hb he =>
    have hb' := (hlooks.isBlock x).trans hb
    refine .congr (run_expandTask_block site t n hb) (run_expandTask_block site' t n hb') ?_
    rw [hlooks.block]
    exact Twin.concatEach htask _ e e' he
  | file hd hd' hsame =>
    refine .congr (run_expandTask_file site t n hd) (run_expandTask_file site' t n hd') ?_
    exact h.expandTaskInclude hlooks hsame htask
  | role hd hd' hsame =>
    refine .congr (run_expandTask_role site t n hd) (run_expandTask_role site' t n hd') ?_
    exact h.expandRoleInclude hlooks hsame hrole
  | leaf hk hk' he =>
    unfold TwinAt
    rw [run_expandTask_leaf site t n hk, run_expandTask_leaf site' t n hk']
    exact ⟨.ok rfl, he⟩

/-- **A role ends alike**, if its dependencies and its tasks do. -/
theorem expandRoleOn
    (htask : ∀ c, Twin R E Eq (Runlist.expandTask site t n c) (Runlist.expandTask site' t n c))
    (hrole : ∀ r path, Twin R E Eq (expandRoleOn site t n r path) (expandRoleOn site' t n r path))
    (r : RoleId) (path : List String) :
    Twin R E Eq (expandRoleOn site t (n + 1) r path) (expandRoleOn site' t (n + 1) r path) := by
  unfold Runlist.expandRoleOn
  intro e e' he
  refine TwinAt.look ?_
  have hpath : enterDependency e'.store.graph r path = enterDependency e.store.graph r path := by
    unfold enterDependency
    rw [(h.looks he).role]
  rw [hpath]
  refine (h.path _).next (fun path => (h.direct r).next fun direct => ?_) e e' he
  refine (Twin.concatEach (fun dep => hrole dep path) direct).next fun below => ?_
  -- the role's own tasks are those that it has after its dependencies were expanded
  intro e₂ e₂' h₂
  refine TwinAt.look ?_
  rw [(h.looks h₂).role]
  exact (Twin.concatEach htask _).next (fun own => .pure rfl) e₂ e₂' h₂

/-- **All tasks and roles end alike**, if every task is expanded in one way. -/
theorem tasks_roles (hmatch : ∀ {e e'}, R e e' → ∀ x, Matches site site' R E t x e e') (n : Nat) :
    (∀ x, Twin R E Eq (Runlist.expandTask site t n x) (Runlist.expandTask site' t n x)) ∧
    ∀ r path, Twin R E Eq (Runlist.expandRoleOn site t n r path)
      (Runlist.expandRoleOn site' t n r path) := by
  induction n with
  | zero => exact ⟨fun _ => .throw h.tooDeep, fun _ _ => .throw h.tooDeep⟩
  | succ n ih =>
    refine ⟨fun x e e' he => ?_, h.expandRoleOn ih.1 ih.2⟩
    exact h.expandTask (h.looks he) (hmatch he x) ih.1 fun r => ih.2 r []

/-! ## Plays and playbooks -/

/-- **All plays and playbooks end alike**, if moreover every playbook is loaded alike. -/
theorem plays_playbooks (hmatch : ∀ {e e'}, R e e' → ∀ x, Matches site site' R E t x e e')
    (hroot : site'.root = site.root)
    (hload : ∀ o path, Twin R E Eq (Expand.load (loadPlaybook site o path))
      (Expand.load (loadPlaybook site' o path)))
    (n : Nat) :
    (∀ p, Twin R E Eq (expandPlay site t n p) (expandPlay site' t n p)) ∧
    ∀ pb, Twin R E Eq (expandPlaybook site t n pb) (expandPlaybook site' t n pb) := by
  induction n with
  | zero => exact ⟨fun _ => .throw h.tooDeep, fun _ => .throw h.tooDeep⟩
  | succ n ih =>
    obtain ⟨htask, hrole⟩ := h.tasks_roles hmatch n
    refine ⟨fun p e e' he => ?_, fun pb => ?_⟩
    · have hlooks := h.looks he
      unfold expandPlay
      refine TwinAt.look ?_
      dsimp only
      rw [hlooks.imports, hlooks.playOrigin, hlooks.playTasks, hlooks.playRoles, hroot]
      cases (e.store.graph.play p).importTarget? with
      | some target =>
        refine Twin.bind (Twin.attempt ((hload _ _).next ih.2)) (fun r r' hr => ?_) e e' he
        cases hr with
        | ok hids => exact .pure hids
        | error herr => exact h.failed herr _ _
      | none =>
        refine (Twin.concatEach htask _).next (fun tasks => ?_) e e' he
        exact (Twin.concatEach (fun r => hrole r []) _).next fun roles => .pure rfl
    · unfold expandPlaybook
      refine (h.inside _ (Twin.concatEach ih.1 _)).bind fun r r' hr => ?_
      cases hr with
      | ok hids => exact .pure hids
      | error herr => exact .throw herr

end Abreast

end Runlist
