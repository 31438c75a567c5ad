import Runlist.Proofs.Omission.State
import Runlist.Proofs.Spelling.Expand

/-!
# Expansion without a parameter

If a parameter of a directive cannot be rendered, the directive gets the same parameters with it and
without it. Then whatever is expanded in the one state is expanded in the other, to the same tasks
or with the same failure.

* `Expand.Blind`: a step of expansion ends in the same way in both states.
* `includeParams_omits`: **the directive itself gets the same parameters.** Its variables are known
  from then on.
* `omits_abreast`, `Omission.Unseen.matched`: once they are known, a state is changed alike and
  tasks are expanded in one way, and so end all expansions, by `blind_expandTask` and
  `blind_expandRoleOn`.
* `expandTask_omits`: **the directive is expanded in the same way.**
-/

namespace Runlist

variable {o : Omission} {known : Option Variables} {g g' : Graph}

/-- Two expansions of which the states differ in one parameter of a directive. -/
structure Expansion.Omits (o : Omission) (known : Option Variables) (e e' : Expansion) : Prop where
  store : e.store.Omits o known e'.store
  opened : e'.opened = e.opened

/-- **A step of expansion does not look at the parameter**: it ends in the same way in both
states. -/
abbrev Expand.Blind (o : Omission) (known : Option Variables) {α : Type} (x : Expand α) : Prop :=
  Twin (Expansion.Omits o known) Eq Eq x x

section Expand

variable {site : Site} {t : Templater} {α β : Type} {e e' : Expansion} {vars : Variables}

theorem omits_expandGraph :
    Twin (Expansion.Omits o known) Eq (Graph.Omits o known) Expand.graph Expand.graph :=
  fun _ _ h => ⟨.ok h.store.graph, h⟩

theorem omits_load {x y : Load α} (h : Twin (Store.Omits o known) Eq Eq x y) :
    Twin (Expansion.Omits o known) Eq Eq (Expand.load x) (Expand.load y) := by
  intro e e' he
  unfold TwinAt
  rw [run_load, run_load]
  obtain ⟨hresult, hstore⟩ := h _ _ he.store
  exact ⟨hresult.mapError fun _ _ h => congrArg _ h, hstore, he.opened⟩

theorem blind_failed (origin : OriginId) (target : String) (err : ExpandError) :
    Expand.Blind o known (Expand.failed origin target err : Expand α) := by
  unfold Expand.failed
  split
  · exact .throw rfl
  · exact .throw rfl
  · refine omits_expandGraph.bind fun g g' hg => .throw ?_
    rw [hg.provenance]

/-! ### Parameters -/

section Params

variable {read : Json → Except ShapeError α} {textKey action : String}

theorem blind_renderWritten (textKey action : String) (vars : Variables) (value : Json) :
    Expand.Blind o known (renderWritten t textKey action vars value) := by
  unfold renderWritten
  split
  · split
    · exact .pure rfl
    · exact .throw rfl
  · exact (omits_load (blind_renderParams t vars action _)).next fun _ => .pure rfl
  · exact .throw rfl

theorem blind_readParams (read : Json → Except ShapeError α) (action : String) (value : Json) :
    Expand.Blind o known (readParams read action value) := by
  unfold readParams
  split
  · exact .pure rfl
  · exact .throw rfl

/-- **Another directive gets the same parameters**, since its mapping is the same. -/
theorem blind_includeParams (site : Site) (t : Templater) (read : Json → Except ShapeError α)
    (textKey action : String) {y : TaskId} (hy : y ≠ o.task) :
    Expand.Blind o known (includeParams site t read textKey y action) := by
  intro e e' he
  have hraw := he.store.graph.raw y hy
  by_cases hvalue : ∃ value, (e.store.graph.task y).raw.get? action = some value ∧
      ((∃ text, value = .string text) ∨ ∃ params, value = .object params)
  · obtain ⟨value, hget, hvalue⟩ := hvalue
    unfold TwinAt
    rw [run_includeParams hget hvalue, run_includeParams (by rw [hraw]; exact hget) hvalue]
    exact (omits_load (blind_taskVars site y)).next (fun vars =>
      (blind_renderWritten textKey action vars value).next (blind_readParams read action)) e e' he
  · have hnot : ∀ value, (e.store.graph.task y).raw.get? action = some value →
        ¬ ((∃ text, value = .string text) ∨ ∃ params, value = .object params) :=
      fun value hget h => hvalue ⟨value, hget, h⟩
    unfold TwinAt
    rw [run_includeParams_of_not hnot, run_includeParams_of_not fun value hget =>
      hnot value (hraw ▸ hget)]
    exact ⟨.error rfl, he⟩

/-- **The directive itself gets the same parameters**, if the one that it has or has not cannot be
rendered. From then on its variables are known. -/
theorem includeParams_omits {params : Fields} (he : e.Omits o known e') {s₁ : Store}
    (hvars : (taskVars site o.task).run.run e.store = (.ok vars, s₁))
    (hcached : (s₁.graph.task o.task).cachedVars = some vars)
    (hraw : o.raw.get? o.action = some (.object params)) (hun : Unrendered t vars params o.key) :
    TwinAt (Expansion.Omits o (some vars)) Eq Eq (includeParams site t read textKey o.task o.action)
      (includeParams site t read textKey o.task o.action) e e' := by
  have hg := he.store.graph
  have hget : (e.store.graph.task o.task).raw.get? o.action = some (.object params) := by
    rw [hg.declared]
    exact hraw
  have hget' : (e'.store.graph.task o.task).raw.get? o.action =
      some (.object (params.erase o.key)) := by
    rw [hg.omitted, Fields.get?_without hraw, if_pos rfl]
  -- the variables are resolved first, and known afterwards
  have hknown : TwinAt (Expansion.Omits o (some vars)) Eq (fun a b => a = vars ∧ b = vars)
      (Expand.load (taskVars site o.task)) (Expand.load (taskVars site o.task)) e e' := by
    obtain ⟨hresult, hstore⟩ := blind_taskVars site o.task _ _ he.store
    unfold TwinAt
    rw [run_load, run_load, Both.eq hresult]
    rw [hvars] at hstore ⊢
    exact ⟨.ok ⟨rfl, rfl⟩,
      ⟨{ hstore.graph with known := by rintro _ ⟨⟩; exact hcached }, hstore.roleDirs⟩, he.opened⟩
  unfold TwinAt
  rw [run_includeParams hget (.inr ⟨params, rfl⟩), run_includeParams hget' (.inr ⟨_, rfl⟩)]
  refine hknown.bind fun a b hab => ?_
  obtain ⟨rfl, rfl⟩ := hab
  refine Twin.next ?_ (blind_readParams read o.action)
  unfold renderWritten
  exact (omits_load (renderParams_omits hun.fails o.action)).next fun _ => .pure rfl

end Params

/-! ### Tasks and roles -/

/-- Graphs that differ in one parameter look alike to an expansion. -/
theorem Graph.Omits.looksLike (h : g.Omits o known g') : g.LooksLike g' where
  block := h.task_block
  origin := h.task_origin
  taskRole := h.task_role
  play := h.task_play
  path := h.taskPath
  taskPlay := h.taskPlay
  role := h.role
  playOrigin p := by rw [h.play p]
  playTasks p := by rw [h.play p]
  playRoles p := by rw [h.play p]
  imports p := by rw [h.play p]

/-- A directive in the one graph is one in the other, by the same action. -/
theorem Graph.Omits.directive (h : g.Omits o known g') {x : TaskId} {kind : TaskKind}
    {action : String} (hd : (g.task x).Directive kind action) :
    (g'.task x).Directive kind action := by
  have hblock := (h.task_block x).trans hd.block
  cases hd with
  | file _ ha => exact .file hblock ((h.firstAction? x _).trans ha)
  | role _ hn ha =>
    exact .role hblock ((h.firstAction? x _).trans hn) ((h.firstAction? x _).trans ha)

/-- **What an expansion does to a state** does not depend on the parameter. -/
theorem omits_abreast (site : Site) (o : Omission) (known : Option Variables) :
    Abreast site site (Expansion.Omits o known) Eq where
  looks he := he.store.graph.looksLike
  opened he := he.opened
  reopen he _ := ⟨he.store, rfl⟩
  adopt he ids x := ⟨⟨he.store.graph.adopt ids x, he.store.roleDirs⟩, he.opened⟩
  key _ := rfl
  tooDeep := rfl
  cyclic _ := rfl
  failed herr _ _ := herr ▸ blind_failed _ _ _
  path r := omits_load (blind_ofExcept r)
  tasks _ _ _ _ := omits_load (blind_loadTasksIn site _ _ _ _)
  role _ _ _ _ := omits_load (blind_loadRoleWith site _ _ _ _)
  direct r := omits_load (blind_directDependencies site r)

/-- **The directive declares the parameter, which cannot be rendered**: by the action that counts,
over its variables. -/
structure Omission.Unseen (t : Templater) (vars : Variables) (o : Omission) : Prop where
  counts : Action.taskIncludes.find? (fun action => o.raw.has action) = some o.action ∨
    Action.taskIncludes.find? (fun action => o.raw.has action) = none ∧
      Action.roleIncludes.find? (fun action => o.raw.has action) = some o.action
  fails : ∃ params, o.raw.get? o.action = some (.object params) ∧ Unrendered t vars params o.key

/-- The action of the directive is the one that counts. -/
theorem Omission.Unseen.action_eq (h : o.Unseen t vars) (hg : g.Omits o known g') {kind : TaskKind}
    {action : String} (hd : (g.task o.task).Directive kind action) : action = o.action := by
  have hraw := hg.declared
  cases hd with
  | file _ ha =>
    rw [Task.taskInclude?, Task.firstAction?, hraw] at ha
    rcases h.counts with hc | ⟨hn, -⟩
    · exact Option.some.inj (ha.symm.trans hc)
    · cases hn.symm.trans ha
  | role _ hn ha =>
    rw [Task.taskInclude?, Task.firstAction?, hraw] at hn
    rw [Task.roleInclude?, Task.firstAction?, hraw] at ha
    rcases h.counts with hc | ⟨-, hc⟩
    · cases hn.symm.trans hc
    · exact Option.some.inj (ha.symm.trans hc)

/-- The directive is no leaf. -/
theorem Omission.Unseen.not_leaf (h : o.Unseen t vars) (hg : g.Omits o known g') :
    (g.task o.task).kind ≠ .leaf := by
  intro hleaf
  obtain ⟨-, hn, hr⟩ := Task.kind_leaf hleaf
  rw [Task.taskInclude?, Task.firstAction?, hg.declared] at hn
  rw [Task.roleInclude?, Task.firstAction?, hg.declared] at hr
  rcases h.counts with hc | ⟨-, hc⟩
  · cases hn.symm.trans hc
  · cases hr.symm.trans hc

/-- What the directive gets as its parameters, by whichever action it is expanded. -/
theorem Omission.Unseen.includeParams (h : o.Unseen t vars) (he : e.Omits o known e') {s₁ : Store}
    (hvars : (taskVars site o.task).run.run e.store = (.ok vars, s₁))
    (hcached : (s₁.graph.task o.task).cachedVars = some vars) {γ : Type}
    (read : Json → Except ShapeError γ) (textKey : String) {kind : TaskKind} {action : String}
    (hd : (e.store.graph.task o.task).Directive kind action) :
    TwinAt (Expansion.Omits o (some vars)) Eq Eq (includeParams site t read textKey o.task action)
      (includeParams site t read textKey o.task action) e e' := by
  obtain ⟨params, hraw, hun⟩ := h.fails
  rw [h.action_eq he.store.graph hd]
  exact includeParams_omits he hvars hcached hraw hun

/-- **A directive is expanded in one way**, if its parameters are the same. -/
theorem Expansion.Omits.directive (he : e.Omits o known e') {x : TaskId} {kind : TaskKind}
    {action : String} (hd : (e.store.graph.task x).Directive kind action)
    (hparams : ∀ {γ : Type} (read : Json → Except ShapeError γ) (textKey : String),
      TwinAt (Expansion.Omits o (some vars)) Eq Eq (includeParams site t read textKey x action)
        (includeParams site t read textKey x action) e e') :
    Abreast.Matches site site (Expansion.Omits o (some vars)) Eq t x e e' := by
  have hd' := he.store.graph.directive hd
  have hfailed : ∀ err err' : ExpandError, err = err' → Twin (Expansion.Omits o (some vars)) Eq Eq
      (Expand.failed (e.store.graph.task x).origin action err : Expand (List TaskId))
      (Expand.failed (e.store.graph.task x).origin action err') :=
    fun err _ h => h ▸ blind_failed _ _ err
  cases kind with
  | taskInclude => exact .file hd hd' ⟨hparams _ _, hfailed⟩
  | roleInclude => exact .role hd hd' ⟨hparams _ _, hfailed⟩
  | _ => cases hd

/-- **Once its variables are known, no task looks at the parameter**: neither the directive itself
nor any other one. -/
theorem Omission.Unseen.matched (h : o.Unseen t vars) (he : e.Omits o (some vars) e') (x : TaskId) :
    Abreast.Matches site site (Expansion.Omits o (some vars)) Eq t x e e' := by
  have hdirective : ∀ {kind action}, (e.store.graph.task x).Directive kind action →
      Abreast.Matches site site (Expansion.Omits o (some vars)) Eq t x e e' := by
    intro kind action hd
    refine he.directive hd fun read textKey => ?_
    by_cases hx : x = o.task
    · subst hx
      have hcached := he.store.graph.known vars rfl
      exact h.includeParams he (taskVars_of_cached hcached) hcached read textKey hd
    · exact blind_includeParams site t read textKey action hx e e' he
  rcases (e.store.graph.task x).cases with hb | ⟨_, hd⟩ | ⟨_, hd⟩ | hleaf
  · exact .block hb he
  · exact hdirective hd
  · exact hdirective hd
  · obtain ⟨hb, hn, hr⟩ := Task.kind_leaf hleaf
    have hb' := (he.store.graph.task_block x).trans (Task.isBlock_eq_false.1 hb)
    refine .leaf hleaf (Task.leaf_of_none hb' ?_ ?_) he
    · exact (he.store.graph.firstAction? x _).trans hn
    · exact (he.store.graph.firstAction? x _).trans hr

/-- So no task looks at it, with all that it includes. -/
theorem blind_expandTask (h : o.Unseen t vars) (n : Nat) (x : TaskId) :
    Expand.Blind o (some vars) (expandTask site t n x) :=
  ((omits_abreast site o (some vars)).tasks_roles h.matched n).1 x

/-- **Nor does any role.** -/
theorem blind_expandRoleOn (h : o.Unseen t vars) (n : Nat) (r : RoleId) (path : List String) :
    Expand.Blind o (some vars) (expandRoleOn site t n r path) :=
  ((omits_abreast site o (some vars)).tasks_roles h.matched n).2 r path

/-- **The directive is expanded in the same way** with the parameter and without it: to the same
tasks, or it fails in the same way, and the states in which that ends differ in the parameter
only. -/
theorem expandTask_omits (h : o.Unseen t vars) (he : e.Omits o none e')
    (hblock : (e.store.graph.task o.task).block = []) {s₁ : Store}
    (hvars : (taskVars site o.task).run.run e.store = (.ok vars, s₁))
    (hcached : (s₁.graph.task o.task).cachedVars = some vars) (n : Nat) :
    TwinAt (Expansion.Omits o none) Eq Eq (expandTask site t n o.task)
      (expandTask site t n o.task) e e' := by
  match n with
  | 0 => exact Twin.throw rfl e e' he
  | n + 1 =>
    have hdirective : ∀ {kind action}, (e.store.graph.task o.task).Directive kind action →
        Abreast.Matches site site (Expansion.Omits o (some vars)) Eq t o.task e e' :=
      fun hd => he.directive hd fun read textKey => h.includeParams he hvars hcached read textKey hd
    have hmatch : Abreast.Matches site site (Expansion.Omits o (some vars)) Eq t o.task e e' := by
      rcases (e.store.graph.task o.task).cases with hb | ⟨_, hd⟩ | ⟨_, hd⟩ | hleaf
      · rw [Task.isBlock_eq_false.2 hblock] at hb
        cases hb
      · exact hdirective hd
      · exact hdirective hd
      · exact absurd hleaf (h.not_leaf he.store.graph)
    -- the directive itself begins where its variables are not known yet
    obtain ⟨hresult, hends⟩ :=
      (omits_abreast site o (some vars)).expandTask he.store.graph.looksLike hmatch
      (blind_expandTask h n) fun r => blind_expandRoleOn h n r []
    exact ⟨hresult,
      ⟨{ hends.store.graph with known := by rintro _ ⟨⟩ }, hends.store.roleDirs⟩, hends.opened⟩

end Expand

end Runlist
