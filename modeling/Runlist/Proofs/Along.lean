import Mathlib.Order.Defs.Unbundled
import Runlist.Proofs.Expand.Steps
import Runlist.Proofs.Reach

/-!
# What every step goes along

A relation that holds across each thing that loading and expansion do to a state holds across all of
them, one after the other: from the state in which a request is made to the one in which it ends,
whatever is asked and however it ends.

* `Along`: a step goes along a relation. `Along.bind` and the like: one rule for each way to build a
  step.
* `Steady`: each thing that may be done to a state goes along the relation.
* `Expansion.On`: the relation between expansions; the open targets stay.
* `Steady.expandTask`, `Steady.expandPlaybook`: **so does every expansion.**
* `Steady.request`, `Steady.reaches`: **so does every request**, and every run of them.
-/

namespace Runlist

/-! ## Rules -/

section Rules

variable {ε σ α β : Type} {R : σ → σ → Prop} {x : ExceptT ε (StateM σ) α}

/-- However the step ends, its state is related to the one in which it began. -/
def Along (R : σ → σ → Prop) (x : ExceptT ε (StateM σ) α) : Prop :=
  ∀ s, Ends x s (fun _ s' => R s s') fun _ s' => R s s'

namespace Along

theorem state (h : Along R x) (s : σ) : R s (x.run.run s).2 :=
  Ends.state (P := R s) (h s) (fun _ _ h => h) fun _ _ h => h

variable [hR : IsPreorder σ R]

theorem pure (a : α) : Along R (Pure.pure a : ExceptT ε (StateM σ) α) := hR.refl

theorem throw (e : ε) : Along R (MonadExcept.throw e : ExceptT ε (StateM σ) α) := hR.refl

theorem get : Along R (MonadState.get : ExceptT ε (StateM σ) σ) := hR.refl

theorem bind {f : α → ExceptT ε (StateM σ) β} (hx : Along R x) (hf : ∀ a, Along R (f a)) :
    Along R (x >>= f) := by
  intro s
  rw [ends_bind]
  refine (hx s).mono (fun a s₁ h₁ => ?_) fun _ _ h => h
  exact (hf a s₁).mono (fun _ _ h => hR.trans _ _ _ h₁ h) fun _ _ h => hR.trans _ _ _ h₁ h

theorem foldlM {γ : Type} {f : γ → α → ExceptT ε (StateM σ) γ} (hf : ∀ c a, Along R (f c a))
    (l : List α) (c : γ) : Along R (l.foldlM f c) := by
  induction l generalizing c with
  | nil => exact pure c
  | cons a l ih => rw [List.foldlM_cons]; exact (hf c a).bind ih

theorem mapM {f : α → ExceptT ε (StateM σ) β} (hf : ∀ a, Along R (f a)) (l : List α) :
    Along R (l.mapM f) := by
  induction l with
  | nil => exact pure []
  | cons a l ih => rw [List.mapM_cons]; exact (hf a).bind fun _ => ih.bind fun _ => pure _

theorem forM {f : α → ExceptT ε (StateM σ) PUnit} (hf : ∀ a, Along R (f a)) (l : List α) :
    Along R (l.forM f) := by
  induction l with
  | nil => exact pure _
  | cons a l ih => exact (hf a).bind fun _ => ih

theorem concatEach {f : α → ExceptT ε (StateM σ) (List β)} (hf : ∀ a, Along R (f a)) (l : List α) :
    Along R (Runlist.concatEach f l) := by
  induction l with
  | nil => exact pure []
  | cons a l ih => exact (hf a).bind fun _ => ih.bind fun _ => pure _

end Along

/-- A loop that fails does so in one of its rounds, after those in front of it: `P` is what a round
that succeeds leaves, and `F` how one fails. -/
theorem Ends.concatEach_stops [hR : IsPreorder σ R] {P : α → σ → Prop} {F : α → ε → σ → Prop}
    {f : α → ExceptT ε (StateM σ) (List β)} {l : List α} {s₀ : σ}
    (stable : ∀ {a s s'}, R s s' → P a s → P a s')
    (round : ∀ a ∈ l, ∀ s, R s₀ s → Ends (f a) s (fun _ s' => R s s' ∧ P a s') fun err s' =>
      R s s' ∧ F a err s') :
    Ends (Runlist.concatEach f l) s₀ (fun _ s' => R s₀ s' ∧ ∀ a ∈ l, P a s') fun err s' => R s₀ s' ∧
      ∃ front a back, l = front ++ a :: back ∧ (∀ b ∈ front, P b s') ∧ F a err s' := by
  induction l generalizing s₀ with
  | nil => exact ⟨hR.refl s₀, fun _ h => (List.not_mem_nil h).elim⟩
  | cons a l ih =>
    simp only [Runlist.concatEach, ends_bind, ends_pure]
    refine (round a List.mem_cons_self s₀ (hR.refl s₀)).mono ?_
      fun _ _ h => ⟨h.1, [], a, l, rfl, fun _ h => (List.not_mem_nil h).elim, h.2⟩
    rintro _ s₁ ⟨h₁, ha⟩
    refine (ih fun b hb s₂ h₂ =>
      round b (List.mem_cons_of_mem _ hb) s₂ (hR.trans _ _ _ h₁ h₂)).mono ?_ ?_
    · rintro _ s₂ ⟨h₂, hl⟩
      exact ⟨hR.trans _ _ _ h₁ h₂, List.forall_mem_cons.2 ⟨stable h₂ ha, hl⟩⟩
    · rintro err s₂ ⟨h₂, front, b, back, rfl, hfront, hfail⟩
      exact ⟨hR.trans _ _ _ h₁ h₂, a :: front, b, back, rfl,
        List.forall_mem_cons.2 ⟨stable h₂ ha, hfront⟩, hfail⟩

/-- A loop that fails does so in one of its rounds. -/
theorem Ends.concatEach_fails [hR : IsPreorder σ R] {F : α → ε → σ → Prop}
    {f : α → ExceptT ε (StateM σ) (List β)} {l : List α} {s₀ : σ}
    (round : ∀ a ∈ l, ∀ s, R s₀ s → Ends (f a) s (fun _ s' => R s s') fun err s' =>
      R s s' ∧ F a err s') :
    Ends (Runlist.concatEach f l) s₀ (fun _ s' => R s₀ s') fun err s' => R s₀ s' ∧
    ∃ a ∈ l, F a err s' := by
  refine (Ends.concatEach_stops (R := R) (P := fun _ _ => True) (F := F) (fun _ _ => trivial)
    fun a ha s h =>
    (round a ha s h).mono (fun _ _ h => ⟨h, trivial⟩) fun _ _ h => h).mono (fun _ _ h => h.1) ?_
  rintro err s' ⟨h, _, a, _, rfl, -, hfail⟩
  exact ⟨h, a, List.mem_append_right _ List.mem_cons_self, hfail⟩

end Rules

/-! ## Loading -/

/-- **Each thing that may be done to a state** goes along the relation: to note something, to load,
and to fill in what is remembered or whose task a task is. -/
structure Steady (site : Site) (R : Store → Store → Prop) [IsPreorder Store R] : Prop where
  note : ∀ n, Along R (Load.note n)
  tasks : ∀ o role play path, Along R (loadTasksIn site o role play path)
  role : ∀ o play name selection, Along R (loadRoleWith site o play name selection)
  playbook : ∀ o path, Along R (loadPlaybook site o path)
  direct : ∀ r, Along R (directDependencies site r)
  all :
      ∀ r found, Along R (Load.update fun g => g.modifyRole r fun r =>
        { r with allDependencies := some found })
  cached :
      ∀ x vars, Along R (Load.update fun g => g.modifyTask x fun t =>
        { t with cachedVars := some vars })
  adopt : ∀ xs x, Along R (Load.update fun g => g.adopt xs x)

namespace Steady

variable {site : Site} {R : Store → Store → Prop} [hR : IsPreorder Store R] {t : Templater}

theorem along_graph : Along R Load.graph := hR.refl

theorem along_ofExcept {α : Type} (r : Except LoadError α) : Along R (Load.ofExcept r) := by
  cases r with
  | ok a => exact .pure a
  | error e => exact .throw e

variable (h : Steady site R)
include h

theorem collectDependencies (n : Nat) (r : RoleId) (path : List String) :
    Along R (collectDependencies site n r path) := by
  induction n generalizing r path with
  | zero => exact .throw _
  | succ n ih =>
    unfold Runlist.collectDependencies
    refine along_graph.bind fun g => ?_
    split
    · exact .pure _
    · refine along_graph.bind fun _ => (along_ofExcept _).bind fun path =>
        (h.direct r).bind fun direct => ?_
      refine (Along.concatEach (fun dep => (ih dep path).bind fun _ => .pure _) direct).bind
        fun found => ?_
      exact (h.all r found).bind fun _ => .pure _

theorem allDependencies (r : RoleId) : Along R (allDependencies site r) :=
  Along.get.bind fun _ => h.collectDependencies _ r []

theorem defaultVars (r : RoleId) : Along R (defaultVars site r) :=
  (h.allDependencies r).bind fun _ => along_graph.bind fun _ => .pure _

theorem assignPlay (vars : Variables) (play : Option PlayId) :
    Along R (assignPlay site vars play) := by
  cases play with
  | none => exact .pure _
  | some p =>
    refine along_graph.bind fun g => .bind (.foldlM (fun vars file => ?_) _ _) fun _ =>
      along_graph.bind fun _ => .pure _
    split
    · exact (h.note _).bind fun _ => .pure _
    · split
      · exact .pure _
      · exact .throw _

theorem resolveVars (play : Option PlayId) (task : Option TaskId) :
    Along R (resolveVars site play task) := by
  refine along_graph.bind fun g => .bind ?_ fun vars => (h.assignPlay vars play).bind fun vars => ?_
  · exact .foldlM (fun vars r => (h.defaultVars r).bind fun _ => .pure _) _ _
  · cases task with
    | none => exact .pure _
    | some x => exact along_graph.bind fun _ => .pure _

theorem taskVars (x : TaskId) : Along R (taskVars site x) := by
  unfold Runlist.taskVars
  refine along_graph.bind fun g => ?_
  split
  · exact .pure _
  · exact (h.resolveVars _ _).bind fun vars => (h.cached x vars).bind fun _ => .pure _

section Render

variable (x : TaskId) (action : String)

theorem renderParams (vars : Variables) (params : Fields) :
    Along R (renderParams t vars action params) := by
  induction params with
  | nil => exact .pure _
  | cons entry rest ih =>
    unfold Runlist.renderParams
    split
    · exact ih.bind fun _ => .pure _
    · exact (h.note _).bind fun _ => ih

theorem renderModule : Along R (renderModule site t x action) := by
  refine along_graph.bind fun g => ?_
  split
  · exact (h.taskVars x).bind fun vars => (h.renderParams action vars _).bind fun _ => .pure _
  · exact .pure _

theorem renderText : Along R (renderText site t x action) := by
  refine along_graph.bind fun g => ?_
  split
  · refine (h.taskVars x).bind fun vars => ?_
    split
    · exact .pure _
    · exact (h.note _).bind fun _ => .pure _
  · exact .pure _

end Render

end Steady

/-! ## Expansion -/

/-- A relation between states, as one between expansions: the targets that are open stay. -/
def Expansion.On (R : Store → Store → Prop) (e e' : Expansion) : Prop :=
  R e.store e'.store ∧ e'.opened = e.opened

namespace Steady

variable {site : Site} {R : Store → Store → Prop} [hR : IsPreorder Store R]
  {t : Templater} {α : Type}

instance isPreorder_on : IsPreorder Expansion (Expansion.On R) where
  refl e := ⟨hR.refl e.store, rfl⟩
  trans _ _ _ h h' := ⟨hR.trans _ _ _ h.1 h'.1, h'.2.trans h.2⟩

omit hR in
theorem along_load {x : Load α} (hx : Along R x) : Along (Expansion.On R) (Expand.load x) := by
  intro e
  rw [ends_load]
  exact (hx e.store).mono (fun _ _ h => ⟨h, rfl⟩) fun _ _ h => ⟨h, rfl⟩

theorem along_expand_graph : Along (Expansion.On R) Expand.graph := isPreorder_on.refl

omit hR in
/-- A target that was entered is closed again. -/
theorem on_close {target : Target} {e e₁ : Expansion}
    (h : Expansion.On R (e.enter site target) e₁) : Expansion.On R e e₁.close :=
  ⟨h.1, by rw [Expansion.close, h.2]; exact List.dropLast_concat⟩

section Include

variable (h : Steady site R)
include h

theorem includeParams {read : Json → Except ShapeError α} {textKey : String} (x : TaskId)
    (action : String) : Along (Expansion.On R) (includeParams site t read textKey x action) := by
  refine .bind (along_expand_graph.bind fun g => ?_) fun value => ?_
  · split
    · refine (along_load (h.taskVars x)).bind fun vars => ?_
      split
      · exact .pure _
      · exact .throw _
    · refine (along_load (h.renderModule x action)).bind fun m => ?_
      split
      · exact .pure _
      · exact .pure _
    · exact .throw _
  · split
    · exact .pure _
    · exact .throw _

/-- **A directive**, whatever it includes. -/
theorem expandDirective {x : TaskId} {origin : OriginId} {action : String} {params : Expand α}
    {target : α → Target} {text : α → String} {step : α → Graph → Expand (List TaskId)}
    (hparams : Along (Expansion.On R) params) (hstep : ∀ p g, Along (Expansion.On R) (step p g)) :
    Along (Expansion.On R) (expandDirective site x origin action params target text step) := by
  intro e
  refine ends_expandDirective ((hparams e).mono (fun p e₁ h₁ => ⟨fun _ => h₁, fun _ => ?_⟩)
    fun _ _ h₁ => ends_failed fun _ => h₁)
  have hback : ∀ e₂, Expansion.On R (e₁.enter site (target p)) e₂ → Expansion.On R e e₂.close :=
    fun e₂ h₂ => isPreorder_on.trans _ _ _ h₁ (on_close h₂)
  refine (hstep p _ _).mono (fun ids e₂ h₂ => ?_) fun _ e₂ h₂ => ends_failed fun _ => hback e₂ h₂
  exact isPreorder_on.trans _ _ _ (hback e₂ h₂) ⟨(h.adopt ids x).state e₂.close.store, rfl⟩

theorem expandTaskInclude {expand : TaskId → Expand (List TaskId)}
    (hexpand : ∀ c, Along (Expansion.On R) (expand c)) (x : TaskId) (action : String) :
    Along (Expansion.On R) (expandTaskInclude site t expand x action) := by
  intro e
  refine (ends_congr (run_expandTaskInclude ..)).2
    (h.expandDirective (h.includeParams x action) (fun p g => ?_) e)
  exact (along_load (h.tasks _ _ _ _)).bind fun xs => .concatEach hexpand xs

theorem expandRoleInclude {expand : RoleId → Expand (List TaskId)}
    (hexpand : ∀ r, Along (Expansion.On R) (expand r)) (x : TaskId) (action : String) :
    Along (Expansion.On R) (expandRoleInclude site t expand x action) := by
  intro e
  refine (ends_congr (run_expandRoleInclude ..)).2
    (h.expandDirective (h.includeParams x action) (fun p g => ?_) e)
  exact (along_load (h.role _ _ _ _)).bind hexpand

end Include

mutual
theorem expandTask (h : Steady site R) :
    ∀ (n : Nat) (x : TaskId), Along (Expansion.On R) (expandTask site t n x)
  | 0, _ => fun e => ends_expandTask_zero.2 (isPreorder_on.refl e)
  | n + 1, x => fun e => by
    refine ends_expandTask (fun _ => ?_) (fun action _ => ?_) (fun action _ => ?_)
      fun _ => isPreorder_on.refl e
    · exact Along.concatEach (expandTask h n) _ e
    · exact h.expandTaskInclude (expandTask h n) x action e
    · exact h.expandRoleInclude (fun r => expandRoleOn h n r []) x action e

theorem expandRoleOn (h : Steady site R) : ∀ (n : Nat) (r : RoleId) (path : List String),
    Along (Expansion.On R) (expandRoleOn site t n r path)
  | 0, _, _ => fun e => ends_expandRoleOn_zero.2 (isPreorder_on.refl e)
  | n + 1, r, path => fun e => by
    refine ends_expandRoleOn (fun path' _ => ?_) fun _ _ => isPreorder_on.refl e
    refine (along_load (h.direct r)).bind (fun direct => ?_) e
    refine (Along.concatEach (fun d => expandRoleOn h n d path') direct).bind fun below => ?_
    exact along_expand_graph.bind fun g =>
      (Along.concatEach (expandTask h n) _).bind fun _ => .pure _
end

mutual
theorem expandPlay (h : Steady site R) :
    ∀ (n : Nat) (p : PlayId), Along (Expansion.On R) (expandPlay site t n p)
  | 0, _ => fun e => ends_expandPlay_zero.2 (isPreorder_on.refl e)
  | n + 1, p => fun e => by
    refine ends_expandPlay (fun target _ => ?_) fun _ => ?_
    · have himported :=
        (along_load (h.playbook (some (e.store.graph.play p).origin) (site.root.join target))).bind
        (expandPlaybook h n) e
      exact himported.mono (fun _ _ h => h) fun _ _ h => ends_failed fun _ => h
    · refine (Along.concatEach (h.expandTask n) _).bind (fun tasks => ?_) e
      exact (Along.concatEach (fun r => h.expandRoleOn n r []) _).bind fun _ => .pure _

theorem expandPlaybook (h : Steady site R) :
    ∀ (n : Nat) (pb : Playbook), Along (Expansion.On R) (expandPlaybook site t n pb)
  | 0, _ => fun e => ends_expandPlaybook_zero.2 (isPreorder_on.refl e)
  | n + 1, pb => fun e => by
    have hplays := Along.concatEach (expandPlay h n) pb.plays (e.enter site (.file pb.path))
    exact ends_expandPlaybook (fun _ => isPreorder_on.refl e) fun _ =>
      hplays.mono (fun _ _ h => on_close h) fun _ _ h => on_close h
end

/-! ## Requests -/

/-- **Every request goes along**, whatever its handles are and however it ends. -/
theorem request (h : Steady site R) (s : Store) (q : Request) : R s (q.run site s) := by
  cases q with
  | tasks origin role path => exact (h.tasks origin role none path).state s
  | playbook origin path => exact (h.playbook origin path).state s
  | role origin play name selection => exact (h.role origin play name selection).state s
  | directDependencies r => exact (h.direct r).state s
  | allDependencies r => exact (h.allDependencies r).state s
  | defaultVars r => exact (h.defaultVars r).state s
  | vars play task => exact (h.resolveVars play task).state s
  | taskVars x => exact (h.taskVars x).state s
  | module t x action => exact (h.renderModule x action).state s
  | text t x action => exact (h.renderText x action).state s
  | expandTask t n opened x => exact ((h.expandTask n x).state ⟨s, opened⟩).1
  | expandRole t n opened r => exact ((h.expandRoleOn n r []).state ⟨s, opened⟩).1
  | expandPlay t n opened p => exact ((h.expandPlay n p).state ⟨s, opened⟩).1
  | expandPlaybook t n opened pb => exact ((h.expandPlaybook n pb).state ⟨s, opened⟩).1

end Steady

/-- **Every run of requests goes along**, if each of its sites does. -/
theorem reaches_along {sites : Site → Prop} {R : Store → Store → Prop} [hR : IsPreorder Store R]
    (h : ∀ site, sites site → Steady site R) {s s' : Store}
      (hreaches : Reaches sites s s') : R s s' := by
  induction hreaches with
  | refl => exact hR.refl s
  | step _ hsite _ ih => exact hR.trans _ _ _ ih ((h _ hsite).request _ _)

end Runlist
