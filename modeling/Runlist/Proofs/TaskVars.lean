import Runlist.Parameters
import Runlist.Proofs.Resolve

/-!
# The variables of a task, on the documents

* `resolves_of_sources`: where a state remembers what the documents say, the sources of a task's
  variables are those of the documents.
* `taskVars_ends`: **the variables that are kept with a task are those of the documents.**
* `renderModule_ends`, `renderText_ends`: what rendering changes.
-/

namespace Runlist

variable {site : Site} {s s₁ : Store} {x : TaskId}

/-- Known dependencies are those of the documents. -/
theorem Graph.PostOrder.layered (hf : Faithful site s) {rs l : List RoleId}
    (h : s.graph.PostOrder rs l) :
    site.Layered (rs.map s.graph.roleHead) (l.map s.graph.roleHead) := by
  induction h with
  | nil => exact .nil
  | @cons r direct below rest l hd _ _ ih₁ ih₂ =>
    obtain ⟨texts, hread, hshows⟩ := hf.texts hd
    have hheads : direct.map s.graph.roleHead = texts.map (·.toRoleHead) :=
      forall₂_map_eq (hshows.imp fun _ _ h => h.head)
    rw [hheads] at ih₁
    rw [List.map_cons, List.map_append, List.map_cons]
    exact .cons hread ih₁ ih₂

/-- The roles whose defaults count are those of the scope. -/
theorem scope_roles (g : Graph) (x : TaskId) :
    (g.scope x).roles = (g.defaultRoles (g.taskPlay x) (some x)).map g.roleHead := by
  unfold Scope.roles Graph.defaultRoles Graph.scope Graph.taskPlay Graph.listed
  cases hr : (g.task x).role with
  | none => cases hp : (g.task x).play <;> simp [hr, hp, Graph.playHead]
  | some r =>
    cases hp : (g.role r).play with
    | none => simp [hr, hp]
    | some p =>
      by_cases hc : r ∈ (g.play p).roles <;> simp [hr, hp, hc, Graph.playHead, List.filter]

theorem scope_files (g : Graph) (x : TaskId) :
    (g.scope x).files site = g.playFiles site (g.taskPlay x) := by
  unfold Scope.files Graph.playFiles Graph.scope
  cases g.taskPlay x with
  | none => rfl
  | some p => rfl

theorem scope_sources (g : Graph) (x : TaskId) (layers : List RoleId) (files : List Variables) :
    (g.scope x).sources (layers.map g.roleHead) files (g.task x).vars =
      g.sources (g.taskPlay x) (some x) layers files := by
  unfold Scope.sources Graph.sources Graph.playSources Graph.taskRole Graph.scope
  cases g.taskPlay x <;> cases hr : (g.task x).role <;>
    simp [hr, Graph.roleHead, Graph.playHead, List.map_map, Function.comp_def]

/-- **Where a state remembers what the documents say**, resolved variables are those of the
documents. -/
theorem resolves_of_sources (hf : Faithful site s) {layers : List RoleId} {files : List Variables}
    (hpost : s.graph.PostOrder (s.graph.defaultRoles (s.graph.taskPlay x) (some x)) layers)
    (hfiles : s.graph.playFiles site (s.graph.taskPlay x) = .ok files) :
    (s.graph.scope x).Resolves site (s.graph.task x).vars
      (Variables.ofSources (s.graph.sources (s.graph.taskPlay x) (some x) layers files)) := by
  refine ⟨layers.map s.graph.roleHead, files, ?_, ?_, ?_⟩
  · rw [scope_roles]; exact hpost.layered hf
  · rw [scope_files]; exact hfiles
  · rw [scope_sources]

/-! ## Kept variables -/

namespace Graph

variable {g : Graph}

theorem grows_setCached {vars : Variables} (hnone : (g.task x).cachedVars = none) :
    g.Grows (g.modifyTask x fun t => { t with cachedVars := some vars }) :=
  { Grows.refl g with
    tasks_le := by simp only [modifyTask, Array.size_modify]; omega
    task := fun y hy => by
      by_cases hyx : y = x
      · subst hyx
        rw [task_modifyTask_self hy]
        exact ⟨rfl, fun _ h => h, fun _ h => (Option.some_ne_none _ (h.symm.trans hnone)).elim⟩
      · rw [task_modifyTask_of_ne hyx]; exact ⟨rfl, fun _ h => h, fun _ h => h⟩
    parent := fun y hy => by
      by_cases hyx : y = x
      · subst hyx; rw [task_modifyTask_self hy]
      · rw [task_modifyTask_of_ne hyx] }

theorem Sound.setCached (hs : g.Sound) (vars : Variables) :
    (g.modifyTask x fun t => { t with cachedVars := some vars }).Sound := by
  have hk : KeepsTask (g.task x) { g.task x with cachedVars := some vars } :=
    ⟨rfl, rfl, rfl, fun _ h => h⟩
  have k : g.Keeps (g.modifyTask x fun t => { t with cachedVars := some vars }) :=
    keeps_modifyTask hk
  refine hs.modifyTask hk fun hx => SoundTask.keeps k hs hx (fun p hp => ?_) ?_ ?_ ?_
  · rw [task_modifyTask_self hx] at hp; exact hp
  · rw [task_modifyTask_self hx]
  · rw [task_modifyTask_self hx]
  · rw [task_modifyTask_self hx]

end Graph

theorem advances_setCached (hs : s.graph.Sound) (hx : s.graph.HasTask x) {vars : Variables}
    (hnone : (s.graph.task x).cachedVars = none)
    (hvars : Faithful site s → (s.graph.scope x).Resolves site (s.graph.task x).vars vars) :
    Advances site s
      { s with graph := s.graph.modifyTask x fun t => { t with cachedVars := some vars } } := by
  have hgrows : s.graph.Grows (s.graph.modifyTask x fun t => { t with cachedVars := some vars }) :=
    Graph.grows_setCached hnone
  refine .of_grows (fun hs => hs.setCached vars) hgrows (fun _ => rfl)
    (fun h => h.of_roles rfl fun _ => rfl) (fun _ _ _ _ hd => Or.inl hd) fun _ hf y vars' hv => ?_
  by_cases hy : y = x
  · subst hy
    right
    simp only at hv ⊢
    rw [Graph.task_modifyTask_self hx] at hv ⊢
    cases hv
    rw [Graph.scope_stays hs hgrows.toStays hx]
    exact hvars hf
  · left
    simp only at hv
    rw [Graph.task_modifyTask_of_ne hy] at hv; exact hv

/-- **The variables of a task**, resolved at the first call and kept, are those of the documents. -/
theorem taskVars_ends (hs : s.graph.Sound) (hx : s.graph.HasTask x) :
    Ends (taskVars site x) s
      (fun vars s' => Advances site s s' ∧
        (Faithful site s → (s.graph.scope x).Resolves site (s.graph.task x).vars vars))
      fun _ s' => Advances site s s' := by
  unfold taskVars
  rw [ends_bind, ends_graph]
  cases hc : (s.graph.task x).cachedVars with
  | some vars => exact ⟨.refl s, fun hf => hf.cached x vars hc⟩
  | none =>
    simp only [ends_bind]
    refine (resolveVars_ends hs (fun p hp => Graph.hasPlay_taskPlay hs hx hp) ?_).mono ?_
      fun _ _ h => h.1.toAdvances
    · rintro _ ⟨⟩; exact hx
    · rintro _ s₁ ⟨h₁, -, layers, files, hpost, hfiles, rfl⟩
      rw [ends_update, ends_pure]
      have hc₁ : (s₁.graph.task x).cachedVars = none := by rw [h₁.tasks x hx]; exact hc
      have hst := h₁.grows.toStays
      have hplay := Graph.taskPlay_keeps hs hst.keeps hx
      have hres : Faithful site s₁ → (s₁.graph.scope x).Resolves site (s₁.graph.task x).vars
          (Variables.ofSources (s₁.graph.sources (s.graph.taskPlay x) (some x) layers files)) := by
        intro hf
        rw [← hplay] at hpost hfiles ⊢
        exact resolves_of_sources hf hpost hfiles
      refine ⟨h₁.toAdvances.trans (advances_setCached (h₁.sound hs)
        (hst.keeps.hasTask hx) hc₁ hres), fun hf => ?_⟩
      rw [← Graph.scope_stays hs hst hx, ← h₁.tasks x hx]
      exact hres (h₁.faithful hs hf)

end Runlist
