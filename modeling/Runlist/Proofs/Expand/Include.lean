import Runlist.Expand.Target
import Runlist.Proofs.TaskVars

/-!
# Parameters of includes

* `renderModule_ends`, `renderText_ends`: what rendering changes, and what it gives.
* `includeParams_ends`: **the parameters of an include are those of the documents.**
* `includeParams_fails`: parameters are wrong, or their variables cannot be loaded.
* `loadTasks_included`, `loadRole_included`: what a directive includes is loaded where the directive
  stands.
-/

namespace Runlist

variable {site : Site} {s : Store} {x : TaskId} {t : Templater}

theorem renderParams_ends (site : Site) {vars : Variables} {action : String} {params : Fields} :
    Ends (renderParams t vars action params) s
      (fun fields s' => Extends site s s' ∧ fields = renderedParams t vars params)
      fun _ _ => False := by
  induction params generalizing s with
  | nil => exact ⟨.refl s, rfl⟩
  | cons entry rest ih =>
    obtain ⟨key, value⟩ := entry
    unfold renderParams
    cases hv : renderValue t vars value with
    | ok v =>
      simp only [ends_bind, ends_pure]
      refine ih.mono ?_ fun _ _ h => h
      rintro _ s' ⟨h, rfl⟩
      exact ⟨h, by simp [renderedParams, hv, Except.toOption]⟩
    | error e =>
      simp only [ends_bind, ends_note]
      refine ih.mono ?_ fun _ _ h => h
      rintro _ s' ⟨h, rfl⟩
      have hnote :
          Extends site s { s with notices := s.notices ++ [.droppedParameter key action e] } :=
        extends_note s _
      exact ⟨hnote.trans h, by simp [renderedParams, hv, Except.toOption]⟩

theorem renderModule_ends (hs : s.graph.Sound) (hx : s.graph.HasTask x) {action : String} :
    Ends (renderModule site t x action) s
      (fun m s' => Advances site s s' ∧
        ∀ params, (s.graph.task x).raw.get? action = some (.object params) →
        ∃ vars, (Faithful site s → (s.graph.scope x).Resolves site (s.graph.task x).vars vars) ∧
          m = some ⟨renderedParams t vars params⟩)
      fun _ s' => Advances site s s' := by
  unfold renderModule
  rw [ends_bind, ends_graph]
  split
  · rename_i params hraw
    simp only [ends_bind]
    refine (taskVars_ends hs hx).mono ?_ fun _ _ h => h
    rintro vars s₁ ⟨h₁, hvars⟩
    refine (renderParams_ends site).mono ?_ fun _ _ h => h.elim
    rintro _ s₂ ⟨h₂, rfl⟩
    rw [ends_pure]
    refine ⟨h₁.trans h₂.advances, fun params' hraw' => ⟨vars, hvars, ?_⟩⟩
    rw [hraw] at hraw'
    cases hraw'
    rfl
  · rename_i hraw
    exact ⟨.refl s, fun params h => absurd h (hraw params)⟩

theorem renderText_ends (hs : s.graph.Sound) (hx : s.graph.HasTask x) {action : String} :
    Ends (renderText site t x action) s (fun _ s' => Advances site s s') fun _ s' =>
      Advances site s s' := by
  unfold renderText
  rw [ends_bind, ends_graph]
  split
  · simp only [ends_bind]
    refine (taskVars_ends hs hx).mono ?_ fun _ _ h => h
    rintro vars s₁ ⟨h₁, -⟩
    split
    · exact h₁
    · rw [ends_bind, ends_note, ends_pure]
      exact h₁.trans (extends_note s₁ _).advances
  · exact .refl s

section Expand

variable {e : Expansion} {textKey action : String}

theorem directiveValue_ends (hs : e.store.graph.Sound) (hx : e.store.graph.HasTask x) :
    Ends (directiveValue site t textKey x action) e
      (fun j e' => Advances site e.store e'.store ∧ (Faithful site e.store → ∃ value vars,
        (e.store.graph.task x).raw.get? action = some value ∧
        (e.store.graph.scope x).Resolves site (e.store.graph.task x).vars vars ∧
        includeValue t vars textKey value = some j))
      fun _ e' => Advances site e.store e'.store := by
  unfold directiveValue
  simp only [ends_bind, ends_expand_graph]
  split
  · rename_i text hraw
    rw [ends_bind, ends_load]
    refine (taskVars_ends hs hx).mono ?_ fun _ _ h => h
    rintro vars s₁ ⟨h₁, hvars⟩
    split
    · rename_i rendered hr
      refine ⟨h₁, fun hf => ⟨_, vars, hraw, hvars hf, ?_⟩⟩
      rw [includeValue, hr]; rfl
    · exact h₁
  · rename_i params hraw
    rw [ends_bind, ends_load]
    refine (renderModule_ends hs hx).mono ?_ fun _ _ h => h
    rintro m s₁ ⟨h₁, hm⟩
    obtain ⟨vars, hvars, rfl⟩ := hm params hraw
    exact ⟨h₁, fun hf => ⟨_, vars, hraw, hvars hf, rfl⟩⟩
  · exact .refl e.store

/-- **The parameters of an include are those of the documents.** -/
theorem includeParams_ends {α : Type} {read : Json → Except ShapeError α}
    (hs : e.store.graph.Sound) (hx : e.store.graph.HasTask x) :
    Ends (includeParams site t read textKey x action) e
      (fun params e' => Advances site e.store e'.store ∧ (Faithful site e.store → ∃ value vars j,
        (e.store.graph.task x).raw.get? action = some value ∧
        (e.store.graph.scope x).Resolves site (e.store.graph.task x).vars vars ∧
        includeValue t vars textKey value = some j ∧ read j = .ok params))
      fun _ e' => Advances site e.store e'.store := by
  unfold includeParams
  rw [ends_bind]
  refine (directiveValue_ends hs hx).mono ?_ fun _ _ h => h
  rintro j e₁ ⟨h₁, hj⟩
  split
  · rename_i params hread
    refine ⟨h₁, fun hf => ?_⟩
    obtain ⟨value, vars, hraw, hvars, hvalue⟩ := hj hf
    exact ⟨value, vars, j, hraw, hvars, hvalue, hread⟩
  · exact h₁

/-- Parameters cannot be read because they are wrong, or because the variables cannot be loaded. -/
theorem includeParams_fails {α : Type} (site : Site) (t : Templater)
    (read : Json → Except ShapeError α) (textKey action : String) (x : TaskId) (e : Expansion) :
    Ends (includeParams site t read textKey x action) e (fun _ _ => True)
      fun err _ => (∃ reason, err = .load reason) ∨
      ∃ reason, err = .invalidParams action reason := by
  have hload :
      ∀ (e : Expansion) {γ : Type} (step : Load γ), Ends (Expand.load step) e (fun _ _ => True)
      fun err _ => ∃ reason, err = .load reason :=
    fun e _ step => ends_load.2 (ends_iff.2 ⟨fun _ _ _ => trivial, fun err _ _ => ⟨err, rfl⟩⟩)
  have hvalue : Ends (directiveValue site t textKey x action) e (fun _ _ => True)
      fun err _ => (∃ reason, err = .load reason) ∨
      ∃ reason, err = .invalidParams action reason := by
    unfold directiveValue
    rw [ends_bind, ends_expand_graph]
    split
    · rw [ends_bind]
      refine (hload _ _).mono (fun vars _ _ => ?_) fun _ _ h => Or.inl h
      split
      · trivial
      · exact Or.inr ⟨_, rfl⟩
    · rw [ends_bind]
      refine (hload _ _).mono (fun m _ _ => ?_) fun _ _ h => Or.inl h
      split <;> trivial
    · exact Or.inr ⟨_, rfl⟩
  unfold includeParams
  rw [ends_bind]
  refine hvalue.mono (fun _ _ _ => ?_) fun _ _ h => h
  split
  · trivial
  · exact Or.inr ⟨_, rfl⟩

end Expand

/-! ## What is included -/

section Load

variable {s₁ : Store}

/-- **The tasks that a directive includes** are loaded where it stands, after its parameters were
read. -/
theorem loadTasks_included (hs : s.graph.Sound) (hx : s.graph.HasTask x) (h : Advances site s s₁)
    (path : FilePath) :
    Ends (loadTasksIn site (some (s.graph.task x).origin) (s.graph.task x).role
      (s.graph.task x).play path) s₁
      (fun xs s' => Extends site s₁ s' ∧ (∀ c ∈ xs, Graph.Stamped s₁.graph s'.graph
          ⟨path, (s.graph.task x).role, (s.graph.task x).play⟩
          (some (s.graph.task x).origin) none c) ∧
        ∃ ds, site.readTasks path = .ok ds ∧ s'.graph.ShowsAll path xs ds)
      fun err s' => Extends site s₁ s' ∧ site.readTasks path = .error err := by
  have hadmits := (hs.admits_included hx path).keeps h.grows.keeps
  exact (loadTasksIn_ends (h.sound hs) hadmits).mono (fun _ _ h => ⟨h.1, h.2.2⟩)
    fun _ _ h => ⟨h.1, h.2.2⟩

/-- **The role that a directive includes** is loaded in the play where the directive stands. -/
theorem loadRole_included (hs : s.graph.Sound) (hx : s.graph.HasTask x) (h : Advances site s s₁)
    (name : String) (selection : RoleSelection) :
    Ends (loadRoleWith site (some (s.graph.task x).origin) (s₁.graph.taskPlay x) name selection) s₁
      (fun r s' => Extends site s₁ s' ∧ ∃ role, s₁.readNamed site name selection = .ok role ∧
        LoadedRole site s₁ s' (some (s.graph.task x).origin) (s₁.graph.taskPlay x) r role)
      fun err s' => Extends site s₁ s' ∧ s₁.readNamed site name selection = .error err := by
  have ho : ∀ o, some (s.graph.task x).origin = some o → s₁.graph.HasOrigin o := by
    rintro _ ⟨⟩
    exact h.grows.keeps.hasOrigin (hs.tasks x hx).origin
  have hplay : ∀ p, s₁.graph.taskPlay x = some p → s₁.graph.HasPlay p :=
    fun p hp => Graph.hasPlay_taskPlay (h.sound hs) (h.grows.keeps.hasTask hx) hp
  exact loadRoleWith_ends (h.sound hs) ho hplay name selection

end Load

end Runlist
