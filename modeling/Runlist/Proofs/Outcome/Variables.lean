import Runlist.Proofs.Outcome.Dependencies

/-!
# Variables as the documents have them

* `resolveVars_follows`: **variables are those of the documents, or fail as these do.**
* `taskVars_follows`: so are those that are kept with a task.
* `includeParams_follows`: so are the parameters of a directive.
-/

namespace Runlist

variable {site : Site} {s s₁ : Store} {x : TaskId} {play : Option PlayId} {task : Option TaskId}

/-- **The defaults of some roles**, each over those of its dependencies, over variables. -/
theorem assignDefaults_follows (hs : s.graph.Sound) (hf : Faithful site s)
    (hordered : site.disk.tree.Ordered) {roles : List RoleId}
    (hroles : ∀ r ∈ roles, s.graph.HasRole r) {vars : Variables} (hvars : Fields.Sorted vars) :
    Ends (assignDefaults site vars roles) s
      (fun vars' s' => Learns site s s' ∧
        ∃ heads, concatEach site.layers (roles.map s.graph.namedHead) = .ok heads ∧
        vars' = (heads.map (·.defaults)).foldl Variables.assign vars)
      fun e s' => Learns site s s' ∧
      concatEach site.layers (roles.map s.graph.namedHead) = .error e := by
  induction roles generalizing vars s with
  | nil => exact ⟨.refl s, [], rfl, rfl⟩
  | cons r roles ih =>
    unfold assignDefaults at ih ⊢
    rw [List.foldlM_cons, List.map_cons, concatEach]
    simp only [ends_bind, ends_pure]
    refine (defaultVars_follows hs hf hordered (hroles r List.mem_cons_self)).mono ?_ ?_
    · rintro _ s₁ ⟨h₁, heads, hheads, hsorted, rfl⟩
      have hothers : ∀ q ∈ roles, s.graph.HasRole q :=
        fun q hq => hroles q (List.mem_cons_of_mem _ hq)
      have hnames : roles.map s₁.graph.namedHead = roles.map s.graph.namedHead :=
        List.map_congr_left fun q hq => Graph.namedHead_stays h₁.grows.toStays (hothers q hq)
      have hassign : Variables.assign vars (Variables.ofSources (heads.map (·.defaults))) =
          (heads.map (·.defaults)).foldl Variables.assign vars := by
        refine Variables.assign_ofSources hvars fun source hsource => ?_
        obtain ⟨head, hhead, rfl⟩ := List.mem_map.1 hsource
        exact hsorted head hhead
      refine (ih (h₁.sound hs) (h₁.faithful hs hf)
        (fun q hq => h₁.grows.keeps.hasRole (hothers q hq))
        (Variables.sorted_assign hvars)).mono ?_ ?_
      · rintro vars' s₂ ⟨h₂, heads', hheads', rfl⟩
        rw [hnames] at hheads'
        refine ⟨h₁.trans h₂, heads ++ heads', ?_, ?_⟩
        · rw [hheads, hheads']; rfl
        · rw [hassign, List.map_append, List.foldl_append]
      · rintro e s₂ ⟨h₂, hfail⟩
        rw [hnames] at hfail
        refine ⟨h₁.trans h₂, ?_⟩
        rw [hheads, hfail]; rfl
    · rintro e s₁ ⟨h₁, hfail⟩
      refine ⟨h₁, ?_⟩
      rw [hfail]; rfl

theorem playVars_eq (g : Graph) (play : Option PlayId) :
    site.playVars (play.map g.playPlace) = g.playFiles site play := by
  cases play <;> rfl

theorem sources_eq (g : Graph) (files : List Variables) (play : Option PlayId) :
    PlayPlace.sources files (play.map g.playPlace) = g.playSources files play := by
  cases play with
  | none => rfl
  | some p =>
    show (g.play p).vars :: files ++ ((g.play p).roles.map g.namedHead).map (·.vars) = _
    rw [List.map_map]; rfl

/-- The variables that count more than those of a play. -/
def Graph.ownVars (g : Graph) (task : Option TaskId) : List Variables :=
  (g.taskRole task).toList.map (fun r => (g.role r).vars) ++ task.toList.map fun x =>
    (g.task x).vars

theorem Graph.ownVars_stays {g g' : Graph} (hs : g.Sound) (h : g.Stays g')
    (hx : ∀ x, task = some x → g.HasTask x) : g'.ownVars task = g.ownVars task := by
  cases task with
  | none => rfl
  | some x =>
    have hsame := (h.task x (hx x rfl)).same
    have hrole : (g'.task x).role = (g.task x).role := by rw [hsame]
    have hvars : (g'.task x).vars = (g.task x).vars := by rw [hsame]
    show (g'.task x).role.toList.map (fun r => (g'.role r).vars) ++ [(g'.task x).vars] =
      (g.task x).role.toList.map (fun r => (g.role r).vars) ++ [(g.task x).vars]
    rw [hrole, hvars]
    congr 1
    refine List.map_congr_left fun r hr => ?_
    rw [(h.role r ((hs.tasks x (hx x rfl)).role r (Option.mem_toList.1 hr))).same]

section Resolve

variable (hs : s.graph.Sound) (hp : ∀ p, play = some p → s.graph.HasPlay p)
  (hx : ∀ x, task = some x → s.graph.HasTask x)
include hs hp hx

/-- **Variables are those of the documents**, or fail as these do. -/
theorem resolveVars_follows (hf : Faithful site s) (hordered : site.disk.tree.Ordered) :
    Ends (resolveVars site play task) s
      (fun vars s' => Learns site s s' ∧
        site.resolve ((s.graph.defaultRoles play task).map s.graph.namedHead)
        (play.map s.graph.playPlace) (s.graph.ownVars task) = .ok vars)
      fun e s' => Learns site s s' ∧
      site.resolve ((s.graph.defaultRoles play task).map s.graph.namedHead)
        (play.map s.graph.playPlace) (s.graph.ownVars task) = .error e := by
  unfold resolveVars
  simp only [ends_bind, ends_graph]
  refine (assignDefaults_follows hs hf hordered (hasRole_defaultRoles hs hp hx)
    Fields.sorted_nil).mono ?_ ?_
  · rintro _ s₁ ⟨h₁, heads, hheads, rfl⟩
    refine assignPlay_ends.mono ?_ ?_
    · rintro _ s₂ ⟨h₂, hg, files, hfiles, rfl⟩
      refine assignTask_ends.mono ?_ fun _ _ h => h.elim
      rintro _ _ ⟨rfl, rfl⟩
      refine ⟨h₁.trans h₂.learns, ?_⟩
      rw [playFiles_grows hs hp h₁.grows, ← playVars_eq] at hfiles
      have hst := h₁.grows.toStays
      have hsources : s₁.graph.playSources files play =
          PlayPlace.sources files (play.map s.graph.playPlace) := by
        rw [← sources_eq, Graph.playPlaces_stays hs hst hp]
      have hown : (s₁.graph.taskRole task).toList.map (fun r => (s₁.graph.role r).vars) ++
          task.toList.map (fun x => (s₁.graph.task x).vars) = s.graph.ownVars task :=
        Graph.ownVars_stays hs hst hx
      rw [Site.resolve, hheads, hfiles, hg, hown, hsources, ← List.foldl_append,
        ← List.foldl_append, ← List.append_assoc]
      rfl
    · rintro e s₂ ⟨h₂, hfail⟩
      rw [playFiles_grows hs hp h₁.grows, ← playVars_eq] at hfail
      refine ⟨h₁.trans h₂.learns, ?_⟩
      rw [Site.resolve, hheads, hfail]; rfl
  · rintro e s₁ ⟨h₁, hfail⟩
    refine ⟨h₁, ?_⟩
    rw [Site.resolve, hfail]; rfl

end Resolve

/-! ## The variables of a task -/

/-- A play without the names of its roles. -/
def PlayPlace.head (p : PlayPlace) : PlayHead :=
  ⟨p.path, p.vars, p.varsFiles, p.roles.map (·.toRoleHead)⟩

/-- The place without the names of roles. -/
def Place.scope (place : Place) : Scope where
  play := place.play.map PlayPlace.head
  role := place.role.map (·.toRoleHead)
  listed := place.listed

theorem Place.scope_roles (place : Place) : place.scope.roles = place.roles.map (·.toRoleHead) := by
  obtain ⟨play, role, listed⟩ := place
  cases play <;> cases role <;> cases listed <;>
    simp [Scope.roles, Place.roles, Place.scope, PlayPlace.head]

/-- **Variables can be resolved with the names of roles** exactly if they can without. -/
theorem Place.resolve_iff {place : Place} {own vars : Variables}
    (hreal : ∀ head ∈ place.roles, head.Real site) :
    place.resolve site own = .ok vars ↔ place.scope.Resolves site own vars := by
  have hfiles : place.scope.files site = site.playVars place.play := by
    obtain ⟨play, role, listed⟩ := place
    cases play <;> rfl
  have hsources :
      ∀ (heads : List NamedHead) files, place.scope.sources (heads.map (·.toRoleHead)) files own =
      heads.map (·.defaults) ++ PlayPlace.sources files place.play ++
        (place.role.toList.map (·.vars) ++ [own]) := by
    intro heads files
    obtain ⟨play, role, listed⟩ := place
    cases play <;> cases role <;>
      simp [Scope.sources, Place.scope, PlayPlace.head, PlayPlace.sources, List.map_map,
        Function.comp_def]
  unfold Place.resolve Site.resolve Scope.Resolves
  rw [except_bind_ok, Place.scope_roles, hfiles]
  constructor
  · rintro ⟨heads, hheads, h⟩
    obtain ⟨files, hread, h⟩ := except_bind_ok.1 h
    cases h
    refine ⟨_, files, ((layers_iff_stacked hreal).1 hheads).layered, hread, ?_⟩
    rw [hsources]
  · rintro ⟨layers, files, hlayers, hread, rfl⟩
    obtain ⟨heads, hheads, rfl⟩ := hlayers.stacked rfl
    refine ⟨heads, (layers_iff_stacked hreal).2 hheads, except_bind_ok.2 ⟨files, hread, ?_⟩⟩
    rw [hsources]; rfl

namespace Graph

variable {g : Graph}

theorem playPlace_head (g : Graph) (p : PlayId) : (g.playPlace p).head = g.playHead p := by
  rw [PlayPlace.head, Graph.playPlace, Graph.playHead, List.map_map]; rfl

theorem place_scope (g : Graph) (x : TaskId) : (g.place x).scope = g.scope x := by
  unfold Place.scope Graph.place Graph.scope
  congr 1
  · cases g.taskPlay x with
    | none => rfl
    | some p => exact congrArg some (g.playPlace_head p)
  · cases (g.task x).role <;> rfl

/-- The roles whose defaults count are those of the place. -/
theorem place_roles (g : Graph) (x : TaskId) :
    (g.place x).roles = (g.defaultRoles (g.taskPlay x) (some x)).map g.namedHead := by
  unfold Place.roles Graph.defaultRoles Graph.place Graph.taskPlay Graph.listed
  cases hr : (g.task x).role with
  | none => cases hp : (g.task x).play <;> simp [hr, hp, Graph.playPlace]
  | some r =>
    cases hp : (g.role r).play with
    | none => simp [hr, hp]
    | some p =>
      by_cases hc : r ∈ (g.play p).roles <;> simp [hr, hp, hc, Graph.playPlace, List.filter]

/-- The variables of a task are resolved in its place. -/
theorem place_resolve (g : Graph) (x : TaskId) : (g.place x).resolve site (g.task x).vars =
    site.resolve ((g.defaultRoles (g.taskPlay x) (some x)).map g.namedHead)
      ((g.taskPlay x).map g.playPlace)
      (g.ownVars (some x)) := by
  rw [Place.resolve, place_roles]
  congr 1
  rw [Graph.ownVars, Graph.taskRole]
  show ((g.task x).role.map g.namedHead).toList.map (·.vars) ++ [(g.task x).vars] =
    (g.task x).role.toList.map (fun r => (g.role r).vars) ++ [(g.task x).vars]
  cases (g.task x).role <;> rfl

end Graph

theorem Faithful.placeReal (hf : Faithful site s) (hordered : site.disk.tree.Ordered)
    (hs : s.graph.Sound) (hx : s.graph.HasTask x) :
    ∀ head ∈ (s.graph.place x).roles, head.Real site := by
  intro head hhead
  rw [Graph.place_roles] at hhead
  obtain ⟨r, hr, rfl⟩ := List.mem_map.1 hhead
  refine hf.namedReal hordered
    (hasRole_defaultRoles hs (fun p hp => Graph.hasPlay_taskPlay hs hx hp) ?_ r hr)
  rintro _ ⟨⟩; exact hx

/-- **The variables of a task**, kept or not, are those of the documents, or fail as these do. -/
theorem taskVars_follows (hs : s.graph.Sound) (hf : Faithful site s)
    (hordered : site.disk.tree.Ordered) (hx : s.graph.HasTask x) : Ends (taskVars site x) s
      (fun vars s' => Advances site s s' ∧
        (s.graph.place x).resolve site (s.graph.task x).vars = .ok vars)
      fun e s' => Advances site s s' ∧
      (s.graph.place x).resolve site (s.graph.task x).vars = .error e := by
  suffices h : Ends (taskVars site x) s
      (fun vars _ => (s.graph.place x).resolve site (s.graph.task x).vars = .ok vars)
      fun e _ => (s.graph.place x).resolve site (s.graph.task x).vars = .error e from
    ((taskVars_ends hs hx).and h).mono (fun _ _ h => ⟨h.1.1, h.2⟩) fun _ _ h => h
  unfold taskVars
  rw [ends_bind, ends_graph]
  cases hc : (s.graph.task x).cachedVars with
  | some vars =>
    rw [ends_pure, Place.resolve_iff (hf.placeReal hordered hs hx), Graph.place_scope]
    exact hf.cached x vars hc
  | none =>
    simp only [ends_bind]
    rw [Graph.place_resolve]
    refine (resolveVars_follows hs (fun p hp => Graph.hasPlay_taskPlay hs hx hp) ?_ hf
      hordered).mono ?_
      fun _ _ h => h.2
    · rintro _ ⟨⟩; exact hx
    · rintro vars s₁ ⟨-, hvars⟩
      rw [ends_update, ends_pure]; exact hvars

/-! ## The parameters of a directive -/

section Expand

variable {t : Templater} {e : Expansion} {textKey action : String}

theorem renderModule_follows (hs : s.graph.Sound) (hf : Faithful site s)
    (hordered : site.disk.tree.Ordered) (hx : s.graph.HasTask x) {params : Fields}
    (hraw : (s.graph.task x).raw.get? action = some (.object params)) :
    Ends (renderModule site t x action) s
      (fun m s' => Advances site s s' ∧ ∃ vars,
        (s.graph.place x).resolve site (s.graph.task x).vars = .ok vars ∧
        m = some ⟨renderedParams t vars params⟩)
      fun e s' => Advances site s s' ∧
      (s.graph.place x).resolve site (s.graph.task x).vars = .error e := by
  unfold renderModule
  rw [ends_bind, ends_graph, hraw]
  simp only [ends_bind]
  refine (taskVars_follows hs hf hordered hx).mono ?_ fun _ _ h => h
  rintro vars s₁ ⟨h₁, hvars⟩
  refine (renderParams_ends site).mono ?_ fun _ _ h => h.elim
  rintro _ s₂ ⟨h₂, rfl⟩
  rw [ends_pure]
  exact ⟨h₁.trans h₂.advances, vars, hvars, rfl⟩

/-- The rendered value of a directive is that of the documents, or fails as this does. -/
theorem directiveValue_follows (hs : e.store.graph.Sound) (hf : Faithful site e.store)
    (hordered : site.disk.tree.Ordered) (hx : e.store.graph.HasTask x) :
    Ends (directiveValue site t textKey x action) e
      (fun j e' => Advances site e.store e'.store ∧ e'.opened = e.opened ∧
        (e.store.graph.taskNode x).value site t textKey action = .ok j)
      fun err e' => Advances site e.store e'.store ∧ e'.opened = e.opened ∧
        (e.store.graph.taskNode x).value site t textKey action = .error err.bare := by
  obtain ⟨hplace, -, hvars, hraw, -⟩ := e.store.graph.taskNode_fields x
  unfold directiveValue TaskNode.value
  rw [hplace, hvars, hraw]
  simp only [ends_bind, ends_expand_graph]
  -- a text is evaluated, parameters are rendered, and nothing else is a value
  cases hget : (e.store.graph.task x).raw.get? action with
  | none => exact ⟨.refl _, rfl, rfl⟩
  | some shape =>
    cases shape with
    | string text =>
      dsimp only
      rw [ends_bind, ends_load]
      refine (taskVars_follows hs hf hordered hx).mono ?_ ?_
      · rintro vars s₁ ⟨h₁, hvars⟩
        rw [hvars]
        cases ht : t.evaluate text vars with
        | ok rendered =>
          refine ⟨h₁, rfl, except_bind_ok.2 ⟨vars, rfl, ?_⟩⟩
          rw [ht]; rfl
        | error reason =>
          refine ⟨h₁, rfl, except_bind_error.2 (Or.inr ⟨vars, rfl, ?_⟩)⟩
          rw [ht]; rfl
      · rintro err s₁ ⟨h₁, hfail⟩
        rw [hfail]
        exact ⟨h₁, rfl, rfl⟩
    | object params =>
      dsimp only
      rw [ends_bind, ends_load]
      refine (renderModule_follows hs hf hordered hx hget).mono ?_ ?_
      · rintro _ s₁ ⟨h₁, vars, hvars, rfl⟩
        rw [hvars]
        exact ⟨h₁, rfl, rfl⟩
      · rintro err s₁ ⟨h₁, hfail⟩
        rw [hfail]
        exact ⟨h₁, rfl, rfl⟩
    | _ => exact ⟨.refl _, rfl, rfl⟩

/-- **The parameters of an include** are those of the documents, or fail as these do. -/
theorem includeParams_follows {α : Type} {read : Json → Except ShapeError α}
    (hs : e.store.graph.Sound) (hf : Faithful site e.store) (hordered : site.disk.tree.Ordered)
    (hx : e.store.graph.HasTask x) :
    Ends (includeParams site t read textKey x action) e
      (fun params e' => Advances site e.store e'.store ∧ e'.opened = e.opened ∧
        (e.store.graph.taskNode x).params site t read textKey action = .ok params)
      fun err e' => Advances site e.store e'.store ∧ e'.opened = e.opened ∧
        (e.store.graph.taskNode x).params site t read textKey action = .error err.bare := by
  unfold includeParams TaskNode.params
  rw [ends_bind]
  refine (directiveValue_follows hs hf hordered hx).mono ?_ ?_
  · rintro j e₁ ⟨h₁, hopened, hj⟩
    rw [hj]
    cases hread : read j with
    | ok params =>
      refine ⟨h₁, hopened, except_bind_ok.2 ⟨j, rfl, ?_⟩⟩
      rw [hread]; rfl
    | error reason =>
      refine ⟨h₁, hopened, except_bind_error.2 (Or.inr ⟨j, rfl, ?_⟩)⟩
      rw [hread]; rfl
  · rintro err e₁ ⟨h₁, hopened, hfail⟩
    rw [hfail]
    exact ⟨h₁, hopened, rfl⟩

end Expand

end Runlist
