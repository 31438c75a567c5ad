import Runlist.Resolve
import Runlist.Proofs.Load.Names

/-!
# Where variables come from

* `Graph.sources`: what gives a task its variables, the last one first to count.
* `Graph.Faulty`, `Graph.badFile`: what is wrong with the roles and the files of variables.
* `resolveVars_ends`: **variables are resolved unless one of these is wrong**, and then they are the
  sources laid over one another.
-/

namespace Runlist

open Relation (ReflTransGen)

variable {site : Site} {s s₁ s₂ : Store} {play : Option PlayId} {task : Option TaskId}

namespace Graph

variable {g g' : Graph} {rs l rs' l' : List RoleId} {p : PlayId} {r : RoleId}

/-- The role of a task. -/
def taskRole (g : Graph) (task : Option TaskId) : Option RoleId :=
  task.bind fun x => (g.task x).role

/-- What gives the tasks of a play their variables, besides defaults: its variables, its files and
the variables of its roles. -/
def playSources (g : Graph) (files : List Variables) : Option PlayId → List Variables
  | none => []
  | some p => (g.play p).vars :: files ++ (g.play p).roles.map fun r => (g.role r).vars

/-- **What gives a task its variables**: the defaults of roles in their order, what its play gives,
the variables of its role, and its own. -/
def sources (g : Graph) (play : Option PlayId) (task : Option TaskId) (layers : List RoleId)
    (files : List Variables) : List Variables :=
  layers.map (fun r => (g.role r).defaults) ++ g.playSources files play ++
    ((g.taskRole task).toList.map (fun r => (g.role r).vars) ++ task.toList.map fun x =>
      (g.task x).vars)

/-- The directory in which a play names files of variables. -/
def playDir (g : Graph) (p : PlayId) : FilePath := (g.origin (g.play p).origin).path.directory

/-- The variables in the files of a play, those left out whose name is a template. -/
def playFiles (g : Graph) (site : Site) : Option PlayId → Except LoadError (List Variables)
  | none => .ok []
  | some p => site.readVarsFiles (g.playDir p) (g.play p).varsFiles

theorem PostOrder.append (h : g.PostOrder rs l) (h' : g.PostOrder rs' l') :
    g.PostOrder (rs ++ rs') (l ++ l') := by
  induction h with
  | nil => exact h'
  | cons hd hbelow _ _ ih =>
    rw [List.append_assoc, List.cons_append, List.cons_append]
    exact .cons hd hbelow ih

theorem PostOrder.hasRole (hs : g.Sound) (h : g.PostOrder rs l) : ∀ r ∈ l, g.HasRole r := by
  induction h with
  | nil => exact fun _ h => (List.not_mem_nil h).elim
  | cons hd _ _ ih₁ ih₂ =>
    intro q hq
    rcases List.mem_append.1 hq with hq | hq
    · exact ih₁ q hq
    · rcases List.mem_cons.1 hq with rfl | hq
      · exact hs.hasRole_of_direct hd
      · exact ih₂ q hq

/-- The defaults of loaded roles stay. -/
theorem defaults_grows (h : g.Grows g') (hl : ∀ r ∈ l, g.HasRole r) :
    l.map (fun r => (g'.role r).defaults) = l.map fun r => (g.role r).defaults :=
  List.map_congr_left fun r hr => by rw [(h.role r (hl r hr)).same]

/-- A play's roles are nobody's dependencies. -/
theorem Sound.not_depends_playRole (hs : g.Sound) (hp : g.HasPlay p) (hr : r ∈ (g.play p).roles)
    (q : RoleId) : ¬ g.Depends q r := by
  intro hd
  obtain ⟨definition, m, -, hm, -, hlin⟩ := hs.lineage_depends hd
  obtain ⟨d, hin, hst⟩ := (hs.plays p hp).roles r hr
  rw [hs.origins.lineage (hs.roles r hst.has).origin hst.origin,
    hs.origins.lineage hin.has hin.origin, lineage_cons g (g.play p).origin] at hlin
  simp only [List.cons.injEq, true_and] at hlin
  rw [← hlin.2.1, (hs.plays p hp).kind] at hm
  cases hm

end Graph

/-! ## Defaults -/

/-- Variables that are the defaults of some roles over those of their dependencies. -/
def Graph.Layers (g : Graph) (rs : List RoleId) (vars : Variables) : Prop :=
  ∃ layers, g.PostOrder rs layers ∧
    vars = Variables.ofSources (layers.map fun r => (g.role r).defaults)

theorem Graph.Layers.grows {g g' : Graph} {rs : List RoleId} {vars : Variables} (hs : g.Sound)
    (hg : g.Grows g') (h : g.Layers rs vars) : g'.Layers rs vars := by
  obtain ⟨layers, hpost, rfl⟩ := h
  refine ⟨layers, hpost.keeps hg.keeps fun _ _ h => hs.hasRole_of_direct h, ?_⟩
  rw [Graph.defaults_grows hg (hpost.hasRole hs)]

/-- The defaults of one more role. -/
theorem Graph.Layers.assign {g : Graph} {rs found : List RoleId} {r : RoleId} {vars : Variables}
    (hs : g.Sound) (h : g.Layers rs vars) (hfound : (g.role r).allDependencies = some found) :
    g.Layers (rs ++ [r])
      (vars.assign (Variables.ofSources ((found ++ [r]).map fun r => (g.role r).defaults))) := by
  obtain ⟨layers, hpost, rfl⟩ := h
  have hr : g.HasRole r := by
    by_contra hn
    rw [Graph.role_of_not_has hn] at hfound; cases hfound
  obtain ⟨ds, hds, hdeps, -⟩ := (hs.roles r hr).all found hfound
  have hone : g.PostOrder [r] (found ++ [r]) := .cons hds hdeps .nil
  have hsorted :
      ∀ source ∈ (found ++ [r]).map (fun r => (g.role r).defaults), Fields.Sorted source := by
    intro source hsource
    obtain ⟨q, hq, rfl⟩ := List.mem_map.1 hsource
    exact (hs.roles q (hone.hasRole hs q hq)).defaults
  refine ⟨layers ++ (found ++ [r]), hpost.append hone, ?_⟩
  rw [Variables.assign_ofSources (Variables.sorted_ofSources _) hsorted, Variables.ofSources,
    Variables.ofSources, ← List.foldl_append, ← List.map_append]

theorem defaultVars_ends {r : RoleId} (hs : s.graph.Sound) (hr : s.graph.HasRole r) :
    Ends (defaultVars site r) s
      (fun vars s' => ∃ found, Visit site (s.readRole site · .main) [] s s' r found ∧
        vars = Variables.ofSources ((found ++ [r]).map fun r => (s'.graph.role r).defaults))
      fun _ s' => Learns site s s' ∧ s.graph.Faulty (s.readRole site · .main) [] r := by
  unfold defaultVars
  rw [ends_bind]
  refine (allDependencies_ends hs hr).mono ?_ fun _ _ h => h
  intro found s' hv
  rw [ends_bind, ends_graph, ends_pure]
  refine ⟨found, hv, ?_⟩
  rw [Variables.ofSources, List.foldl_map]

/-- **The defaults of some roles**, each over those of its dependencies. -/
theorem assignDefaults_ends (hs : s.graph.Sound) {front rest : List RoleId} {vars : Variables}
    (h : Progress site (s.readRole site · .main) [] s s₁ front rest)
    (hvars : s₁.graph.Layers front vars) :
    Ends (assignDefaults site vars rest) s₁
      (fun vars s₂ => Progress site (s.readRole site · .main) [] s s₂ (front ++ rest) [] ∧
        s₂.graph.Layers (front ++ rest) vars)
      fun _ s₂ => Learns site s s₂ ∧ ∃ r ∈ rest, s.graph.Faulty (s.readRole site · .main) [] r := by
  induction rest generalizing front vars s₁ with
  | nil =>
    unfold assignDefaults
    rw [List.foldlM_nil, ends_pure, List.append_nil]
    exact ⟨h, hvars⟩
  | cons r rest ih =>
    have hs₁ := h.learns.sound hs
    have hr := h.learns.grows.keeps.hasRole (h.has r List.mem_cons_self)
    have hread : (s₁.readRole site · .main) = (s.readRole site · .main) :=
      funext fun name => h.learns.readRole name .main
    unfold assignDefaults at ih ⊢
    rw [List.foldlM_cons]
    simp only [ends_bind, ends_pure]
    refine (defaultVars_ends hs₁ hr).mono ?_ ?_
    · rintro _ s₂ ⟨found, hv, rfl⟩
      rw [hread] at hv
      have hlayers := (hvars.grows hs₁ hv.learns.grows).assign (hv.learns.sound hs₁) hv.known
      refine (ih (h.step hs hv) hlayers).mono ?_ ?_
      · intro vars' s₃ h₃
        rw [List.append_assoc] at h₃
        exact h₃
      · rintro e s₃ ⟨h₃, q, hq, hf⟩
        exact ⟨h₃, q, List.mem_cons_of_mem _ hq, hf⟩
    · rintro e s₂ ⟨h₂, hf⟩
      rw [hread] at hf
      exact ⟨h.learns.trans h₂, r, List.mem_cons_self, (h.pending r List.mem_cons_self).faulty hf⟩

/-! ## Plays and tasks -/

/-- The files of variables of a play, one over the other. -/
theorem assignFiles_ends {dir : FilePath} {vars : Variables} {files : List String} :
    Ends (assignFiles site dir vars files) s
      (fun vars' s' => Extends site s s' ∧ s'.graph = s.graph ∧ ∃ more,
        site.readVarsFiles dir files = .ok more ∧ vars' = more.foldl Variables.assign vars)
      fun e s' => Extends site s s' ∧ site.readVarsFiles dir files = .error e := by
  induction files generalizing vars s with
  | nil => exact ⟨.refl s, rfl, [], rfl, rfl⟩
  | cons file files ih =>
    unfold assignFiles Site.readVarsFiles at ih ⊢
    rw [List.foldlM_cons, ends_bind, List.filter_cons]
    by_cases ht : Text.occursIn "\x7b\x7b".toList file.toList = true
    -- a file with an expression in its name is passed over
    · simp only [ht, if_true, Bool.not_true, Bool.false_eq_true, if_false, ends_bind,
        ends_note, ends_pure]
      have hext : Extends site s { s with notices := s.notices ++ [.templatedVarsFile file] } :=
        extends_note s _
      refine ih.mono ?_ ?_
      · rintro vars' s' ⟨h, hg, hmore⟩
        exact ⟨hext.trans h, hg, hmore⟩
      · rintro e s' ⟨h, he⟩
        exact ⟨hext.trans h, he⟩
    · simp only [ht, if_true, Bool.not_false, Bool.false_eq_true, if_false, List.mapM_cons]
      cases hload : loadVarsFile site dir file with
      | error e =>
        rw [ends_throw]
        exact ⟨.refl s, rfl⟩
      | ok more =>
        rw [ends_pure]
        refine ih.mono ?_ ?_
        · rintro vars' s' ⟨h, hg, rest, hrest, hvars⟩
          rw [hrest]
          exact ⟨h, hg, more :: rest, rfl, hvars⟩
        · rintro e s' ⟨h, he⟩
          rw [he]
          exact ⟨h, rfl⟩

theorem assignPlay_ends {vars : Variables} : Ends (assignPlay site vars play) s
    (fun vars' s' => Extends site s s' ∧ s'.graph = s.graph ∧
      ∃ files, s.graph.playFiles site play = .ok files ∧
      vars' = (s.graph.playSources files play).foldl Variables.assign vars)
    fun e s' => Extends site s s' ∧ s.graph.playFiles site play = .error e := by
  cases play with
  | none => exact ⟨.refl s, rfl, [], rfl, rfl⟩
  | some p =>
    unfold assignPlay
    simp only [ends_bind, ends_graph]
    refine assignFiles_ends.mono ?_ ?_
    · rintro vars' s' ⟨h, hg, files, hfiles, rfl⟩
      rw [ends_pure]
      refine ⟨h, hg, files, hfiles, ?_⟩
      rw [assignRoleVars, hg, Graph.playSources, List.cons_append, List.foldl_cons,
        List.foldl_append, List.foldl_map]
    · exact fun e s' h => h

theorem assignTask_ends {vars : Variables} : Ends (assignTask vars task) s
    (fun vars' s' => s' = s ∧
      vars' = ((s.graph.taskRole task).toList.map (fun r => (s.graph.role r).vars) ++
      task.toList.map fun x => (s.graph.task x).vars).foldl Variables.assign vars)
    fun _ _ => False := by
  cases task with
  | none => exact ⟨rfl, rfl⟩
  | some x =>
    unfold assignTask
    rw [ends_bind, ends_graph, ends_pure]
    refine ⟨rfl, ?_⟩
    rw [List.foldl_append]
    show Variables.assign _ _ = Variables.assign _ _
    rw [assignRoleVars, List.foldl_map]
    rfl

/-! ## Variables -/

theorem defaultRoles_grows (hp : ∀ p, play = some p → s.graph.HasPlay p)
    (hx : ∀ x, task = some x → s.graph.HasTask x) (h : s.graph.Grows s₁.graph) :
    s₁.graph.defaultRoles play task = s.graph.defaultRoles play task := by
  have hplay : (play.map fun p => (s₁.graph.play p).roles) = play.map fun p =>
    (s.graph.play p).roles := by
    cases play with
    | none => rfl
    | some p => exact congrArg (fun p : Play => some p.roles) (h.play p (hp p rfl))
  have htask : (task.bind fun x => (s₁.graph.task x).role) = task.bind fun x =>
    (s.graph.task x).role := by
    cases task with
    | none => rfl
    | some x => exact (h.keeps.task x (hx x rfl)).role
  rw [Graph.defaultRoles, Graph.defaultRoles, hplay, htask]

theorem playFiles_grows (hs : s.graph.Sound) (hp : ∀ p, play = some p → s.graph.HasPlay p)
    (h : s.graph.Grows s₁.graph) : s₁.graph.playFiles site play = s.graph.playFiles site play := by
  cases play with
  | none => rfl
  | some p =>
    have hp := hp p rfl
    rw [Graph.playFiles, Graph.playFiles, Graph.playDir, Graph.playDir, h.play p hp,
      h.origin _ (hs.plays p hp).origin]

section Roles

variable (hs : s.graph.Sound) (hp : ∀ p, play = some p → s.graph.HasPlay p)
  (hx : ∀ x, task = some x → s.graph.HasTask x)
include hs hp hx

theorem hasRole_defaultRoles : ∀ r ∈ s.graph.defaultRoles play task, s.graph.HasRole r := by
  intro r hr
  rcases List.mem_append.1 hr with hr | hr
  · cases play with
    | none => cases hr
    | some p =>
      obtain ⟨_, _, hst⟩ := (hs.plays p (hp p rfl)).roles r hr
      exact hst.has
  · have hr := Option.mem_toList.1 (List.mem_of_mem_filter hr)
    obtain ⟨x, hx', hr⟩ := Option.bind_eq_some_iff.1 hr
    exact (hs.tasks x (hx x hx')).role r hr

omit hx in
/-- None of the roles is above one before it. -/
theorem defaultRoles_apart : (s.graph.defaultRoles play task).Pairwise
    fun d d' => d' = d ∨ ¬ ReflTransGen s.graph.Depends d' d := by
  have top :
      ∀ r ∈ (play.map fun p => (s.graph.play p).roles).getD [], ∀ q, ¬ s.graph.Depends q r := by
    intro r hr
    cases play with
    | none => cases hr
    | some p => exact hs.not_depends_playRole (hp p rfl) hr
  have apart : ∀ r ∈ (play.map fun p => (s.graph.play p).roles).getD [], ∀ q,
      q = r ∨ ¬ ReflTransGen s.graph.Depends q r := by
    intro r hr q
    by_cases hb : ReflTransGen s.graph.Depends q r
    · exact Or.inl (Graph.eq_of_below hb (top r hr))
    · exact Or.inr hb
  unfold Graph.defaultRoles
  rw [List.pairwise_append]
  refine ⟨List.pairwise_of_forall_mem_list fun r hr q _ => apart r hr q, ?_,
    fun r hr q _ => apart r hr q⟩
  refine List.Pairwise.filter _ ?_
  cases task.bind fun x => (s.graph.task x).role with
  | none => exact List.Pairwise.nil
  | some r => exact List.pairwise_singleton _ r

/-- **Variables are resolved unless something is wrong** with a role or a file, and then they are
their sources laid over one another. -/
theorem resolveVars_ends : Ends (resolveVars site play task) s
    (fun vars s' => Learns site s s' ∧
      (∀ r ∈ s.graph.defaultRoles play task, ¬ s.graph.Faulty (s.readRole site · .main) [] r) ∧
      ∃ layers files, s'.graph.PostOrder (s'.graph.defaultRoles play task) layers ∧
        s'.graph.playFiles site play = .ok files ∧
        vars = Variables.ofSources (s'.graph.sources play task layers files))
    fun _ s' => Learns site s s' ∧
      ((∃ r ∈ s.graph.defaultRoles play task, s.graph.Faulty (s.readRole site · .main) [] r) ∨
        ∃ e, s.graph.playFiles site play = .error e) := by
  unfold resolveVars
  simp only [ends_bind, ends_graph]
  have hstart :
      Progress site (s.readRole site · .main) [] s s [] (s.graph.defaultRoles play task) :=
    .start (hasRole_defaultRoles hs hp hx) (defaultRoles_apart hs hp)
  refine (assignDefaults_ends hs hstart ⟨[], .nil, rfl⟩).mono ?_ ?_
  · rintro _ s₁ ⟨hprog, layers, hpost, rfl⟩
    have hgrows := hprog.learns.grows
    refine assignPlay_ends.mono ?_ ?_
    · rintro _ s₂ ⟨h₂, hg, files, hfiles, rfl⟩
      refine assignTask_ends.mono ?_ fun _ _ h => h.elim
      rintro _ _ ⟨rfl, rfl⟩
      refine ⟨hprog.learns.trans h₂.learns, fun r hr => (hprog.visited r hr).sane, layers,
        files, ?_, ?_, ?_⟩
      · rw [hg, defaultRoles_grows hp hx hgrows]; exact hpost
      · rw [hg]; exact hfiles
      · simp only [Graph.sources, hg, Variables.ofSources, List.foldl_append]
    · rintro e s₂ ⟨h₂, he⟩
      rw [playFiles_grows hs hp hgrows] at he
      exact ⟨hprog.learns.trans h₂.learns, Or.inr ⟨e, he⟩⟩
  · exact fun e s₁ h => ⟨h.1, Or.inl h.2⟩

end Roles

end Runlist
