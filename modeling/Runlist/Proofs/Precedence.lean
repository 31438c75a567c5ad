import Runlist.Proofs.Reach

/-!
# Which variables count

Of the sources of a task's variables, the last one that has a name gives it its value. Resolving
fails only if something is wrong with a role whose defaults count, or with a file of variables.

* `sorted_sources`: every source has each name once.
* `playFiles_error`: what is wrong with the files of a play is wrong with one of them.
* `resolveVars_eq_last`: **the value of a name, and when there is no value at all.**
-/

namespace Runlist

variable {site : Site} {sites : Site → Prop} {s : Store} {play : Option PlayId}
  {task : Option TaskId}

/-- The variables of a file have each name once. -/
theorem sorted_readDeclared {path : FilePath} {vars : Variables}
    (h : readDeclared site Declaration.vars path = .ok vars) : Fields.Sorted vars := by
  unfold readDeclared at h
  cases hread : site.disk.read path with
  | error e => rw [hread] at h; cases h
  | ok text =>
    rw [hread] at h
    simp only at h
    cases hof : Declaration.ofText Declaration.vars text with
    | error e => rw [hof] at h; cases h
    | ok vs => rw [hof] at h; cases h; exact Declaration.sorted_vars hof

theorem sorted_loadVarsFile {dir : FilePath} {file : String} {vars : Variables}
    (h : loadVarsFile site dir file = .ok vars) : Fields.Sorted vars := by
  unfold loadVarsFile at h
  simp only at h
  cases hread : readDeclared site Declaration.vars (varsFilePath dir file) with
  | error e => rw [hread] at h; cases h
  | ok vs => rw [hread] at h; cases h; exact sorted_readDeclared hread

namespace Graph

variable {g : Graph} {layers : List RoleId} {files : List Variables}

theorem sorted_playFiles (h : g.playFiles site play = .ok files) :
    ∀ vars ∈ files, Fields.Sorted vars := by
  intro vars hvars
  cases play with
  | none => cases h; cases hvars
  | some p =>
    obtain ⟨file, -, hfile⟩ := exists_left (mapM_ok.1 h) hvars
    exact sorted_loadVarsFile hfile

/-- **Every source has each name once.** -/
theorem sorted_sources (hs : g.Sound) (hp : ∀ p, play = some p → g.HasPlay p)
    (hx : ∀ x, task = some x → g.HasTask x) (hl : ∀ r ∈ layers, g.HasRole r)
    (hf : ∀ vars ∈ files, Fields.Sorted vars) :
    ∀ source ∈ g.sources play task layers files, Fields.Sorted source := by
  intro source hsource
  rw [sources, List.mem_append, List.mem_append, List.mem_append] at hsource
  rcases hsource with (hsource | hsource) | hsource | hsource
  · obtain ⟨r, hr, rfl⟩ := List.mem_map.1 hsource
    exact (hs.roles r (hl r hr)).defaults
  · cases play with
    | none => cases hsource
    | some p =>
      have hplay := hs.plays p (hp p rfl)
      rcases List.mem_append.1 hsource with hsource | hsource
      · rcases List.mem_cons.1 hsource with rfl | hsource
        · exact hplay.vars
        · exact hf source hsource
      · obtain ⟨r, hr, rfl⟩ := List.mem_map.1 hsource
        obtain ⟨_, -, hst⟩ := hplay.roles r hr
        exact (hs.roles r hst.has).vars
  · obtain ⟨r, hr, rfl⟩ := List.mem_map.1 hsource
    obtain ⟨x, hx', hr⟩ := Option.bind_eq_some_iff.1 (Option.mem_toList.1 hr)
    exact (hs.roles r ((hs.tasks x (hx x hx')).role r hr)).vars
  · obtain ⟨x, hx', rfl⟩ := List.mem_map.1 hsource
    exact (hs.tasks x (hx x (Option.mem_toList.1 hx'))).vars

/-- **What is wrong with the files of a play** is wrong with one that is not passed over. -/
theorem playFiles_error : (∃ e, g.playFiles site play = .error e) ↔ ∃ p, play = some p ∧
    ∃ file ∈ (g.play p).varsFiles, Text.occursIn "\x7b\x7b".toList file.toList = false ∧
      ∃ e, loadVarsFile site (g.playDir p) file = .error e := by
  cases play with
  | none =>
    constructor
    · rintro ⟨e, he⟩; cases he
    · rintro ⟨p, hp, -⟩; cases hp
  | some p =>
    rw [playFiles, Site.readVarsFiles, mapM_error]
    simp only [List.mem_filter, Bool.not_eq_true', Option.some.injEq, and_assoc, exists_eq_left']

end Graph

/-- **The value of a name is that of the last source that has it**, and no value where no source has
it. The sources are the defaults of the play's roles and of the task's own role, each after those of
all it depends on; the variables of the play, of its files and of its roles; those of the task's
role and of the task. There are no values at all exactly if a dependency of one of these roles
cannot be loaded or closes a cycle, or a file that is not passed over cannot be read. -/
theorem resolveVars_eq_last (h : Reachable sites s) (hp : ∀ p, play = some p → s.graph.HasPlay p)
    (hx : ∀ x, task = some x → s.graph.HasTask x) :
    (∀ vars s', (resolveVars site play task).run.run s = (.ok vars, s') →
      ∃ layers files, s'.graph.PostOrder (s'.graph.defaultRoles play task) layers ∧
        s'.graph.playFiles site play = .ok files ∧
        ∀ k, Fields.get? vars k = Variables.lastOf (s'.graph.sources play task layers files) k) ∧
    ((∃ err s', (resolveVars site play task).run.run s = (.error err, s')) ↔
      (∃ r ∈ s.graph.defaultRoles play task, s.graph.Faulty (s.readRole site · .main) [] r) ∨
        ∃ p, play = some p ∧ ∃ file ∈ (s.graph.play p).varsFiles,
          Text.occursIn "\x7b\x7b".toList file.toList = false ∧
            ∃ e, loadVarsFile site (s.graph.playDir p) file = .error e) := by
  have hs := h.sound
  have hends : Ends (resolveVars site play task) s _ _ := resolveVars_ends hs hp hx
  rw [← Graph.playFiles_error]
  refine ⟨fun vars s' hrun => ?_, fun ⟨err, s', hrun⟩ => (hends.of_error hrun).2, fun hwrong => ?_⟩
  · obtain ⟨hlearns, -, layers, files, hpost, hfiles, rfl⟩ := hends.of_ok hrun
    have hs' := hlearns.sound hs
    have k := hlearns.grows.keeps
    refine ⟨layers, files, hpost, hfiles, fun _ => Variables.get?_ofSources ?_⟩
    exact Graph.sorted_sources hs' (fun p hplay => k.hasPlay (hp p hplay))
      (fun x htask => k.hasTask (hx x htask))
      (hpost.hasRole hs') (Graph.sorted_playFiles hfiles)
  · cases hrun : (resolveVars site play task).run.run s with
    | mk result s' =>
      cases result with
      | error err => exact ⟨err, s', rfl⟩
      -- where there are values, the roles are sane and the files were read
      | ok vars =>
        obtain ⟨hlearns, hsane, layers, files, -, hfiles, -⟩ := hends.of_ok hrun
        rcases hwrong with ⟨r, hr, hfaulty⟩ | ⟨e, he⟩
        · exact absurd hfaulty (hsane r hr)
        · rw [playFiles_grows hs hp hlearns.grows, he] at hfiles; cases hfiles

/-- In the small play, the variables of its first task. -/
def smallVars : Except LoadError Variables × Store :=
  (resolveVars smallSite (some ⟨0⟩) (some ⟨0⟩)).run.run smallLoad.2

/-- The value of the small play counts, not the default of the role on which its role depends. -/
theorem small_port : ∃ vars, (Fields.get? vars "port").map Json.text = some "2" ∧ ∃ layers files,
    smallVars.2.graph.PostOrder (smallVars.2.graph.defaultRoles (some ⟨0⟩) (some ⟨0⟩)) layers ∧
    smallVars.2.graph.playFiles smallSite (some ⟨0⟩) = .ok files ∧ ∀ k, Fields.get? vars k =
      Variables.lastOf (smallVars.2.graph.sources (some ⟨0⟩) (some ⟨0⟩) layers files) k := by
  have hport : smallVars.1.toOption.map (fun vars => (Fields.get? vars "port").map Json.text) =
      some (some "2") := by decide +kernel
  obtain ⟨vars, hvars, hvalue⟩ := Option.map_eq_some_iff.1 hport
  have hp : ∀ p, some (⟨0⟩ : PlayId) = some p → smallLoad.2.graph.HasPlay p := by
    rintro _ ⟨⟩; exact has_small.1
  have hx : ∀ x, some (⟨0⟩ : TaskId) = some x → smallLoad.2.graph.HasTask x := by
    rintro _ ⟨⟩; exact has_small.2
  exact ⟨vars, hvalue, (resolveVars_eq_last reachable_small hp hx).1 vars _ (run_ok hvars)⟩

end Runlist
