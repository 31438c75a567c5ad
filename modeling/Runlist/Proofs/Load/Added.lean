import Runlist.Proofs.Forest
import Runlist.Proofs.Load.Role

/-!
# Roles that are added to any state

What is said of loading elsewhere begins with a sound graph. How much is added to the graph, and
where the role that is loaded stands, does not depend on that.

* `Graph.AddsTasks`: tasks with their origins are added, and neither plays nor roles.
* `addsTasks_stampTasks`, `addsTasks_stampReferences`: declared tasks and references are added so.
* `Graph.Planted`: new tasks are what some items say, and stay so.
* `AddedRole`: one role was added, of a name and a directory.
* `loadRoleWith_adds`: **a role that is loaded is added**, and its directory is remembered; nothing
  is remembered of a role that is not.
-/

namespace Runlist

variable {site : Site} {s s₁ s₂ : Store}

/-! ## Tasks and references -/

namespace Graph

variable {g g₁ g₂ : Graph}

/-- **Tasks with their origins are added**, and neither plays nor roles. -/
structure AddsTasks (g g' : Graph) : Prop extends Adds g g' where
  plays_eq : g'.plays = g.plays
  roles_eq : g'.roles = g.roles

theorem AddsTasks.refl (g : Graph) : g.AddsTasks g := ⟨.refl g, rfl, rfl⟩

theorem AddsTasks.trans (h : g.AddsTasks g₁) (h' : g₁.AddsTasks g₂) : g.AddsTasks g₂ :=
  ⟨h.toAdds.trans h'.toAdds, h'.plays_eq.trans h.plays_eq, h'.roles_eq.trans h.roles_eq⟩

theorem addsTasks_addOrigin (o : Origin) : g.AddsTasks (g.addOrigin o).2 :=
  ⟨adds_addOrigin o, rfl, rfl⟩

mutual
theorem addsTasks_stampTask (g : Graph) (context : TaskContext) (o : Option OriginId)
    (parent : Option TaskId) (d : TaskDeclaration) :
    g.AddsTasks (g.stampTask context o parent d).2 := by
  match d with
  | ⟨range, name, vars, raw, block⟩ =>
    rw [stampTask_eq]
    have hhead : g.AddsTasks (g.stampHead context o parent range name vars raw) :=
      ⟨adds_stampHead, rfl, rfl⟩
    have hblock := addsTasks_stampTasks (g.stampHead context o parent range name vars raw) context
      (some ⟨g.origins.size⟩) (some ⟨g.tasks.size⟩) block
    have hadds := hhead.trans hblock
    have hnew : ¬ g.HasTask ⟨g.tasks.size⟩ := lt_irrefl _
    exact ⟨hadds.toAdds.modifyTask hnew (hadds.newTask _ hnew), hadds.plays_eq, hadds.roles_eq⟩

theorem addsTasks_stampTasks (g : Graph) (context : TaskContext) (o : Option OriginId)
    (parent : Option TaskId) (ds : List TaskDeclaration) :
    g.AddsTasks (g.stampTasks context o parent ds).2 := by
  match ds with
  | [] => rw [stampTasks]; exact .refl g
  | d :: ds =>
    rw [stampTasks]
    exact (addsTasks_stampTask g context o parent d).trans
      (addsTasks_stampTasks _ context o parent ds)
end

/-- References are added, each with an origin inside another one. -/
theorem addsTasks_stampReferences (g : Graph) (path : FilePath) (o : OriginId)
    (rs : List RoleReference) :
    g.AddsTasks (g.stampReferences path o rs).2 ∧
      List.Forall₂ ((g.stampReferences path o rs).2.StampedReference path o)
        (g.stampReferences path o rs).1 rs := by
  induction rs generalizing g with
  | nil => exact ⟨.refl g, .nil⟩
  | cons r rs ih =>
    obtain ⟨hrest, hstamped⟩ :=
      ih (g.addOrigin ⟨.roleDefinition, path, r.range, some r.name, some o⟩).2
    refine ⟨(addsTasks_addOrigin _).trans hrest,
      .cons (StampedReference.keeps hrest.toAdds.keeps ⟨?_, rfl, ?_⟩) hstamped⟩
    · exact hasOrigin_addOrigin.2 (.inl rfl)
    · exact origin_addOrigin_self _

theorem vars_stampReferences (g : Graph) (path : FilePath) (o : OriginId)
    (rs : List RoleReference) :
    List.Forall₂ (fun (d : RoleDefinition) (r : RoleReference) => d.vars = r.vars)
      (g.stampReferences path o rs).1 rs := by
  induction rs generalizing g with
  | nil => exact .nil
  | cons r rs ih => exact .cons rfl (ih _)

/-! ## Forests of new tasks -/

/-- **New tasks are what some items say**, at every depth, inside an origin. -/
def Planted (g₀ g : Graph) (context : TaskContext) (o : OriginId) (items : List Json)
    (xs : List TaskId) : Prop :=
  ∃ ids, g.Forest context (some o) none xs items ids ∧
    ∀ x ∈ ids, ¬ g₀.HasTask x ∧ g.HasTask x ∧ g.HasOrigin (g.task x).origin

namespace Planted

variable {g₀ : Graph} {context : TaskContext} {o : OriginId} {items : List Json} {xs : List TaskId}

theorem adds (h : g₀.Planted g context o items xs) (hadds : g.Adds g₁) :
    g₀.Planted g₁ context o items xs := by
  obtain ⟨ids, hforest, hnew⟩ := h
  refine ⟨ids, hforest.of_same fun x hx => ?_, fun x hx => ?_⟩
  · obtain ⟨-, htask, horigin⟩ := hnew x hx
    exact ⟨hadds.task x htask, hadds.origin _ horigin⟩
  · obtain ⟨hnot, htask, horigin⟩ := hnew x hx
    rw [hadds.task x htask]
    exact ⟨hnot, hadds.keeps.hasTask htask, hadds.keeps.hasOrigin horigin⟩

theorem since (h : g₁.Planted g context o items xs) (hadds : g₀.Adds g₁) :
    g₀.Planted g context o items xs := by
  obtain ⟨ids, hforest, hnew⟩ := h
  exact ⟨ids, hforest, fun x hx =>
    ⟨fun hhas => (hnew x hx).1 (hadds.keeps.hasTask hhas), (hnew x hx).2⟩⟩

/-- Plays and roles do not matter. -/
theorem of_eq (h : g₀.Planted g context o items xs) (htasks : g₁.tasks = g.tasks)
    (horigins : g₁.origins = g.origins) : g₀.Planted g₁ context o items xs := by
  have htask : ∀ x, g₁.task x = g.task x := fun x => by rw [task, task, htasks]
  obtain ⟨ids, hforest, hnew⟩ := h
  refine ⟨ids, hforest.of_same fun x _ => ⟨htask x, by rw [origin, origin, horigins]⟩,
    fun x hx => ?_⟩
  obtain ⟨hnot, hhas, horigin⟩ := hnew x hx
  refine ⟨hnot, ?_, ?_⟩
  · rw [HasTask, htasks]; exact hhas
  · rw [htask, HasOrigin, horigins]; exact horigin

end Planted

/-- Declared tasks are planted when they are stamped. -/
theorem planted_stampTasks {ds : List TaskDeclaration} {items : List Json} (h : Declares ds items)
    (g : Graph) (context : TaskContext) (o : OriginId) :
    g.Planted (g.stampTasks context (some o) none ds).2 context o items
      (g.stampTasks context (some o) none ds).1 := by
  obtain ⟨ids, hforest, hnumbered, happends⟩ := stampTasks_forest h g (some o) none
  refine ⟨ids, hforest, fun x hx => ?_⟩
  obtain ⟨htask, horigin⟩ := hnumbered.mem hx
  have htasks := happends.tasks_size
  have horigins := happends.origins_size
  unfold HasTask HasOrigin
  omega

end Graph

/-- To load tasks adds tasks, or leaves the state as it is. -/
theorem loadTasksIn_adds (site : Site) (o : Option OriginId) (role : Option RoleId)
    (play : Option PlayId) (path : FilePath) (s : Store) :
    Ends (loadTasksIn site o role play path) s
      (fun _ s' => s.graph.AddsTasks s'.graph ∧ s'.roleDirs = s.roleDirs) fun _ s' => s' = s := by
  unfold loadTasksIn readFile
  rw [ends_bind]
  cases site.disk.read path with
  | error e => exact rfl
  | ok text =>
    rw [ends_pure]
    cases Declaration.ofText Declaration.taskList text with
    | error e => exact rfl
    | ok ds => exact ⟨Graph.addsTasks_stampTasks s.graph _ o none ds, rfl⟩

/-! ## Roles -/

/-- A loop keeps what each round keeps, however it ends. -/
theorem Ends.forM_keeps {ε σ α : Type} {P : σ → Prop} {f : α → ExceptT ε (StateM σ) PUnit}
    {l : List α} {s : σ} (round : ∀ a s, P s → Ends (f a) s (fun _ s' => P s') fun _ s' => P s')
    (h : P s) : Ends (l.forM f) s (fun _ s' => P s') fun _ s' => P s' := by
  induction l generalizing s with
  | nil => exact h
  | cons a l ih =>
    show Ends (f a >>= fun _ => l.forM f) s _ _
    rw [ends_bind]
    exact (round a s h).mono (fun _ _ h₁ => ih h₁) fun _ _ h₁ => h₁

/-- A role as it is when it is loaded, but for what its files say. -/
def Role.SameStart (role role' : Role) : Prop :=
  ∃ tasks defaults vars declared, role' = { role with tasks, defaults, vars, declared }

/-- **One role was added**, of a name and a directory, inside an origin and in the scope of a
play. -/
structure AddedRole (s s' : Store) (o : Option OriginId) (play : Option PlayId) (name : String)
    (dir : FilePath) (isPublic : Bool) : Prop where
  adds : s.graph.Adds s'.graph
  size : s'.graph.roles.size = s.graph.roles.size + 1
  plays : s'.graph.plays = s.graph.plays
  dirs : s'.roleDirs = s.roleDirs
  role :
      Role.SameStart ⟨name, dir, isPublic, ⟨s.graph.origins.size⟩, play, [], [], [], .empty, none,
        none⟩ (s'.graph.role ⟨s.graph.roles.size⟩)
  hasOrigin : s'.graph.HasOrigin ⟨s.graph.origins.size⟩
  origin : s'.graph.origin ⟨s.graph.origins.size⟩ = ⟨.role, dir, .unknown, some name, o⟩

namespace AddedRole

variable {o : Option OriginId} {play : Option PlayId} {name : String} {dir : FilePath}
  {isPublic : Bool}

theorem has (h : AddedRole s s₁ o play name dir isPublic) :
    s₁.graph.HasRole ⟨s.graph.roles.size⟩ := by
  rw [Graph.HasRole, h.size]
  exact Nat.lt_succ_self _

/-- More tasks are added beside the role. -/
theorem more (h : AddedRole s s₁ o play name dir isPublic) (hadds : s₁.graph.AddsTasks s₂.graph)
    (hdirs : s₂.roleDirs = s₁.roleDirs) : AddedRole s s₂ o play name dir isPublic where
  adds := h.adds.trans hadds.toAdds
  size := by rw [hadds.roles_eq]; exact h.size
  plays := hadds.plays_eq.trans h.plays
  dirs := hdirs.trans h.dirs
  role := by rw [hadds.toAdds.role _ h.has]; exact h.role
  hasOrigin := hadds.toAdds.keeps.hasOrigin h.hasOrigin
  origin := by rw [hadds.toAdds.origin _ h.hasOrigin]; exact h.origin

/-- The role is filled with what a file says. -/
theorem fill (h : AddedRole s s₁ o play name dir isPublic) {f : Role → Role}
    (hf : ∀ role, Role.SameStart role (f role)) :
    AddedRole s { s₁ with graph := s₁.graph.modifyRole ⟨s.graph.roles.size⟩ f } o play name dir
      isPublic := by
  have hself : (s₁.graph.modifyRole ⟨s.graph.roles.size⟩ f).role ⟨s.graph.roles.size⟩ =
      f (s₁.graph.role ⟨s.graph.roles.size⟩) := Graph.role_modifyRole_self h.has
  obtain ⟨tasks, defaults, vars, declared, hrole⟩ := h.role
  obtain ⟨tasks', defaults', vars', declared', hfilled⟩ := hf (s₁.graph.role ⟨s.graph.roles.size⟩)
  rw [hrole] at hfilled
  have hnone : (f (s₁.graph.role ⟨s.graph.roles.size⟩)).directDependencies = none ∧
      (f (s₁.graph.role ⟨s.graph.roles.size⟩)).allDependencies = none := by
    rw [hrole, hfilled]
    exact ⟨rfl, rfl⟩
  refine ⟨h.adds.modifyRole (lt_irrefl _) hnone, ?_, h.plays, h.dirs, ?_, h.hasOrigin, h.origin⟩
  · simp only [Graph.modifyRole, Array.size_modify]
    exact h.size
  · rw [hself, hrole, hfilled]
    exact ⟨tasks', defaults', vars', declared', rfl⟩

end AddedRole

/-- One file of a role fills it, or fails beside it. -/
theorem loadRoleFile_adds {o : Option OriginId} {play : Option PlayId} {name : String}
    {dir : FilePath} {isPublic : Bool} (h : AddedRole s s₁ o play name dir isPublic)
    (selection : RoleSelection) (folder : String) (file : List String) (path : FilePath) :
    Ends (loadRoleFile site selection ⟨s.graph.roles.size⟩ folder file path) s₁
      (fun _ s₂ => AddedRole s s₂ o play name dir isPublic) fun _ s₂ =>
      AddedRole s s₂ o play name dir isPublic := by
  -- defaults and variables are read alike, and what is not read is passed over with a notice
  have hvars :
      ∀ (fill : Variables → Role → Role), (∀ vars role, Role.SameStart role (fill vars role)) →
      Ends (do
        let vars ← loadRoleVars site path
        Load.update fun g => g.modifyRole ⟨s.graph.roles.size⟩ (fill vars)) s₁
        (fun _ s₂ => AddedRole s s₂ o play name dir isPublic) fun _ s₂ =>
          AddedRole s s₂ o play name dir isPublic := by
    intro fill hfill
    rw [ends_bind]
    unfold loadRoleVars
    split
    · exact h.fill (hfill _)
    · rename_i e _
      have hnoted :
          AddedRole s { s₁ with notices := s₁.notices ++ [.ignoredVariables path e] } o play name
            dir isPublic :=
        h.more (.refl _) rfl
      exact hnoted.fill (hfill _)
  unfold loadRoleFile
  rw [ends_bind, ends_graph]
  split
  · split
    · rw [ends_bind]
      refine (loadTasksIn_adds site _ _ _ path s₁).mono ?_ ?_
      · rintro tasks s₂ ⟨hadds, hdirs⟩
        exact (h.more hadds hdirs).fill fun role => ⟨role.tasks ++ tasks, _, _, _, rfl⟩
      · rintro e s₂ rfl
        exact h
    · exact h
  · split
    · exact hvars _ fun vars role => ⟨_, role.defaults.assign vars, _, _, rfl⟩
    · exact h
  · split
    · exact hvars _ fun vars role => ⟨_, _, role.vars.assign vars, _, rfl⟩
    · exact h
  · split
    · split
      · rename_i m _
        rw [ends_bind, ends_change]
        have hadds :
            s₁.graph.AddsTasks
              (s₁.graph.stampMeta path (s₁.graph.role ⟨s.graph.roles.size⟩).origin m).2 :=
          (Graph.addsTasks_addOrigin _).trans
            (Graph.addsTasks_stampReferences _ path _ m.dependencies).1
        have hstamped : AddedRole s { s₁ with graph := (s₁.graph.stampMeta path
            (s₁.graph.role ⟨s.graph.roles.size⟩).origin m).2 } o play name dir isPublic :=
          h.more hadds rfl
        exact hstamped.fill fun role => ⟨_, _, _, _, rfl⟩
      · exact h.more (.refl _) rfl
    · exact h
  · exact h

theorem loadRoleFiles_adds {o : Option OriginId} {play : Option PlayId} {name : String}
    {dir : FilePath} {isPublic : Bool} (h : AddedRole s s₁ o play name dir isPublic) (site : Site)
    (selection : RoleSelection) :
    Ends (loadRoleFiles site selection ⟨s.graph.roles.size⟩ dir) s₁
      (fun _ s₂ => AddedRole s s₂ o play name dir isPublic) fun _ s₂ =>
      AddedRole s s₂ o play name dir isPublic := by
  unfold loadRoleFiles
  split
  · exact h
  · refine Ends.forM_keeps (P := fun s₂ => AddedRole s s₂ o play name dir isPublic)
      (fun names s₂ h₂ => ?_) h
    split
    · exact h₂
    · exact loadRoleFile_adds h₂ selection _ _ _

/-- A role without files. -/
theorem addedRole_new (s : Store) (o : Option OriginId) (play : Option PlayId) (name : String)
    (dir : FilePath) (isPublic : Bool) :
    AddedRole s
      { s with graph := ((s.graph.addOrigin ⟨.role, dir, .unknown, some name, o⟩).2.addRole
      ⟨name, dir, isPublic, ⟨s.graph.origins.size⟩, play, [], [], [], .empty, none, none⟩).2 } o
        play name dir isPublic where
  adds := (Graph.adds_addOrigin _).trans (Graph.adds_addRole rfl rfl)
  size := Array.size_push _
  plays := rfl
  dirs := rfl
  role := by
    have hself :=
      Graph.role_addRole_self (g := (s.graph.addOrigin ⟨.role, dir, .unknown, some name, o⟩).2)
      ⟨name, dir, isPublic, ⟨s.graph.origins.size⟩, play, [], [], [], .empty, none, none⟩
    exact ⟨[], [], [], .empty, hself⟩
  hasOrigin := Graph.hasOrigin_addOrigin.2 (.inl rfl)
  origin := Graph.origin_addOrigin_self _

/-- **A role that is loaded is added**, and the directory in which it was found is remembered. Of a
role that fails to load, no directory is remembered. -/
theorem loadRoleWith_adds (site : Site) (o : Option OriginId) (play : Option PlayId) (name : String)
    (selection : RoleSelection) (s : Store) :
    Ends (loadRoleWith site o play name selection) s
      (fun r s' => r = ⟨s.graph.roles.size⟩ ∧ ∃ dir s₁, s.locate site name = .ok dir ∧
        AddedRole s s₁ o play name dir (selection.isPublic.getD false) ∧
        s' = s₁.addRoleDir name dir)
      fun _ s' => s.graph.Adds s'.graph ∧ s'.roleDirs = s.roleDirs ∧
      s'.graph.plays = s.graph.plays := by
  unfold loadRoleWith
  rw [ends_bind, ends_get, ends_bind, ends_ofExcept]
  refine ⟨fun dir hlocate => ?_, fun e hlocate => ⟨.refl _, rfl, rfl⟩⟩
  rw [ends_bind, ends_change, ends_bind]
  refine (loadRoleFiles_adds (addedRole_new s o play name dir _) site selection).mono
    (fun _ s₁ h => ?_) fun e s₁ h => ?_
  · rw [ends_bind, ends_modify, ends_pure]
    exact ⟨rfl, dir, s₁, hlocate, h, rfl⟩
  · exact ⟨h.adds, h.dirs, h.plays⟩

end Runlist
